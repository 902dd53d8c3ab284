import Krc721.Processor.ReachableInvariants

/-! Databases in which operations are processed, and what an operation leaves alone. Nothing
here depends on the score of the operation. -/

set_option autoImplicit false

namespace Krc721

open OrderedStore

/-- A database of a run, or one in the middle of the mergeset of a new chain block. -/
inductive Processing (kaspa : Kaspa) (adds : Db → List Mergeset → Prop)
    (removes : Db → List RpcHash → Option ℕ → Prop) : Db → Prop where
  | committed {db : Db} (run : GuardedRun kaspa adds removes db) : Processing kaspa adds removes db
  | midway {db db' : Db} {mergeset : Mergeset} {done rest : List ContextOperation}
      {diff : StatsDiffs} (run : GuardedRun kaspa adds removes db)
      (valid : mergeset.Valid kaspa) (guarded : adds db [mergeset])
      (unknown : ¬ mergeset.Known db.toChainStore db.lastAcceptedBlueScore)
      (split : scoredOperations kaspa { db with
        toChainStore := db.toChainStore.accept mergeset } mergeset = done ++ rest)
      (success : processNftOperations kaspa { db with
        toChainStore := db.toChainStore.accept mergeset } 0 done = .ok (db', diff)) :
      Processing kaspa adds removes db'

/-- Such a database of a run in which no addition processes a fork. -/
abbrev UnforkedProcessing (kaspa : Kaspa) : Db → Prop :=
  Processing kaspa Db.Unforked fun _ _ _ => True

theorem Fresh.of_append {db : Db} {bound : ℕ} {done rest : List ContextOperation}
    (fresh : Fresh db bound (done ++ rest)) : Fresh db bound done where
  reached := fun context member => fresh.reached context (List.mem_append_left _ member)
  ascending := (List.pairwise_append.1 fresh.ascending).1
  fits := fun context member => fresh.fits context (List.mem_append_left _ member)
  sound := fun context member => fresh.sound context (List.mem_append_left _ member)
  new := fun context member => fresh.new context (List.mem_append_left _ member)
  distinct := (List.pairwise_append.1 fresh.distinct).1

theorem UnforkedProcessing.replay {kaspa : Kaspa} {db : Db}
    (processing : UnforkedProcessing kaspa db) : ∃ bound, Replay kaspa bound db.toLedger := by
  cases processing with
  | committed reachable => exact (UnforkedReachable.consistent reachable).replay
  | @midway start _ mergeset done rest diff reachable valid unforked unknown split success =>
      have reachable : UnforkedReachable kaspa start := reachable
      have above := unforked.above (List.mem_singleton_self mergeset) unknown
      obtain ⟨bound, replay, le⟩ := reachable.consistent.replay_le valid above
      have scoreLe : calculateTxScoreFromBlue kaspa mergeset.blueScore ≤ u64Max :=
        lt_two_pow_iff_le_u64Max.1 (Nat.mod_lt _ (by positivity))
      have wf := replay.wf.mono le (scoreLe.trans (Nat.le_succ _))
      have given := (valid.fresh { start with
        toChainStore := start.toChainStore.accept mergeset }).1
      rw [split] at given
      obtain ⟨final, diff', last, loop, run, _⟩ :=
        @processNftOperations_run kaspa _ _ { start with
          toChainStore := start.toChainStore.accept mergeset } 0 wf given.of_append
      rw [success] at loop
      cases loop
      obtain ⟨bound', _, extended⟩ := Replay.run (show Replay kaspa bound ({ start with
        toChainStore := start.toChainStore.accept mergeset } : Db).toLedger from replay) le run
      exact ⟨bound', extended⟩

/-! The rows of a token, and the range rows of a tick. -/

/-- Two ownership stores have the same rows for a token. -/
structure OwnershipStore.SameToken (left right : OwnershipStore) (token : OwnershipKey) :
    Prop where
  mints : ∀ reversedSeq score,
    right.mintHistory.get ⟨token.tick, reversedSeq, token.tokenId, score⟩ =
      left.mintHistory.get ⟨token.tick, reversedSeq, token.tokenId, score⟩
  changes : ∀ score reversedSeq,
    right.ownershipChanges.get ⟨score, token.tick, token.tokenId, reversedSeq⟩ =
      left.ownershipChanges.get ⟨score, token.tick, token.tokenId, reversedSeq⟩
  history : ∀ reversedScore,
    right.ownershipHistory.get ⟨token.tick, token.tokenId, reversedScore⟩ =
      left.ownershipHistory.get ⟨token.tick, token.tokenId, reversedScore⟩
  current : right.currentOwnership.get token = left.currentOwnership.get token
  holdings : ∀ spk, right.addressHoldings.get ⟨spk, token.tick, token.tokenId⟩ =
    left.addressHoldings.get ⟨spk, token.tick, token.tokenId⟩

/-- Two databases have the same listing rows for a token. -/
structure Db.SameListing (left right : Db) (token : OwnershipKey) : Prop where
  listings : right.listings.get token = left.listings.get token
  byTick : right.listingsByTick.get ⟨token.tick, token.tokenId⟩ =
    left.listingsByTick.get ⟨token.tick, token.tokenId⟩
  byAddress : ∀ spk, right.addressListings.get ⟨spk, token.tick, token.tokenId⟩ =
    left.addressListings.get ⟨spk, token.tick, token.tokenId⟩

/-- Two range stores have the same rows for a tick. -/
structure RangeStore.SameRows (left right : RangeStore) (tick : Tick) : Prop extends
    left.SameTick right tick where
  tokenIdMeta : ∀ tokenId,
    right.tokenIdMeta.get ⟨tick, tokenId⟩ = left.tokenIdMeta.get ⟨tick, tokenId⟩

namespace OwnershipStore

variable {store middle last : OwnershipStore} {token : OwnershipKey}

theorem SameToken.refl (store : OwnershipStore) (token : OwnershipKey) :
    store.SameToken store token :=
  ⟨fun _ _ => rfl, fun _ _ => rfl, fun _ => rfl, rfl, fun _ => rfl⟩

theorem SameToken.trans (first : store.SameToken middle token)
    (second : middle.SameToken last token) : store.SameToken last token where
  mints := fun reversedSeq score => (second.mints reversedSeq score).trans
    (first.mints reversedSeq score)
  changes := fun score reversedSeq => (second.changes score reversedSeq).trans
    (first.changes score reversedSeq)
  history := fun reversedScore => (second.history reversedScore).trans
    (first.history reversedScore)
  current := second.current.trans first.current
  holdings := fun spk => (second.holdings spk).trans (first.holdings spk)

variable {tick : Tick} {tokenId : ℕ}

theorem sameToken_recordMint (store : OwnershipStore) (seq score : ℕ) (toSpk : ScriptPublicKey)
    (different : token ≠ ⟨tick, tokenId⟩) :
    store.SameToken (store.recordMint tick seq tokenId score toSpk) token := by
  obtain ⟨tick', tokenId'⟩ := token
  rw [ne_eq, OwnershipKey.mk.injEq] at different
  constructor
  all_goals
    intros
    simp only [recordMint, MintHistoryKey.withSeq, TokenMintsKey.withSeq,
      OwnershipHistoryKey.withScore, Partition.get_insert]
    grind

theorem sameToken_recordTransfer (store : OwnershipStore) (score : ℕ)
    (fromSpk toSpk : ScriptPublicKey) (different : token ≠ ⟨tick, tokenId⟩) :
    store.SameToken (store.recordTransfer tick tokenId score fromSpk toSpk) token := by
  obtain ⟨tick', tokenId'⟩ := token
  rw [ne_eq, OwnershipKey.mk.injEq] at different
  refine ⟨fun _ _ => rfl, ?_, ?_, ?_, ?_⟩
  all_goals
    intros
    simp only [recordTransfer, TokenMintsKey.withSeq, OwnershipHistoryKey.withScore,
      Partition.get_insert, Partition.get_erase]
    grind

end OwnershipStore

namespace Db

variable {token : OwnershipKey} {tick : Tick} {tokenId : ℕ}

theorem SameListing.refl (db : Db) (token : OwnershipKey) : db.SameListing db token :=
  ⟨rfl, rfl, fun _ => rfl⟩

theorem SameListing.trans {db middle last : Db} (first : db.SameListing middle token)
    (second : middle.SameListing last token) : db.SameListing last token :=
  ⟨second.listings.trans first.listings, second.byTick.trans first.byTick,
    fun spk => (second.byAddress spk).trans (first.byAddress spk)⟩

theorem sameListing_insertListing (db : Db) (value : ListingValue)
    (different : token ≠ ⟨tick, tokenId⟩) :
    db.SameListing (db.insertListing tick tokenId value) token := by
  obtain ⟨tick', tokenId'⟩ := token
  rw [ne_eq, OwnershipKey.mk.injEq] at different
  constructor
  all_goals
    intros
    simp only [insertListing, Partition.get_insert]
    grind

theorem sameListing_removeListing (db : Db) (seller : ScriptPublicKey)
    (different : token ≠ ⟨tick, tokenId⟩) :
    db.SameListing (db.removeListing tick tokenId seller) token := by
  obtain ⟨tick', tokenId'⟩ := token
  rw [ne_eq, OwnershipKey.mk.injEq] at different
  constructor
  all_goals
    intros
    simp only [removeListing, Partition.get_erase]
    grind

end Db

/-! The ranges of other ticks. -/

namespace RangeStore

variable {store middle last : RangeStore} {tick other : Tick}

theorem SameRows.refl (store : RangeStore) (tick : Tick) : store.SameRows store tick :=
  ⟨⟨rfl, fun _ => rfl⟩, fun _ => rfl⟩

theorem SameRows.trans (first : store.SameRows middle tick) (second : middle.SameRows last tick) :
    store.SameRows last tick :=
  ⟨⟨first.length.trans second.length, fun index => (first.ranges index).trans
    (second.ranges index)⟩, fun tokenId => (second.tokenIdMeta tokenId).trans
    (first.tokenIdMeta tokenId)⟩

theorem sameRows_selectRange (store : RangeStore) (entropy maxSupply premint : ℕ)
    (different : other ≠ tick) :
    store.SameRows (store.selectRange tick entropy maxSupply premint).store other := by
  unfold selectRange
  simp only
  split
  · refine ⟨⟨?_, fun _ => rfl⟩, fun _ => rfl⟩
    exact (Partition.get_insert_of_ne _ _ (Ne.symm different)).symm
  · exact .refl store other

theorem sameRows_removeRange {rangeIndex valueId start size rangesLen : ℕ} {isInitial : Bool}
    (success : store.removeRange tick rangeIndex valueId start size rangesLen isInitial =
      .ok last) (different : other ≠ tick) : store.SameRows last other := by
  unfold removeRange at success
  simp only at success
  split at success
  · split at success
    · cases success
    · cases success
      refine ⟨⟨?_, fun index => ?_⟩, fun tokenId => ?_⟩
      all_goals grind
  · cases success
    refine ⟨⟨?_, fun index => ?_⟩, fun tokenId => ?_⟩
    all_goals grind

theorem sameRows_shrinkRange (store : RangeStore) (rangeIndex start size valueId : ℕ)
    (fromStart isInitial : Bool) (different : other ≠ tick) :
    store.SameRows (store.shrinkRange tick rangeIndex start size valueId fromStart isInitial)
      other := by
  refine ⟨⟨rfl, fun index => ?_⟩, fun tokenId => ?_⟩
  all_goals
    simp only [shrinkRange]
    grind

theorem sameRows_splitRange (store : RangeStore)
    (rangeIndex valueId start size valueOffset rangesLen : ℕ) (isInitial : Bool)
    (different : other ≠ tick) :
    store.SameRows (store.splitRange tick rangeIndex valueId start size valueOffset rangesLen
      isInitial) other := by
  refine ⟨⟨?_, fun index => ?_⟩, fun tokenId => ?_⟩
  all_goals
    simp only [splitRange]
    grind

theorem sameRows_takeValue {selection : Selection} {start size valueId : ℕ}
    (success : takeValue selection tick start size valueId = .ok last)
    (different : other ≠ tick) : selection.store.SameRows last other := by
  unfold takeValue at success
  simp only at success
  split at success
  · split at success
    · exact sameRows_removeRange success different
    · cases success
      exact sameRows_shrinkRange _ _ _ _ _ _ _ different
  · split at success
    · cases success
      exact sameRows_shrinkRange _ _ _ _ _ _ _ different
    · cases success
      exact sameRows_splitRange _ _ _ _ _ _ _ _ different

/-- Drawing an id of one tick leaves the ranges of every other tick alone. -/
theorem sameRows_generateTokenId {entropy maxSupply premint tokenId : ℕ}
    (success : store.generateTokenId tick entropy maxSupply premint = .ok (last, tokenId))
    (different : other ≠ tick) : store.SameRows last other := by
  have selected := sameRows_selectRange store entropy maxSupply premint different
  unfold generateTokenId at success
  simp only at success
  split at success
  · cases success
  · split at success
    · cases success
    · split at success
      · cases success
      · split at success
        · cases success
        · rename_i taken
          split at success
          · cases success
          · cases success
            exact selected.trans (sameRows_takeValue taken different)

end RangeStore

end Krc721
