import Krc721.Processor.SupplyProperties

/-! What processing one operation can do. The ledger is well formed when its partitions agree;
then no operation faults, and each leaves a well-formed ledger behind. -/

set_option autoImplicit false

namespace Krc721

open OrderedStore

/-! The effect of a mint. -/

/-- The effect of a mint of `tokenId` on a tick with the mints `ids`: a preminted id leaves the
ranges alone, a random one can be rolled back. -/
structure Mint (owned : OwnershipStore) (ranges ranges' : RangeStore) (tick : Tick)
    (deploy : DeployInfo) (ids : List ℕ) (tokenId score : ℕ) (toSpk : ScriptPublicKey) :
    Prop where
  fresh : tokenId ∉ ids
  supply : Supply (owned.recordMint tick (ids.length + 1) tokenId score toSpk) ranges' tick
    deploy.max deploy.premint (ids ++ [tokenId])
  frame : ∀ other, other ≠ tick → ranges.SameTick ranges' other
  tokenIdMeta : ∀ other, other ≠ tick → ∀ id, ranges'.tokenIdMeta.get ⟨other, id⟩ =
    ranges.tokenIdMeta.get ⟨other, id⟩
  source : tokenId ≤ deploy.premint ∧ ranges' = ranges ∨
    deploy.premint < tokenId ∧ ranges'.rollbackTokenGeneration tick tokenId = .ok ranges

/-- What the source promises of a deployment: the preminted part fits, and so does the
sequence number after the last mint. -/
structure DeployInfo.Sound (deploy : DeployInfo) : Prop where
  premint_le : deploy.premint ≤ deploy.max
  max_lt : deploy.max < u64Max

instance (deploy : DeployInfo) : Decidable deploy.Sound :=
  decidable_of_iff (deploy.premint ≤ deploy.max ∧ deploy.max < u64Max)
    ⟨fun ⟨premint_le, max_lt⟩ => ⟨premint_le, max_lt⟩,
      fun sound => ⟨sound.premint_le, sound.max_lt⟩⟩

section ProcessMint

variable {db : Db} {common : OperationCommon}
variable {entry : ScoredDeployInfoWithCommon} {ids : List ℕ}

/-- A mint below the premint limit takes the next sequence number, whoever pays. -/
theorem processMint_premint (entropy score : ℕ) (info : MintInfo)
    (found : db.collectionRegistry.get common.tick = some entry)
    (le : entry.info.info.premint ≤ entry.info.info.max)
    (issued : Issued db.mintHistory common.tick ids)
    (early : ids.length < entry.info.info.premint) :
    processMint db entropy score common info true =
      .ok ({ db with toOwnershipStore :=
          db.recordMint common.tick (ids.length + 1) (ids.length + 1) score info.toSpk },
        .ok { info with tokenId := ids.length + 1 }) := by
  have last := issued.lastMintedTokenSeqNo
  have nonzero : entry.info.info.max ≠ 0 := by omega
  have positive : 0 < entry.info.info.premint := by omega
  have room : ¬ entry.info.info.max < ids.length + 1 := by omega
  simp [processMint, found, last, nonzero, early, positive, room]

/-- A mint either is refused and changes nothing, or takes a fresh id. -/
theorem processMint_outcome (entropy score : ℕ) (info : MintInfo)
    (found : db.collectionRegistry.get common.tick = some entry)
    (sound : entry.info.info.Sound)
    (supply : Supply db.toOwnershipStore db.toRangeStore common.tick entry.info.info.max
      entry.info.info.premint ids) :
    (∃ error, processMint db entropy score common info false = .ok (db, .error error)) ∨
    ∃ ranges tokenId,
      processMint db entropy score common info false =
        .ok ({ db with
            toRangeStore := ranges
            toOwnershipStore := db.recordMint common.tick (ids.length + 1) tokenId score
              info.toSpk },
          .ok { info with tokenId }) ∧
      Mint db.toOwnershipStore db.toRangeStore ranges common.tick entry.info.info ids tokenId
        score info.toSpk := by
  have last := supply.issued.lastMintedTokenSeqNo
  have premint_le := sound.premint_le
  unfold processMint
  simp only [found, last, Bool.not_false, Bool.true_and, decide_eq_true_eq]
  by_cases notStarted : common.acceptingBlockDaaScore < entry.info.info.mintStartDaa
  · rw [if_pos notStarted]
    exact .inl ⟨_, rfl⟩
  rw [if_neg notStarted]
  by_cases empty : entry.info.info.max = 0
  · rw [if_pos empty]
    exact .inl ⟨_, rfl⟩
  rw [if_neg empty]
  by_cases early : ids.length < entry.info.info.premint
  · have positive : 0 < entry.info.info.premint := by omega
    have room : ¬ entry.info.info.max < ids.length + 1 := by omega
    simp only [early, positive, room, decide_true, Bool.and_self, if_true, if_false,
      Bool.not_true, Bool.false_and, Bool.false_eq_true]
    refine .inr ⟨db.toRangeStore, ids.length + 1, rfl, ?_⟩
    refine ⟨?_, supply.premint_step early premint_le sound.max_lt score info.toSpk,
      fun _ _ => ⟨rfl, fun _ => rfl⟩, fun _ _ _ => rfl, .inl ⟨early, rfl⟩⟩
    intro member
    have bounds := supply.mem_premint early.le member
    omega
  · simp only [early, decide_false, Bool.and_false, Bool.not_false, Bool.true_and,
      Bool.false_eq_true, if_false, decide_eq_true_eq]
    cases violation : royaltyViolation db.vip common.tick info.toSpk
        entry.info.info.royalty info.royalty with
    | some error => exact .inl ⟨error, rfl⟩
    | none =>
        by_cases room : entry.info.info.max < ids.length + 1
        · simp only [if_pos room]
          exact .inl ⟨_, rfl⟩
        · have below : entry.info.info.premint < entry.info.info.max := by omega
          obtain ⟨taken, tokenId, success, above, _, unissued, rollback, frame, metaFrame,
              after⟩ :=
            supply.draw_step (by omega) (by omega) sound.max_lt entropy score info.toSpk
          simp only [if_neg room, if_pos below, success]
          exact .inr ⟨taken, tokenId, rfl, unissued, after, frame, metaFrame,
            .inr ⟨above, rollback⟩⟩

end ProcessMint

/-! The premint loop. -/

/-- The rows of `count` premints after the first `seq`. -/
def OwnershipStore.premints (store : OwnershipStore) (tick : Tick) (score : ℕ)
    (toSpk : ScriptPublicKey) : ℕ → ℕ → OwnershipStore
  | _, 0 => store
  | seq, count + 1 =>
      (store.recordMint tick (seq + 1) (seq + 1) score toSpk).premints tick score toSpk
        (seq + 1) count

/-- The loop writes the rows of all its premints and never fails. -/
theorem premintLoop_eq {common : OperationCommon} {info : DeployInfo} {score : ℕ}
    {ids : List ℕ} (count : ℕ) (db : Db)
    (found : db.collectionRegistry.get common.tick = some ⟨score, info, common⟩)
    (sound : info.Sound)
    (supply : Supply db.toOwnershipStore db.toRangeStore common.tick info.max info.premint ids)
    (fits : ids.length + count ≤ info.premint) :
    premintLoop common info score count db =
      .ok ({ db with
        toOwnershipStore := db.premints common.tick score info.deployer ids.length count },
        none) := by
  induction count generalizing db ids with
  | zero => rfl
  | succ count ih =>
      have early : ids.length < info.premint := by omega
      have minted := processMint_premint 0 score ⟨0, info.deployer, none⟩ found
        sound.premint_le supply.issued early
      have next := supply.premint_step early sound.premint_le sound.max_lt score info.deployer
      have length : (ids ++ [ids.length + 1]).length = ids.length + 1 := by simp
      simp only [premintLoop, minted]
      have rest := ih { db with
        toOwnershipStore := db.recordMint common.tick (ids.length + 1) (ids.length + 1) score
          info.deployer } found next (by omega)
      rw [length] at rest
      exact rest

namespace OwnershipStore

variable {owned : OwnershipStore} {ranges : RangeStore} {tick other : Tick} {deploy : DeployInfo}
variable {ids : List ℕ} {bound score seq count : ℕ} {toSpk : ScriptPublicKey}

/-- A mint of an id that is not out yet keeps the ownership partitions in agreement. -/
theorem Wf.mint (wf : owned.Wf bound) (low : score < bound) {max premint tokenId : ℕ}
    (supply : Supply owned ranges tick max premint ids) (fresh : tokenId ∉ ids)
    (counted : 0 < seq) : (owned.recordMint tick seq tokenId score toSpk).Wf bound := by
  refine wf.recordMint low counted fun reversed => ?_
  rw [← Option.not_isSome_iff_eq_none]
  exact fun present => fresh (supply.known present)

/-- The premints of a deployment, one by one. -/
theorem premints_spec (count : ℕ) (toSpk : ScriptPublicKey) (wf : owned.Wf bound)
    (low : score < bound) (sound : deploy.Sound)
    (supply : Supply owned ranges tick deploy.max deploy.premint ids)
    (fits : ids.length + count ≤ deploy.premint) :
    (owned.premints tick score toSpk ids.length count).Wf bound ∧
      ∃ ids', ids'.length = ids.length + count ∧
        Supply (owned.premints tick score toSpk ids.length count) ranges tick deploy.max
          deploy.premint ids' := by
  induction count generalizing owned ids with
  | zero => exact ⟨wf, ids, rfl, supply⟩
  | succ count ih =>
      have early : ids.length < deploy.premint := by omega
      have fresh : ids.length + 1 ∉ ids := by
        intro member
        have bounds := supply.mem_premint early.le member
        omega
      have next := supply.premint_step early sound.premint_le sound.max_lt score toSpk
      have rest := ih (wf.mint low supply fresh (Nat.succ_pos _)) next
        (by rw [List.length_append, List.length_singleton]; omega)
      rw [List.length_append, List.length_singleton] at rest
      obtain ⟨kept, ids', length, after⟩ := rest
      exact ⟨kept, ids', by omega, after⟩

theorem premints_other {max premint : ℕ}
    (supply : Supply owned ranges other max premint ids) (different : other ≠ tick) :
    Supply (owned.premints tick score toSpk seq count) ranges other max premint ids := by
  induction count generalizing owned seq with
  | zero => exact supply
  | succ count ih =>
      exact ih (supply.mint_other different ⟨rfl, fun _ => rfl⟩ fun _ => rfl)

/-- Premints give tokens of their own tick an owner. -/
theorem premints_currentOwnership {token : OwnershipKey} (different : token.tick ≠ tick) :
    (owned.premints tick score toSpk seq count).currentOwnership.get token =
      owned.currentOwnership.get token := by
  induction count generalizing owned seq with
  | zero => rfl
  | succ count ih =>
      rw [premints, ih, recordMint]
      refine Partition.get_insert_of_ne _ _ ?_
      rintro rfl
      exact different rfl

end OwnershipStore

/-! The handlers that validate before they write, in any database. -/

section Handlers

variable (db : Db) (txScore : ℕ) (common : OperationCommon)

theorem processTransfer_cases (info : TransferInfo) :
    (∃ error, processTransfer db txScore common info = (db, some error)) ∨
    ∃ current, db.currentOwnership.get ⟨common.tick, info.tokenId⟩ = some current ∧
      current.owner = common.sender ∧
      db.listings.get ⟨common.tick, info.tokenId⟩ = none ∧
      processTransfer db txScore common info = ({ db with
        toOwnershipStore := db.recordTransfer common.tick info.tokenId txScore current.owner
          info.toSpk }, none) := by
  unfold processTransfer
  split
  · exact .inl ⟨_, rfl⟩
  · rename_i current owned
    split
    · exact .inl ⟨_, rfl⟩
    · rename_i bySender
      split
      · exact .inl ⟨_, rfl⟩
      · rename_i unlisted
        exact .inr ⟨current, owned, not_not.1 bySender, Option.not_isSome_iff_eq_none.1 unlisted,
          rfl⟩

theorem processDiscount_cases (info : DiscountInfo) :
    (∃ error, processDiscount db txScore common info = (db, some error)) ∨
    ∃ entry, db.collectionRegistry.get common.tick = some entry ∧
      common.sender = entry.info.info.deployer ∧
      info.fee < royaltyFee entry.info.info.royalty ∧
      processDiscount db txScore common info = ({ db with
        scoreToDiscount := db.scoreToDiscount.insert ⟨txScore, common.tick, info.toSpk⟩ info.fee
        vip := db.vip.insert ⟨info.toSpk, common.tick, u64Max - txScore, info.fee⟩ () },
        none) := by
  unfold processDiscount
  split
  · exact .inl ⟨_, rfl⟩
  · rename_i entry found
    split
    · exact .inl ⟨_, rfl⟩
    · rename_i byDeployer
      split
      · exact .inl ⟨_, rfl⟩
      · rename_i lower
        exact .inr ⟨entry, found, not_not.1 byDeployer, not_le.1 lower, rfl⟩

theorem processList_cases (kaspa : Kaspa) (info : ListingInfo) :
    (∃ error, processList kaspa db txScore common info = (db, some error)) ∨
    ∃ entry current, db.collectionRegistry.get common.tick = some entry ∧
      db.currentOwnership.get ⟨common.tick, info.tokenId⟩ = some current ∧
      current.owner = common.sender ∧
      db.listings.get ⟨common.tick, info.tokenId⟩ = none ∧
      kaspa.payToScriptHashScript info.redeemScript = info.utxoAddress ∧
      processList kaspa db txScore common info = (db.insertListing common.tick info.tokenId {
        seller := common.sender
        listingTxId := common.txId
        utxoAddress := info.utxoAddress
        redeemScript := info.redeemScript
        opScore := txScore }, none) := by
  unfold processList
  split
  · exact .inl ⟨_, rfl⟩
  · rename_i locked
    split
    · exact .inl ⟨_, rfl⟩
    · rename_i deployed
      obtain ⟨entry, found⟩ :=
        Option.ne_none_iff_exists'.1 (mt Option.isNone_iff_eq_none.2 deployed)
      split
      · exact .inl ⟨_, rfl⟩
      · rename_i current owned
        split
        · exact .inl ⟨_, rfl⟩
        · rename_i bySender
          split
          · exact .inl ⟨_, rfl⟩
          · rename_i unlisted
            exact .inr ⟨entry, current, found, owned, not_not.1 bySender,
              Option.not_isSome_iff_eq_none.1 unlisted, not_not.1 locked, rfl⟩

theorem processSend_cases (info : SendInfo) :
    (∃ error, processSend db txScore common info = (db, some error)) ∨
    ∃ listing, db.listings.get ⟨common.tick, info.tokenId⟩ = some listing ∧
      info.listingUtxoTxid = listing.listingTxId ∧
      ((∃ buyer, info.buyer = some buyer ∧
        processSend db txScore common info = (Db.removeListing { db with
          toOwnershipStore := db.recordTransfer common.tick info.tokenId txScore listing.seller
            buyer } common.tick info.tokenId listing.seller, none)) ∨
      info.buyer = none ∧ processSend db txScore common info =
        (db.removeListing common.tick info.tokenId listing.seller, none)) := by
  unfold processSend
  split
  · exact .inl ⟨_, rfl⟩
  · rename_i listing found
    split
    · exact .inl ⟨_, rfl⟩
    · rename_i spends
      refine .inr ⟨listing, found, not_not.1 spends, ?_⟩
      cases info.buyer with
      | some buyer => exact .inl ⟨buyer, rfl, rfl⟩
      | none => exact .inr ⟨rfl, rfl⟩

end Handlers

end Krc721
