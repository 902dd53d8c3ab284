import Krc721.Processor.Authority
import Krc721.Processor.ChainFrame

/-! Runs in which forks may be processed, one operation at a time. The operations of two blocks of
one blue score may follow each other, so their scores need not ascend, but no operation lies below
a stored block. -/

set_option autoImplicit false

namespace Krc721

open OrderedStore

/-! One operation. -/

/-- What an operation may write keeps a property of the database. -/
structure WritesKeep (context : ContextOperation) (kept : Db → Prop) : Prop where
  registers : ∀ {db : Db} {info : DeployInfo}, context.operation.info = .deploy info →
    db.collectionRegistry.get context.operation.common.tick = none → kept db → kept { db with
      collectionRegistry := db.collectionRegistry.insert context.operation.common.tick
        ⟨context.txScore, info, context.operation.common⟩
      collectionDeployments := db.collectionDeployments.insert
        ⟨context.txScore, context.operation.common.tick⟩ ⟨info, context.operation.common⟩ }
  mints : ∀ {db : Db} {ranges : RangeStore} {seq tokenId : ℕ} {toSpk : ScriptPublicKey},
    (db.collectionRegistry.get context.operation.common.tick).isSome → kept db → kept { db with
      toRangeStore := ranges
      toOwnershipStore := db.recordMint context.operation.common.tick seq tokenId context.txScore
        toSpk }
  transfers : ∀ {db : Db} {tokenId : ℕ} {fromSpk toSpk : ScriptPublicKey},
    ((db.currentOwnership.get ⟨context.operation.common.tick, tokenId⟩).isSome ∨
      (db.listings.get ⟨context.operation.common.tick, tokenId⟩).isSome) →
    kept db → kept { db with
      toOwnershipStore := db.recordTransfer context.operation.common.tick tokenId context.txScore
        fromSpk toSpk }
  discounts : ∀ {db : Db} (scoreToDiscount : Partition ScoredDiscountKey ℕ)
    (vip : Partition VipKey Unit), kept db → kept { db with scoreToDiscount, vip }
  lists : ∀ {db : Db} {info : ListingInfo} {listing : ListingValue},
    context.operation.info = .list info →
    (db.collectionRegistry.get context.operation.common.tick).isSome →
    listing.listingTxId = context.operation.common.txId → listing.opScore = context.txScore →
    kept db → kept (db.insertListing context.operation.common.tick info.tokenId listing)
  delists : ∀ {db : Db} (tokenId : ℕ) (seller : ScriptPublicKey), kept db →
    kept (db.removeListing context.operation.common.tick tokenId seller)

namespace WritesKeep

variable {kaspa : Kaspa} {context : ContextOperation} {kept : Db → Prop} {db db' : Db}

theorem processMint (keeps : WritesKeep context kept) {entropy : ℕ} {info : MintInfo}
    {isDeployment : Bool} {outcome : Except CtxValidationError MintInfo}
    (success : processMint db entropy context.txScore context.operation.common info isDeployment =
      .ok (db', outcome)) (initially : kept db) : kept db' := by
  rcases processMint_writes success with
    ⟨_, _, same⟩ | ⟨ranges, seq, tokenId, registered, _, same, _⟩
  · subst same
    exact initially
  · subst same
    exact keeps.mints registered initially

theorem premintLoop (keeps : WritesKeep context kept) {info : DeployInfo} {count : ℕ}
    {error : Option CtxValidationError}
    (success : premintLoop context.operation.common info context.txScore count db =
      .ok (db', error)) (initially : kept db) : kept db' := by
  induction count generalizing db with
  | zero =>
      cases success
      exact initially
  | succ count ih =>
      rw [Krc721.premintLoop] at success
      split at success
      · cases success
      · rename_i refused
        cases success
        exact keeps.processMint refused initially
      · rename_i minted
        exact ih success (keeps.processMint minted initially)

theorem applyOperation (keeps : WritesKeep context kept) {checked : CheckedOperation}
    (success : applyOperation kaspa db context = .ok (db', checked)) (initially : kept db) :
    kept db' := by
  unfold Krc721.applyOperation at success
  cases kind : context.operation.info with
  | deploy info =>
      simp only [kind] at success
      split at success
      · cases success
      · rename_i deployed
        cases success
        unfold processDeployment at deployed
        split at deployed
        · split at deployed
          · cases deployed
          · cases deployed
            exact initially
        · rename_i free
          exact keeps.premintLoop deployed (keeps.registers kind free initially)
  | mint info =>
      simp only [kind] at success
      split at success
      · cases success
      · rename_i refused
        cases success
        exact keeps.processMint refused initially
      · rename_i minted
        cases success
        exact keeps.processMint minted initially
  | transfer info =>
      simp only [kind] at success
      cases success
      rcases processTransfer_cases db context.txScore context.operation.common info with
        ⟨_, outcome⟩ | ⟨_, owned, _, _, outcome⟩
      · rw [outcome]
        exact initially
      · rw [outcome]
        exact keeps.transfers (.inl (by rw [owned]; rfl)) initially
  | discount info =>
      simp only [kind] at success
      cases success
      rcases processDiscount_cases db context.txScore context.operation.common info with
        ⟨_, outcome⟩ | ⟨_, _, _, _, outcome⟩
      · rw [outcome]
        exact initially
      · rw [outcome]
        exact keeps.discounts _ _ initially
  | list info =>
      simp only [kind] at success
      cases success
      rcases processList_cases db context.txScore context.operation.common kaspa info with
        ⟨_, outcome⟩ | ⟨_, _, found, _, _, _, _, outcome⟩
      · rw [outcome]
        exact initially
      · rw [outcome]
        exact keeps.lists kind (by rw [found]; rfl) rfl rfl initially
  | send info =>
      simp only [kind] at success
      cases success
      rcases processSend_cases db context.txScore context.operation.common info with
        ⟨_, outcome⟩ | ⟨_, found, _, ⟨_, _, outcome⟩ | ⟨_, outcome⟩⟩
      · rw [outcome]
        exact initially
      · rw [outcome]
        exact keeps.delists _ _ (keeps.transfers (.inr (by rw [found]; rfl)) initially)
      · rw [outcome]
        exact keeps.delists _ _ initially

end WritesKeep

/-- An operation is recorded under its own transaction. -/
theorem applyOperation_common {kaspa : Kaspa} {db db' : Db} {context : ContextOperation}
    {checked : CheckedOperation} (success : applyOperation kaspa db context = .ok (db', checked)) :
    checked.operation.common = context.operation.common := by
  unfold applyOperation at success
  cases kind : context.operation.info with
  | deploy info =>
      simp only [kind] at success
      split at success
      · cases success
      · cases success
        rfl
  | mint info =>
      simp only [kind] at success
      split at success
      · cases success
      · cases success
        rfl
      · cases success
        rfl
  | transfer info | discount info | list info | send info =>
      simp only [kind] at success
      cases success
      rfl

/-- An accepted send settles the listing that it names. -/
theorem applyOperation_sent {kaspa : Kaspa} {db db' : Db} {context : ContextOperation}
    {checked : CheckedOperation} {info : SendInfo}
    (success : applyOperation kaspa db context = .ok (db', checked))
    (sent : checked.operation.info = .send info) (accepted : checked.error = none) :
    checked.operation = context.operation ∧ db'.toCollectionStore = db.toCollectionStore ∧
      ∃ listing, db.listings.get ⟨context.operation.common.tick, info.tokenId⟩ = some listing ∧
        info.listingUtxoTxid = listing.listingTxId := by
  unfold applyOperation at success
  cases kind : context.operation.info with
  | deploy info =>
      simp only [kind] at success
      split at success
      · cases success
      · cases success
        rw [kind] at sent
        cases sent
  | mint info =>
      simp only [kind] at success
      split at success
      · cases success
      · cases success
        cases accepted
      · cases success
        cases sent
  | transfer info | discount info | list info =>
      simp only [kind] at success
      cases success
      rw [kind] at sent
      cases sent
  | send info =>
      simp only [kind] at success
      cases success
      simp only [kind, OperationInfo.send.injEq] at sent
      subst sent
      rcases processSend_cases db context.txScore context.operation.common info with
        ⟨_, outcome⟩ | ⟨listing, found, spends, ⟨_, _, outcome⟩ | ⟨_, outcome⟩⟩
      · rw [outcome] at accepted
        cases accepted
      · rw [outcome]
        exact ⟨rfl, rfl, listing, found, spends⟩
      · rw [outcome]
        exact ⟨rfl, rfl, listing, found, spends⟩

/-! One mergeset. -/

/-- The highest stored blocks have the blue score. -/
structure ChainStore.EndsAt (chain : ChainStore) (blueScore : ℕ) : Prop where
  stored : ∃ block, (chain.chainBlockScores.get block).isSome ∧ block.blueScore = blueScore
  highest : ∀ block, (chain.chainBlockScores.get block).isSome → block.blueScore ≤ blueScore

/-- A stored block and its operations keep a property of the database. -/
structure BlocksKeep (kaspa : Kaspa) (given : Operation → Prop) (kept : Db → Prop) : Prop where
  accept : ∀ {db : Db} {mergeset : Mergeset}, mergeset.Valid kaspa → kept db →
    kept { db with toChainStore := db.toChainStore.accept mergeset }
  operation : ∀ {db db' : Db} {context : ContextOperation} {checked : CheckedOperation},
    db.toChainStore.EndsAt (context.txScore / kaspa.blockCapacity) →
    context.operation.Sound → given context.operation →
    applyOperation kaspa db context = .ok (db', checked) →
    kept db → kept (db'.recordOperation context.txScore checked)

theorem ChainStore.EndsAt.accept {chain : ChainStore} {mergeset : Mergeset}
    (highest : ∀ block, (chain.chainBlockScores.get block).isSome →
      block.blueScore ≤ mergeset.blueScore) :
    (chain.accept mergeset).EndsAt mergeset.blueScore where
  stored := ⟨mergeset.block, ChainStore.stores_accept.2 (.inl rfl), rfl⟩
  highest := by
    intro block isStored
    rcases ChainStore.stores_accept.1 isStored with same | earlier
    · exact (congrArg BlueScoredChainBlockHash.blueScore same).le
    · exact highest block earlier

theorem Mergeset.Valid.txScore_div {kaspa : Kaspa} {db : Db} {mergeset : Mergeset}
    (valid : mergeset.Valid kaspa) {context : ContextOperation}
    (member : context ∈ scoredOperations kaspa db mergeset) :
    context.txScore / kaspa.blockCapacity = mergeset.blueScore := by
  have low := (valid.fresh db).1.reached context member
  have high := (valid.fresh db).2 context member
  rw [calculateTxScoreFromBlue_eq valid.fits] at low
  exact Nat.div_eq_of_lt_le low high

section Blocks

variable {kaspa : Kaspa} {given : Operation → Prop} {kept : Db → Prop} {db db' : Db}
variable {diff diff' : StatsDiffs} {mergeset : Mergeset} {mergesets : List Mergeset}

theorem BlocksKeep.operations (blocks : BlocksKeep kaspa given kept) {blueScore : ℕ}
    {contexts : List ContextOperation} (ends : db.toChainStore.EndsAt blueScore)
    (within : ∀ context ∈ contexts, context.txScore / kaspa.blockCapacity = blueScore ∧
      context.operation.Sound ∧ given context.operation)
    (success : processNftOperations kaspa db diff contexts = .ok (db', diff'))
    (initially : kept db) : kept db' := by
  induction contexts generalizing db diff with
  | nil =>
      cases success
      exact initially
  | cons context contexts ih =>
      obtain ⟨⟨inBlock, sound, promised⟩, later⟩ := List.forall_mem_cons.1 within
      rw [processNftOperations] at success
      split at success
      · cases success
      · rename_i middle diff turn
        rw [processNftOperation] at turn
        split at turn
        · cases turn
        · rename_i applied checked outcome
          cases turn
          have chain := applyOperation_chain outcome
          refine ih ?_ later success ?_
          · rw [← chain] at ends
            exact ends
          · rw [← inBlock] at ends
            exact blocks.operation ends sound promised outcome initially

theorem Mergeset.Valid.scored {kaspa : Kaspa} {given : Operation → Prop} {db : Db}
    {mergeset : Mergeset} (valid : mergeset.Valid kaspa)
    (promised : ∀ op ∈ mergeset.operations, given op.operation) :
    ∀ context ∈ scoredOperations kaspa db mergeset,
      context.txScore / kaspa.blockCapacity = mergeset.blueScore ∧
        context.operation.Sound ∧ given context.operation := by
  intro context member
  have inBlock := valid.txScore_div member
  have sound := (valid.fresh db).1.sound context member
  obtain ⟨op, inMergeset, _, same⟩ := mem_scoredOperations.1 member
  refine ⟨inBlock, sound, ?_⟩
  rw [same]
  exact promised op inMergeset

theorem BlocksKeep.additions (blocks : BlocksKeep kaspa given kept) {lastAcceptedBlueScore : ℕ}
    (batch : Batch kaspa mergesets)
    (promised : ∀ mergeset ∈ mergesets, ∀ op ∈ mergeset.operations, given op.operation)
    (highest : ∀ mergeset ∈ mergesets, lastAcceptedBlueScore ≤ mergeset.blueScore →
      ∀ block, (db.chainBlockScores.get block).isSome → block.blueScore ≤ mergeset.blueScore)
    (success : processMergesets kaspa lastAcceptedBlueScore db diff mergesets = .ok (db', diff'))
    (initially : kept db) : kept db' := by
  induction mergesets generalizing db diff with
  | nil =>
      cases success
      exact initially
  | cons mergeset mergesets ih =>
      have remaining : Batch kaspa mergesets :=
        ⟨fun later member => batch.valid later (List.mem_cons_of_mem _ member),
          (List.pairwise_cons.1 batch.ascending).2⟩
      obtain ⟨own, others⟩ := List.forall_mem_cons.1 promised
      obtain ⟨top, tops⟩ := List.forall_mem_cons.1 highest
      have valid := batch.valid mergeset List.mem_cons_self
      rw [processMergesets] at success
      split at success
      · cases success
      · rename_i middle diff turn
        rw [processMergeset] at turn
        split at turn
        · cases turn
          exact ih remaining others tops success initially
        · rename_i reached
          simp only at turn
          split at turn
          · cases turn
            exact ih remaining others tops success initially
          · split at turn
            · cases turn
            · rename_i next added loop
              cases turn
              have chain := processNftOperations_chain loop
              refine ih remaining others ?_ success ?_
              · intro later member reachedLater block isStored
                rw [congrArg ChainStore.chainBlockScores chain] at isStored
                rcases ChainStore.stores_accept.1 isStored with same | earlier
                · have below := (List.pairwise_cons.1 batch.ascending).1 later member
                  rw [same]
                  exact below.le
                · exact tops later member reachedLater block earlier
              · exact blocks.operations (.accept (top (not_lt.1 reached))) (valid.scored own) loop
                  (blocks.accept valid initially)

end Blocks

/-! Whole runs. -/

section Runs

variable {kaspa : Kaspa} {adds : Db → List Mergeset → Prop}
variable {removes : Db → List RpcHash → Option ℕ → Prop} {given : Operation → Prop}
variable {kept : Db → Prop} {db : Db}

/-- What blocks, removals and the bookkeeping keep holds throughout a run. -/
structure RunKeeps (kaspa : Kaspa) (adds : Db → List Mergeset → Prop)
    (removes : Db → List RpcHash → Option ℕ → Prop) (given : Operation → Prop)
    (kept : Db → Prop) : Prop extends BlocksKeep kaspa given kept where
  new : kept .new
  promised : ∀ {db : Db} {mergesets : List Mergeset}, adds db mergesets →
    ∀ mergeset ∈ mergesets, ∀ op ∈ mergeset.operations, given op.operation
  removal : ∀ {db db' : Db} {removed : List RpcHash} {forced : Option ℕ} {diff : StatsDiffs},
    removes db removed forced → processRemoval kaspa db removed forced = .ok (db', diff) →
    kept db → kept db'
  bookkeeping : ∀ {db : Db} (stats : Option Stats)
    (notificationQueue : Partition ℕ VirtualChainChanges), kept db →
    kept { db with stats, notificationQueue }

theorem RunKeeps.run (keeps : RunKeeps kaspa adds removes given kept)
    (run : GuardedRun kaspa adds removes db) : kept db := by
  induction run with
  | new => exact keeps.new
  | addition earlier batch guarded success ih =>
      refine keeps.additions batch (keeps.promised guarded) ?_ success ih
      intro mergeset member reached block isStored
      exact (ChainStore.le_lastAcceptedBlueScore isStored).trans reached
  | removal earlier guarded success ih => exact keeps.removal guarded success ih
  | bookkeeping stats notificationQueue earlier ih => exact keeps.bookkeeping _ _ ih

/-- It also holds in the middle of a mergeset. -/
theorem RunKeeps.processing (keeps : RunKeeps kaspa adds removes given kept)
    (processing : Processing kaspa adds removes db) : kept db := by
  cases processing with
  | committed run => exact keeps.run run
  | @midway start _ mergeset done rest diff run valid guarded unknown split success =>
      have reached : start.lastAcceptedBlueScore ≤ mergeset.blueScore :=
        not_lt.1 fun low => unknown (.inl low)
      have ends : (start.toChainStore.accept mergeset).EndsAt mergeset.blueScore :=
        .accept fun block isStored => (ChainStore.le_lastAcceptedBlueScore isStored).trans reached
      have scored := @Mergeset.Valid.scored kaspa given { start with
        toChainStore := start.toChainStore.accept mergeset } mergeset valid
        (keeps.promised guarded mergeset (List.mem_singleton_self _))
      rw [split] at scored
      exact keeps.operations ends
        (fun context member => scored context (List.mem_append_left _ member)) success
        (keeps.accept valid (keeps.run run))

end Runs

end Krc721
