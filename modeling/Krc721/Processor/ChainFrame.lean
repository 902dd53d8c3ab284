import Krc721.Processor.ChainIndex

/-! What a notification does to the stored chain blocks, whatever else is in the database: the
removed blocks cut them off at a blue score, and the mergesets that are new at the tip are added. -/

set_option autoImplicit false

namespace Krc721

open OrderedStore

/-! Operations leave the chain blocks alone. -/

section

variable {kaspa : Kaspa} {db db' : Db}

theorem processMint_chain {entropy score : ℕ} {common : OperationCommon} {info : MintInfo}
    {isDeployment : Bool} {result : Except CtxValidationError MintInfo}
    (success : processMint db entropy score common info isDeployment = .ok (db', result)) :
    db'.toChainStore = db.toChainStore := by
  unfold processMint at success
  simp only at success
  repeat' split at success
  all_goals cases success
  all_goals rfl

theorem premintLoop_chain {common : OperationCommon} {info : DeployInfo} {score count : ℕ}
    {error : Option CtxValidationError}
    (success : premintLoop common info score count db = .ok (db', error)) :
    db'.toChainStore = db.toChainStore := by
  induction count generalizing db with
  | zero =>
      cases success
      rfl
  | succ count ih =>
      rw [premintLoop] at success
      split at success
      · cases success
      · rename_i failed
        cases success
        exact processMint_chain failed
      · rename_i minted
        exact (ih success).trans (processMint_chain minted)

theorem applyOperation_chain {context : ContextOperation} {checked : CheckedOperation}
    (success : applyOperation kaspa db context = .ok (db', checked)) :
    db'.toChainStore = db.toChainStore := by
  unfold applyOperation at success
  cases kind : context.operation.info with
  | deploy info =>
      simp only [kind] at success
      split at success
      · cases success
      · rename_i deployed
        cases success
        unfold processDeployment at deployed
        split at deployed
        · split at deployed
          · cases deployed
          · cases deployed
            rfl
        · have kept := premintLoop_chain deployed
          exact kept
  | mint info =>
      simp only [kind] at success
      split at success
      · cases success
      · rename_i failed
        cases success
        exact processMint_chain failed
      · rename_i minted
        cases success
        exact processMint_chain minted
  | transfer info =>
      simp only [kind] at success
      cases success
      unfold processTransfer
      repeat' split
      all_goals rfl
  | discount info =>
      simp only [kind] at success
      cases success
      unfold processDiscount
      repeat' split
      all_goals rfl
  | list info =>
      simp only [kind] at success
      cases success
      unfold processList
      repeat' split
      all_goals rfl
  | send info =>
      simp only [kind] at success
      cases success
      unfold processSend
      repeat' split
      all_goals rfl

theorem processNftOperations_chain {diff diff' : StatsDiffs} {contexts : List ContextOperation}
    (success : processNftOperations kaspa db diff contexts = .ok (db', diff')) :
    db'.toChainStore = db.toChainStore := by
  induction contexts generalizing db diff with
  | nil =>
      cases success
      rfl
  | cons context contexts ih =>
      rw [processNftOperations] at success
      split at success
      · cases success
      · rename_i processed
        rw [processNftOperation] at processed
        split at processed
        · cases processed
        · rename_i applied
          cases processed
          have kept := applyOperation_chain applied
          exact (ih success).trans kept

theorem restoreListingForReorgedSend_chain (common : OperationCommon) (sendInfo : SendInfo) :
    (restoreListingForReorgedSend db common sendInfo).toChainStore = db.toChainStore := by
  unfold restoreListingForReorgedSend
  repeat' split
  all_goals rfl

theorem removeOperations_chain {diff diff' : StatsDiffs} {ops : List (ℕ × CheckedOperation)}
    (success : removeOperations db diff ops = .ok (db', diff')) :
    db'.toChainStore = db.toChainStore := by
  induction ops generalizing db diff with
  | nil =>
      cases success
      rfl
  | cons op ops ih =>
      rw [removeOperations] at success
      split at success
      · cases success
      · rename_i removed
        refine (ih success).trans ?_
        unfold removeOperation at removed
        simp only at removed
        split at removed
        · cases removed
        · split at removed
          · cases removed
            rfl
          · cases removed
            split
            · exact restoreListingForReorgedSend_chain _ _
            · rfl

theorem removeAffectedListings_chain (scoreThreshold : ℕ) :
    (removeAffectedListings db scoreThreshold).toChainStore = db.toChainStore := by
  unfold removeAffectedListings
  generalize db.listings.entries.filter _ = listings
  induction listings generalizing db with
  | nil => rfl
  | cons listing listings ih => exact ih

theorem removeTokenOperations_chain {premintFromRemoved : Partition Tick ℕ}
    {keys : List TokenMintsKey} {affected : List (TokenMintsKey × Option ScriptPublicKey)}
    (success : removeTokenOperations premintFromRemoved db keys = .ok (db', affected)) :
    db'.toChainStore = db.toChainStore := by
  induction keys generalizing db affected with
  | nil =>
      cases success
      rfl
  | cons key keys ih =>
      rw [removeTokenOperations] at success
      split at success
      · cases success
      · rename_i removed
        split at success
        · cases success
        · rename_i rest
          cases success
          refine (ih rest).trans ?_
          unfold removeTokenOperation at removed
          simp only at removed
          repeat' split at removed
          all_goals cases removed
          all_goals rfl

theorem reconstructTokenOwnership_chain {scoreThreshold : ℕ} {premintFromRemoved : Partition Tick ℕ}
    (success : reconstructTokenOwnership db scoreThreshold premintFromRemoved = .ok db') :
    db'.toChainStore = db.toChainStore := by
  unfold reconstructTokenOwnership at success
  split at success
  · cases success
  · rename_i affected
    cases success
    have kept := removeTokenOperations_chain affected
    exact kept

theorem processRemoval_chain {removed : List RpcHash} {forced : Option ℕ} {diff : StatsDiffs}
    (success : processRemoval kaspa db removed forced = .ok (db', diff)) :
    db'.toChainStore = (db.identifyReorgBlocksAndDelete removed forced).1 := by
  unfold processRemoval at success
  simp only at success
  split at success
  · cases success
    rfl
  · split at success
    · cases success
    · rename_i cleared
      split at success
      · cases success
      · rename_i rebuilt
        cases success
        have ownership := reconstructTokenOwnership_chain rebuilt
        rw [removeAffectedListings_chain] at ownership
        have operations := removeOperations_chain cleared
        exact ownership.trans operations

end

/-! The chain blocks after a notification. -/

namespace ChainStore

/-- The turns of `process_additions`, as far as they concern the chain blocks. -/
def addBlocks (lastAcceptedBlueScore : ℕ) (chain : ChainStore) (mergesets : List Mergeset) :
    ChainStore :=
  mergesets.foldl (fun chain mergeset =>
    if mergeset.blueScore < lastAcceptedBlueScore then chain
    else if (chain.chainBlockScores.get
      ⟨mergeset.blueScore, mergeset.acceptedChainBlockHash⟩).isSome then chain
    else chain.accept mergeset) chain

/-- The chain blocks after `process_chain_changes`. -/
def applyChanges (chain : ChainStore) (vcc : VirtualChainChanges) : ChainStore :=
  let chain := (chain.identifyReorgBlocksAndDelete vcc.removedChainBlockHashes
    vcc.forcedRollbackBlueScore).1
  chain.addBlocks ((chain.lastAcceptedBlock.map (·.blueScore)).getD 0) vcc.mergesets

end ChainStore

variable {kaspa : Kaspa} {db db' : Db} {vcc : VirtualChainChanges}

theorem processMergesets_chain {last : ℕ} {diff diff' : StatsDiffs} {mergesets : List Mergeset}
    (success : processMergesets kaspa last db diff mergesets = .ok (db', diff')) :
    db'.toChainStore = db.toChainStore.addBlocks last mergesets := by
  induction mergesets generalizing db diff with
  | nil =>
      cases success
      rfl
  | cons mergeset mergesets ih =>
      rw [processMergesets] at success
      split at success
      · cases success
      · rename_i processed
        rw [ih success, ChainStore.addBlocks, ChainStore.addBlocks, List.foldl_cons]
        congr 1
        rw [processMergeset] at processed
        split at processed
        · rename_i old
          cases processed
          rw [if_pos old]
        · rename_i new
          rw [if_neg new]
          simp only at processed
          split at processed
          · rename_i known
            cases processed
            rw [if_pos known]
          · rename_i unknown
            rw [if_neg unknown]
            split at processed
            · cases processed
            · rename_i operated
              cases processed
              exact processNftOperations_chain operated

/-- What a successful notification leaves of the chain blocks. -/
theorem processChainChangesWtx_chain
    (success : processChainChangesWtx kaspa db vcc = .ok db') :
    db'.toChainStore = db.toChainStore.applyChanges vcc := by
  rw [processChainChangesWtx] at success
  split at success
  · cases success
  · rename_i cleared removal
    have removed : cleared.toChainStore = (db.toChainStore.identifyReorgBlocksAndDelete
        vcc.removedChainBlockHashes vcc.forcedRollbackBlueScore).1 := by
      rw [removalPhase] at removal
      split at removal
      · split at removal
        · cases removal
        · rename_i rolledBack
          cases removal
          have kept := processRemoval_chain rolledBack
          exact kept
      · rename_i nothing
        cases removal
        simp only [Bool.or_eq_true, Bool.not_eq_true', not_or, Bool.not_eq_false,
          List.isEmpty_iff, Option.isSome_iff_ne_none, not_not] at nothing
        rw [nothing.1, nothing.2]
        rfl
    rw [ChainStore.applyChanges, ← removed]
    rw [additionPhase] at success
    split at success
    · rw [processAdditions] at success
      split at success
      · cases success
      · rename_i added
        cases success
        have kept := processMergesets_chain added
        exact kept
    · rename_i nothing
      cases success
      simp only [Bool.not_eq_true, Bool.not_eq_false', List.isEmpty_iff] at nothing
      rw [nothing]
      rfl

theorem processChainChanges_chain
    (success : processChainChanges kaspa db vcc = (db', .ok ())) :
    db'.toChainStore = db.toChainStore.applyChanges vcc := by
  rw [processChainChanges] at success
  split at success
  · cases success
  · rename_i applied
    cases success
    exact processChainChangesWtx_chain applied

/-! Which blocks are stored. -/

def Mergeset.block (mergeset : Mergeset) : BlueScoredChainBlockHash :=
  ⟨mergeset.blueScore, mergeset.acceptedChainBlockHash⟩

namespace ChainStore

variable {chain : ChainStore} {block : BlueScoredChainBlockHash} {scoreOf : RpcHash → ℕ}

def Stores (chain : ChainStore) (block : BlueScoredChainBlockHash) : Prop :=
  (chain.chainBlockScores.get block).isSome

theorem stores_accept {mergeset : Mergeset} :
    (chain.accept mergeset).Stores block ↔ block = mergeset.block ∨ chain.Stores block := by
  by_cases same : mergeset.block = block
  · simp [Stores, accept, ← same, Mergeset.block]
  · have kept := Partition.get_insert_of_ne chain.chainBlockScores () same
    have other := Ne.symm same
    simp only [Mergeset.block] at kept
    simp only [other, false_or, Stores, accept, kept]

/-- The mergesets that are not behind the tip are stored. -/
theorem stores_addBlocks {last : ℕ} {mergesets : List Mergeset} :
    (chain.addBlocks last mergesets).Stores block ↔ chain.Stores block ∨
      ∃ mergeset ∈ mergesets, last ≤ mergeset.blueScore ∧ block = mergeset.block := by
  induction mergesets generalizing chain with
  | nil => simp [addBlocks]
  | cons mergeset mergesets ih =>
      simp only [addBlocks, List.foldl_cons] at ih ⊢
      rw [ih, List.exists_mem_cons_iff]
      split
      · rename_i old
        simp [Nat.not_le.2 old]
      · rename_i new
        split
        · rename_i known
          constructor
          · intro added
            rcases added with stored | later
            · exact .inl stored
            · exact .inr (.inr later)
          · intro added
            rcases added with stored | ⟨_, rfl⟩ | later
            · exact .inl stored
            · exact .inl known
            · exact .inr later
        · rw [stores_accept]
          simp only [Nat.le_of_not_lt new, true_and]
          tauto

theorem Scored.acceptNew (scored : chain.Scored scoreOf) {mergeset : Mergeset}
    (unstored : ¬ chain.Stores mergeset.block)
    (own : scoreOf mergeset.acceptedChainBlockHash = mergeset.blueScore) :
    (chain.accept mergeset).Scored scoreOf where
  toWf := by
    refine scored.toWf.accept (Option.eq_none_iff_forall_ne_some.2 fun score indexed => ?_)
    have same := scored.scored indexed
    rw [own] at same
    subst same
    exact unstored (scored.indexed.1 indexed)
  scored := by
    intro hash score indexed
    simp only [ChainStore.accept, Partition.get_insert] at indexed
    split at indexed
    · rename_i same
      cases indexed
      rw [← same, own]
    · exact scored.scored indexed

theorem Scored.addBlocks (scored : chain.Scored scoreOf) {last : ℕ} {mergesets : List Mergeset}
    (own : ∀ mergeset ∈ mergesets,
      scoreOf mergeset.acceptedChainBlockHash = mergeset.blueScore) :
    (chain.addBlocks last mergesets).Scored scoreOf := by
  induction mergesets generalizing chain with
  | nil => exact scored
  | cons mergeset mergesets ih =>
      obtain ⟨first, later⟩ := List.forall_mem_cons.1 own
      simp only [ChainStore.addBlocks, List.foldl_cons] at ih ⊢
      refine ih ?_ later
      split
      · exact scored
      · split
        · exact scored
        · rename_i unstored
          exact scored.acceptNew unstored first

theorem Scored.applyChanges (scored : chain.Scored scoreOf) {vcc : VirtualChainChanges}
    (own : ∀ mergeset ∈ vcc.mergesets,
      scoreOf mergeset.acceptedChainBlockHash = mergeset.blueScore) :
    (chain.applyChanges vcc).Scored scoreOf :=
  (scored.identified _ _).addBlocks own

theorem Scored.scoreOf_of_stores (scored : chain.Scored scoreOf) (stored : chain.Stores block) :
    scoreOf block.blockHash = block.blueScore :=
  scored.scored (scored.indexed.2 stored)

/-- The tip is stored, and no stored block has a greater score. -/
theorem lastAcceptedBlock_spec (last : chain.lastAcceptedBlock = some block) :
    chain.Stores block ∧ ∀ other, chain.Stores other → other.blueScore ≤ block.blueScore := by
  obtain ⟨stored, greatest⟩ := Partition.lastKey_eq_some_iff.1 last
  refine ⟨stored, fun other isStored => ?_⟩
  have le := greatest other isStored
  rw [← not_lt, BlueScoredChainBlockHash.lt_iff, not_or] at le
  exact Nat.le_of_not_lt le.1

/-- A stored block with the greatest score is the tip. -/
theorem lastAcceptedBlock_of_greatest (stored : chain.Stores block)
    (greatest : ∀ other, chain.Stores other → other ≠ block → other.blueScore < block.blueScore) :
    chain.lastAcceptedBlock = some block := by
  refine Partition.lastKey_eq_some_iff.2 ⟨stored, fun other isStored => ?_⟩
  by_cases same : other = block
  · exact le_of_eq same
  · exact le_of_lt (BlueScoredChainBlockHash.lt_iff.2 (.inl (greatest other isStored same)))

theorem stores_below {threshold : ℕ} :
    (chain.below threshold).Stores block ↔ chain.Stores block ∧ block.blueScore < threshold :=
  Partition.isSome_get_below block.blueScore fun _ => rfl

/-- A removal leaves stored blocks only. -/
theorem stores_of_identified {removed : List RpcHash} {forced : Option ℕ}
    (stored : (chain.identifyReorgBlocksAndDelete removed forced).1.Stores block) :
    chain.Stores block := by
  obtain ⟨cuts, keeps⟩ := identifyReorgBlocksAndDelete_blocks chain removed forced
  cases found : (chain.identifyReorgBlocksAndDelete removed forced).2 with
  | none =>
      rw [keeps found] at stored
      exact stored
  | some minBlueScore =>
      rw [Stores, cuts minBlueScore found,
        Partition.isSome_get_below block.blueScore fun _ => rfl] at stored
      exact stored.1

/-- A stored block below every score that a removal looks up stays. -/
theorem Wf.stores_identified_of_lt (wf : chain.Wf) {removed : List RpcHash} {forced : Option ℕ}
    (le : block.blueScore < u64Max) (isStored : chain.Stores block)
    (low : ∀ hash ∈ removed, ∀ score, chain.blockhashToScore.get hash = some score →
      block.blueScore < score)
    (forcedLow : ∀ score, forced = some score → block.blueScore < score) :
    (chain.identifyReorgBlocksAndDelete removed forced).1.Stores block := by
  have start : Lookups chain (block.blueScore + 1) ⟨chain, u64Max, false⟩ :=
    ⟨id, .inl, le, rfl⟩
  obtain ⟨lookups, _⟩ := start.run wf low
  have above := lookups.above
  obtain ⟨cuts, keeps⟩ := identifyReorgBlocksAndDelete_blocks chain removed forced
  cases found : (chain.identifyReorgBlocksAndDelete removed forced).2 with
  | none =>
      rw [keeps found]
      exact isStored
  | some minBlueScore =>
      rw [Stores, cuts minBlueScore found,
        Partition.isSome_get_below block.blueScore fun _ => rfl]
      refine ⟨isStored, ?_⟩
      unfold ChainStore.identifyReorgBlocksAndDelete at found
      generalize removed.foldl removeBlock ⟨chain, u64Max, false⟩ = state at *
      cases forced with
      | none =>
          simp only at found
          split at found
          · cases found
            exact above
          · cases found
      | some score =>
          simp only [if_true, Option.some.injEq] at found
          have high := forcedLow score rfl
          omega

theorem exists_lastAcceptedBlock (isStored : chain.Stores block) :
    ∃ last, chain.lastAcceptedBlock = some last := by
  have stored : (chain.chainBlockScores.get block).isSome := isStored
  obtain ⟨value, found⟩ := Option.isSome_iff_exists.1 stored
  have member := Partition.mem_entries.2 found
  cases last : chain.chainBlockScores.entries.getLast? with
  | none =>
      rw [List.getLast?_eq_none_iff.1 last] at member
      cases member
  | some entry =>
      exact ⟨entry.1, by rw [lastAcceptedBlock, Partition.lastKey, last, Option.map_some]⟩

end ChainStore

end Krc721
