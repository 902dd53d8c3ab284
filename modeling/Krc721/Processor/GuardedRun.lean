import Krc721.Processor.MergesetProperties

/-! Runs of additions and reorg removals in any order, with conditions on the steps. An addition may
find a block stored at the score of one of its own, with another hash: it is a fork, which
`process_additions` takes for the next block. -/

set_option autoImplicit false

namespace Krc721

open OrderedStore

/-- The score that `process_additions` reads before its loop. -/
def ChainStore.lastAcceptedBlueScore (chain : ChainStore) : ℕ :=
  (chain.lastAcceptedBlock.map (·.blueScore)).getD 0

/-- `process_additions` skips the mergeset. -/
def Mergeset.Known (mergeset : Mergeset) (chain : ChainStore) (lastAcceptedBlueScore : ℕ) :
    Prop :=
  mergeset.blueScore < lastAcceptedBlueScore ∨
    (chain.chainBlockScores.get
      ⟨mergeset.blueScore, mergeset.acceptedChainBlockHash⟩).isSome

/-- Every stored block has a smaller blue score. -/
def Mergeset.Above (mergeset : Mergeset) (chain : ChainStore) : Prop :=
  ∀ block, (chain.chainBlockScores.get block).isSome → block.blueScore < mergeset.blueScore

/-- A batch as the node gives it: its mergesets are valid, and their blue scores ascend. -/
structure Batch (kaspa : Kaspa) (mergesets : List Mergeset) : Prop where
  valid : ∀ mergeset ∈ mergesets, mergeset.Valid kaspa
  ascending : mergesets.Pairwise fun left right => left.blueScore < right.blueScore

instance (kaspa : Kaspa) (mergesets : List Mergeset) : Decidable (Batch kaspa mergesets) :=
  decidable_of_iff ((∀ mergeset ∈ mergesets, mergeset.Valid kaspa) ∧
      mergesets.Pairwise fun left right => left.blueScore < right.blueScore)
    ⟨fun ⟨valid, ascending⟩ => ⟨valid, ascending⟩, fun batch => ⟨batch.valid, batch.ascending⟩⟩

/-- A run of additions and removals, each of which meets its condition. -/
inductive GuardedRun (kaspa : Kaspa) (adds : Db → List Mergeset → Prop)
    (removes : Db → List RpcHash → Option ℕ → Prop) : Db → Prop where
  | new : GuardedRun kaspa adds removes .new
  | addition {db db' : Db} {mergesets : List Mergeset} {diff : StatsDiffs}
      (earlier : GuardedRun kaspa adds removes db) (batch : Batch kaspa mergesets)
      (guarded : adds db mergesets)
      (success : processAdditions kaspa db mergesets = .ok (db', diff)) :
      GuardedRun kaspa adds removes db'
  | removal {db db' : Db} {removed : List RpcHash} {forced : Option ℕ} {diff : StatsDiffs}
      (earlier : GuardedRun kaspa adds removes db) (guarded : removes db removed forced)
      (success : processRemoval kaspa db removed forced = .ok (db', diff)) :
      GuardedRun kaspa adds removes db'
  | bookkeeping {db : Db} (stats : Option Stats)
      (notificationQueue : Partition ℕ VirtualChainChanges)
      (earlier : GuardedRun kaspa adds removes db) :
      GuardedRun kaspa adds removes { db with stats, notificationQueue }

/-- A run keeps the weaker of two conditions. -/
theorem GuardedRun.mono {kaspa : Kaspa} {adds adds' : Db → List Mergeset → Prop}
    {removes removes' : Db → List RpcHash → Option ℕ → Prop} {db : Db}
    (run : GuardedRun kaspa adds removes db)
    (addsLe : ∀ {db mergesets}, adds db mergesets → adds' db mergesets)
    (removesLe : ∀ {db removed forced}, removes db removed forced → removes' db removed forced) :
    GuardedRun kaspa adds' removes' db := by
  induction run with
  | new => exact .new
  | addition earlier batch guarded success ih =>
      exact .addition ih batch (addsLe guarded) success
  | removal earlier guarded success ih => exact .removal ih (removesLe guarded) success
  | bookkeeping stats notificationQueue earlier ih => exact .bookkeeping _ _ ih

/-- A database that any additions and removals reach. -/
abbrev Reachable (kaspa : Kaspa) : Db → Prop :=
  GuardedRun kaspa (fun _ _ => True) fun _ _ _ => True

theorem GuardedRun.reachable {kaspa : Kaspa} {adds : Db → List Mergeset → Prop}
    {removes : Db → List RpcHash → Option ℕ → Prop} {db : Db}
    (run : GuardedRun kaspa adds removes db) : Reachable kaspa db :=
  run.mono (fun _ => trivial) fun _ => trivial

/-! Runs of given steps. -/

/-- A batch to add, or the blocks of a reorg to remove. -/
inductive ChainStep where
  | add (mergesets : List Mergeset)
  | remove (blocks : List RpcHash)

/-- Take steps one after the other. -/
def takeSteps (kaspa : Kaspa) : Db → List ChainStep → Except Fault Db
  | db, [] => .ok db
  | db, .add mergesets :: steps =>
      match processAdditions kaspa db mergesets with
      | .error fault => .error fault
      | .ok (db, _) => takeSteps kaspa db steps
  | db, .remove blocks :: steps =>
      match processRemoval kaspa db blocks none with
      | .error fault => .error fault
      | .ok (db, _) => takeSteps kaspa db steps

/-- The batch that a step adds meets a condition. -/
def ChainStep.Adds (given : List Mergeset → Prop) : ChainStep → Prop
  | .add mergesets => given mergesets
  | .remove _ => True

instance (given : List Mergeset → Prop) [DecidablePred given] :
    DecidablePred (ChainStep.Adds given)
  | .add mergesets => inferInstanceAs (Decidable (given mergesets))
  | .remove _ => inferInstanceAs (Decidable True)

theorem GuardedRun.takeSteps {kaspa : Kaspa} {adds : List Mergeset → Prop} {db db' : Db}
    {steps : List ChainStep}
    (run : GuardedRun kaspa (fun _ mergesets => adds mergesets) (fun _ _ _ => True) db)
    (given : ∀ step ∈ steps, step.Adds fun mergesets => Batch kaspa mergesets ∧ adds mergesets)
    (success : takeSteps kaspa db steps = .ok db') :
    GuardedRun kaspa (fun _ mergesets => adds mergesets) (fun _ _ _ => True) db' := by
  induction steps generalizing db with
  | nil =>
      cases success
      exact run
  | cons step steps ih =>
      obtain ⟨first, later⟩ := List.forall_mem_cons.1 given
      cases step with
      | add mergesets =>
          simp only [Krc721.takeSteps] at success
          split at success
          · cases success
          · rename_i added
            exact ih (.addition run first.1 first.2 added) later success
      | remove blocks =>
          simp only [Krc721.takeSteps] at success
          split at success
          · cases success
          · rename_i removed
            exact ih (.removal run trivial removed) later success

/-! Forks. -/

theorem ChainStore.le_lastAcceptedBlueScore {chain : ChainStore} {block : BlueScoredChainBlockHash}
    (isStored : (chain.chainBlockScores.get block).isSome) :
    block.blueScore ≤ chain.lastAcceptedBlueScore := by
  cases last : chain.lastAcceptedBlock with
  | none =>
      obtain ⟨value, found⟩ := Option.isSome_iff_exists.1 isStored
      have member := Partition.mem_entries.2 found
      rw [ChainStore.lastAcceptedBlock, Partition.lastKey, Option.map_eq_none_iff,
        List.getLast?_eq_none_iff] at last
      rw [last] at member
      cases member
  | some tip =>
      have greatest := (Partition.lastKey_eq_some_iff.1 last).2 block isStored
      rw [← not_lt, BlueScoredChainBlockHash.lt_iff, not_or] at greatest
      rw [ChainStore.lastAcceptedBlueScore, last]
      exact Nat.le_of_not_lt greatest.1

/-- No mergeset that is processed has the blue score of a stored block. -/
def Db.Unforked (db : Db) (mergesets : List Mergeset) : Prop :=
  ∀ mergeset ∈ mergesets, ¬ mergeset.Known db.toChainStore db.lastAcceptedBlueScore →
    ∀ block, (db.chainBlockScores.get block).isSome → block.blueScore ≠ mergeset.blueScore

namespace Db.Unforked

variable {db : Db} {mergesets : List Mergeset} {mergeset : Mergeset}

/-- What is processed lies above the stored blocks, unless it is a fork. -/
theorem above (unforked : db.Unforked mergesets) (member : mergeset ∈ mergesets)
    (unknown : ¬ mergeset.Known db.toChainStore db.lastAcceptedBlueScore) :
    mergeset.Above db.toChainStore := by
  intro block isStored
  have reached : db.lastAcceptedBlueScore ≤ mergeset.blueScore :=
    not_lt.1 fun low => unknown (.inl low)
  have different := unforked mergeset member unknown block isStored
  have le := ChainStore.le_lastAcceptedBlueScore isStored
  omega

theorem of_above (above : ∀ mergeset ∈ mergesets, mergeset.Above db.toChainStore) :
    db.Unforked mergesets :=
  fun mergeset member _ block isStored => (above mergeset member block isStored).ne

theorem new (mergesets : List Mergeset) : Db.new.Unforked mergesets := by
  intro mergeset _ _ block isStored
  simp [Db.new] at isStored

end Db.Unforked

/-- A database that additions and removals reach without processing a fork. -/
abbrev UnforkedReachable (kaspa : Kaspa) : Db → Prop :=
  GuardedRun kaspa Db.Unforked fun _ _ _ => True

/-- A guarded run in which no addition processes a fork. -/
abbrev UnforkedRun (kaspa : Kaspa) (adds : Db → List Mergeset → Prop)
    (removes : Db → List RpcHash → Option ℕ → Prop) : Db → Prop :=
  GuardedRun kaspa (fun db mergesets => db.Unforked mergesets ∧ adds db mergesets) removes

theorem UnforkedRun.unforkedReachable {kaspa : Kaspa} {adds : Db → List Mergeset → Prop}
    {removes : Db → List RpcHash → Option ℕ → Prop} {db : Db}
    (run : UnforkedRun kaspa adds removes db) : UnforkedReachable kaspa db :=
  run.mono And.left fun _ => trivial

end Krc721
