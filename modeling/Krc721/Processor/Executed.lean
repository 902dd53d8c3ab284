import Krc721.Processor.MergesetRuns

/-! Ledgers as the outcome of the operations that were given: every ledger of a guarded run comes
from an empty one by applying operations that meet its condition, in the order of their scores. -/

set_option autoImplicit false

namespace Krc721

open OrderedStore

/-- Operations that meet a condition were applied one after the other. -/
inductive Executed (kaspa : Kaspa) (given : Operation → Prop) : ℕ → Ledger → Prop where
  | empty : Executed kaspa given 0 {}
  | step {bound : ℕ} {db db' : Db} {context : ContextOperation} {checked : CheckedOperation}
      (earlier : Executed kaspa given bound db.toLedger)
      (reached : bound ≤ context.txScore) (le : context.txScore ≤ u64Max)
      (sound : context.operation.Sound)
      (fresh : db.txIdToOpscore.get context.operation.common.txId = none)
      (granted : given context.operation)
      (success : applyOperation kaspa db context = .ok (db', checked)) :
      Executed kaspa given (context.txScore + 1)
        (db'.recordOperation context.txScore checked).toLedger

/-- A run whose operations meet a condition. -/
abbrev GivenRun (kaspa : Kaspa) (given : Operation → Prop) : Db → Prop :=
  MergesetRun kaspa (fun mergeset => ∀ op ∈ mergeset.operations, given op.operation)
    fun _ _ _ => True

variable {kaspa : Kaspa} {given : Operation → Prop}

/-- What succeeds settles in one of the ways that are known. -/
theorem Applied.of_success {db db' : Db} {context : ContextOperation} {checked : CheckedOperation}
    {bound : ℕ} (wf : db.toLedger.Wf bound) (reached : bound ≤ context.txScore)
    (sound : context.operation.Sound)
    (success : applyOperation kaspa db context = .ok (db', checked)) :
    Applied kaspa db context db' checked := by
  obtain ⟨db'', checked', same, applied⟩ := applyOperation_applied wf reached sound
  rw [success] at same
  cases same
  exact applied

namespace Executed

variable {bound : ℕ} {ledger : Ledger}

theorem replay (executed : Executed kaspa given bound ledger) : Replay kaspa bound ledger := by
  induction executed with
  | empty => exact .empty
  | step earlier reached le sound fresh granted success ih =>
      exact .step ih reached le sound fresh (.of_success ih.wf reached sound success)

/-- The operations below a threshold, and what they leave of the ledger. -/
theorem cut (executed : Executed kaspa given bound ledger) {threshold : ℕ}
    (le : threshold ≤ u64Max + 1) :
    ∃ bound' old, bound' ≤ threshold ∧ Executed kaspa given bound' old ∧
      old.Extends threshold ledger := by
  induction executed with
  | empty => exact ⟨0, {}, Nat.zero_le _, .empty, Ledger.Wf.empty.extends_self (Nat.zero_le _)⟩
  | @step bound db db' context checked earlier reached fits sound fresh granted success ih =>
      rcases lt_or_ge context.txScore threshold with low | high
      · have whole : Executed kaspa given (context.txScore + 1)
            (db'.recordOperation context.txScore checked).toLedger :=
          .step earlier reached fits sound fresh granted success
        exact ⟨_, _, low, whole, whole.replay.wf.extends_self low⟩
      · obtain ⟨bound', old, below, executed, extended⟩ := ih
        have wf := earlier.replay.wf
        exact ⟨bound', old, below, executed, (Applied.of_success wf reached sound
          success).extends_step wf reached high fits sound fresh
          (executed.replay.wf.mono below le) extended⟩

/-- The loop over the operations of a mergeset. -/
theorem loop {db db' : Db} {diff diff' : StatsDiffs} {contexts : List ContextOperation}
    (executed : Executed kaspa given bound db.toLedger) (ready : Fresh db bound contexts)
    (granted : ∀ context ∈ contexts, given context.operation)
    (success : processNftOperations kaspa db diff contexts = .ok (db', diff')) :
    ∃ bound', Executed kaspa given bound' db'.toLedger := by
  induction contexts generalizing db diff bound with
  | nil =>
      cases success
      exact ⟨bound, executed⟩
  | cons context contexts ih =>
      have member : context ∈ context :: contexts := List.mem_cons_self
      have reached := ready.reached context member
      have sound := ready.sound context member
      have fresh := ready.new context member
      cases applied : applyOperation kaspa db context with
      | error fault =>
          simp only [processNftOperations, processNftOperation, applied] at success
          cases success
      | ok result =>
          obtain ⟨between, checked⟩ := result
          simp only [processNftOperations, processNftOperation, applied] at success
          have settled := Applied.of_success executed.replay.wf reached sound applied
          apply ih (.step executed reached (ready.fits context member) sound fresh
            (granted context member) applied) _ _ success
          · obtain ⟨first, ascending⟩ := List.pairwise_cons.1 ready.ascending
            obtain ⟨other, distinct⟩ := List.pairwise_cons.1 ready.distinct
            constructor
            case reached => exact fun next inRest => first next inRest
            case ascending => exact ascending
            case fits => exact fun next inRest => ready.fits next (List.mem_cons_of_mem _ inRest)
            case sound => exact fun next inRest => ready.sound next (List.mem_cons_of_mem _ inRest)
            case new =>
              intro next inRest
              obtain ⟨sameLog, _, sameCommon⟩ := settled.frame
              rw [Db.recordOperation, sameCommon, congrArg LogStore.txIdToOpscore sameLog,
                Partition.get_insert_of_ne _ _ (other next inRest)]
              exact ready.new next (List.mem_cons_of_mem _ inRest)
            case distinct => exact distinct
          · exact fun next inRest => granted next (List.mem_cons_of_mem _ inRest)

end Executed

/-- The bound of a ledger is the score after its last logged operation. -/
theorem Consistent.bound_le {db : Db} {mergeset : Mergeset} (consistent : Consistent kaspa db)
    (valid : mergeset.Valid kaspa) (above : mergeset.Above db.toChainStore) {bound : ℕ}
    (replay : Replay kaspa bound db.toLedger) :
    bound ≤ calculateTxScoreFromBlue kaspa mergeset.blueScore := by
  rcases replay.bound_logged with empty | ⟨score, checked, last, logged⟩
  · rw [empty]
    exact Nat.zero_le _
  · obtain ⟨block, stored, _, below⟩ := consistent.covered score checked logged
    rw [last, calculateTxScoreFromBlue_eq valid.fits]
    exact below.trans_le (Nat.mul_le_mul_right _ (above block stored))

/-- The ledger of every database of a run is executed from operations that meet its condition. -/
theorem GivenRun.executed {db : Db} (run : GivenRun kaspa given db) :
    ∃ bound, Executed kaspa given bound db.toLedger := by
  apply MergesetRun.kept (fun db => ∃ bound, Executed kaspa given bound db.toLedger) run
    ⟨0, .empty⟩
  · intro db db' lastAcceptedBlueScore diff diff' mergeset consistent granted valid above reached
      success before
    obtain ⟨bound, executed⟩ := before
    obtain ⟨ready, _⟩ :=
      valid.fresh { db with toChainStore := db.toChainStore.accept mergeset }
    have le := consistent.bound_le valid above executed.replay
    have fresh := above.fresh
    unfold Mergeset.block at fresh
    unfold processMergeset at success
    simp only [if_neg (not_lt.2 reached), fresh, Option.isSome_none, Bool.false_eq_true,
      if_false] at success
    split at success
    · cases success
    · rename_i looped
      cases success
      have accepted : Executed kaspa given bound
          { db with toChainStore := db.toChainStore.accept mergeset }.toLedger := executed
      apply accepted.loop _ _ looped
      · exact { ready with
          reached := fun context member => le.trans (ready.reached context member) }
      · intro context member
        obtain ⟨op, inMergeset, _, same⟩ := mem_scoredOperations.1 member
        rw [same]
        exact granted op inMergeset
  · intro db db' removed forced diff earlier _ rolledBack success before
    obtain ⟨bound, executed⟩ := before
    cases found : (db.identifyReorgBlocksAndDelete removed forced).2 with
    | none =>
        rw [rolledBack.unchanged (by rw [removalThreshold, found, Option.map_none])]
        exact ⟨bound, executed⟩
    | some minBlueScore =>
        have le : calculateTxScoreFromBlue kaspa minBlueScore ≤ u64Max + 1 :=
          (lt_two_pow_iff_le_u64Max.1 (Nat.mod_lt _ (by positivity))).trans (Nat.le_succ _)
        obtain ⟨bound', old, below, cut, extended⟩ := executed.cut le
        obtain ⟨db'', diff', same, restored, _⟩ := processRemoval_restores (Prod.ext rfl found)
          executed.replay.wf (UnforkedRun.consistent earlier).discounts
          (cut.replay.wf.mono below le) extended
        rw [success] at same
        cases same
        exact ⟨bound', restored ▸ cut⟩
  · intro db stats notificationQueue before
    exact before

end Krc721
