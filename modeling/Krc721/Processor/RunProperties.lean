import Krc721.Processor.RemovalProperties
import Krc721.Processor.Chain

/-! Runs of operations with ascending scores. What one operation preserves holds along a run,
and every run can be cut at a threshold into a shorter run that it extends. -/

set_option autoImplicit false

namespace Krc721

open OrderedStore

/-- Operations processed one after the other. All rows of the first database are below the
first bound, all rows of the last one below the second. -/
inductive Run (kaspa : Kaspa) (first : ℕ) (start : Db) : ℕ → Db → Prop where
  | refl : Run kaspa first start first start
  | step {bound : ℕ} {db db' : Db} {context : ContextOperation}
      {checked : CheckedOperation} (run : Run kaspa first start bound db)
      (reached : bound ≤ context.txScore) (le : context.txScore ≤ u64Max)
      (sound : context.operation.Sound)
      (fresh : db.txIdToOpscore.get context.operation.common.txId = none)
      (applied : Applied kaspa db context db' checked) :
      Run kaspa first start (context.txScore + 1)
        (db'.recordOperation context.txScore checked)

namespace Run

variable {kaspa : Kaspa} {first middle last : ℕ} {start between final : Db}

theorem bound_le (run : Run kaspa first start last final) : first ≤ last := by
  induction run with
  | refl => exact le_rfl
  | step _ reached _ _ _ _ ih => omega

theorem trans (run : Run kaspa first start middle between)
    (rest : Run kaspa middle between last final) : Run kaspa first start last final := by
  induction rest with
  | refl => exact run
  | step _ reached le sound fresh applied ih => exact .step ih reached le sound fresh applied

theorem wf (run : Run kaspa first start last final) (wf : start.toLedger.Wf first) :
    final.toLedger.Wf last := by
  induction run with
  | refl => exact wf
  | step _ reached le sound fresh applied ih => exact applied.wf ih reached le sound fresh

theorem preserves (kept : Db → Prop) (run : Run kaspa first start last final)
    (wf : start.toLedger.Wf first)
    (step : ∀ {bound : ℕ} {db db' : Db} {context : ContextOperation}
      {checked : CheckedOperation}, db.toLedger.Wf bound → bound ≤ context.txScore →
      context.txScore ≤ u64Max → Applied kaspa db context db' checked → kept db →
      kept (db'.recordOperation context.txScore checked))
    (initially : kept start) : kept final := by
  induction run with
  | refl => exact initially
  | step run reached le sound fresh applied ih => exact step (run.wf wf) reached le applied ih

/-- A run at or above a threshold extends what it started from. -/
theorem extends_of (run : Run kaspa first start last final) {threshold : ℕ}
    (wf : start.toLedger.Wf first) (above : threshold ≤ first) {old : Ledger}
    (oldWf : old.Wf threshold) (extended : old.Extends threshold start.toLedger) :
    old.Extends threshold final.toLedger := by
  induction run with
  | refl => exact extended
  | step run reached le sound fresh applied ih =>
      have between := run.bound_le
      exact applied.extends_step (run.wf wf) reached (by omega) le sound fresh oldWf ih

theorem chain (run : Run kaspa first start last final) :
    final.toChainStore = start.toChainStore := by
  induction run with
  | refl => rfl
  | step _ _ _ _ _ applied ih => exact applied.frame.2.1.trans ih

theorem discounts (run : Run kaspa first start last final) (wf : start.toLedger.Wf first)
    (indexed : start.DiscountsIndexed) : final.DiscountsIndexed := by
  induction run with
  | refl => exact indexed
  | @step _ db db' context checked run reached le sound fresh applied ih =>
      have ledger := run.wf wf
      cases applied with
      | discounted info entry kind found byDeployer lower =>
          intro key present
          simp only [Db.recordOperation, Partition.get_insert] at present ⊢
          by_cases same : (⟨info.toSpk, context.operation.common.tick,
              u64Max - context.txScore, info.fee⟩ : VipKey) = key
          · subst same
            exact ⟨context.txScore, le, rfl, by simp⟩
          · rw [if_neg same] at present
            obtain ⟨score, scoreLe, reversed, stored⟩ := ih key present
            refine ⟨score, scoreLe, reversed, ?_⟩
            rw [if_neg, stored]
            -- an older discount has a smaller score
            intro equal
            injection equal with sameScore
            obtain ⟨row, found⟩ := Option.isSome_iff_exists.1 present
            have low := ledger.vip _ _ found
            simp only [VipKey.rowScore] at low
            omega
      | _ => exact ih

theorem addressed (run : Run kaspa first start last final)
    (indexed : start.AddressIndexed) : final.AddressIndexed := by
  induction run with
  | refl => exact indexed
  | step run reached le sound fresh applied ih =>
      cases applied with
      | listed info current kind owned bySender unlisted locked =>
          refine Db.AddressIndexed.insertListing ih fun listing found => ?_
          rw [unlisted] at found
          cases found
      | sold info listing buyer kind found spends toBuyer =>
          refine Db.AddressIndexed.removeListing ih fun listing' found' => ?_
          rw [Option.some_inj.1 (found'.symm.trans found)]
      | cancelled info listing kind found spends noBuyer =>
          refine Db.AddressIndexed.removeListing ih fun listing' found' => ?_
          rw [Option.some_inj.1 (found'.symm.trans found)]
      | _ => exact ih

end Run

/-! The loop over the operations of a mergeset is a run. -/

section Loop

variable {kaspa : Kaspa} {bound : ℕ}

/-- The operations a loop is given: scores ascend from the bound, transactions are new, and
deployments are sound. -/
structure Fresh (db : Db) (bound : ℕ) (contexts : List ContextOperation) : Prop where
  reached : ∀ context ∈ contexts, bound ≤ context.txScore
  ascending : contexts.Pairwise fun left right => left.txScore < right.txScore
  fits : ∀ context ∈ contexts, context.txScore ≤ u64Max
  sound : ∀ context ∈ contexts, context.operation.Sound
  new : ∀ context ∈ contexts, db.txIdToOpscore.get context.operation.common.txId = none
  distinct : contexts.Pairwise fun left right =>
    left.operation.common.txId ≠ right.operation.common.txId

/-- The loop never faults. Afterwards every row is below any bound that was above the rows
before and above the scores of the loop, and the log holds nothing but its operations. -/
theorem processNftOperations_run {contexts : List ContextOperation} (db : Db) (diff : StatsDiffs)
    (wf : db.toLedger.Wf bound) (given : Fresh db bound contexts) :
    ∃ db' diff' last, processNftOperations kaspa db diff contexts = .ok (db', diff') ∧
      Run kaspa bound db last db' ∧
      (∀ limit, bound ≤ limit → (∀ context ∈ contexts, context.txScore < limit) →
        last ≤ limit) ∧
      ∀ score checked, db'.operationHistory.get score = some checked →
        db.operationHistory.get score = some checked ∨ ∃ context ∈ contexts,
          context.txScore = score ∧ checked.Records context.operation := by
  induction contexts generalizing db bound diff with
  | nil => exact ⟨db, diff, bound, rfl, .refl, fun limit le _ => le, fun _ _ => .inl⟩
  | cons context contexts ih =>
      obtain ⟨firstScore, ascending⟩ := List.pairwise_cons.1 given.ascending
      obtain ⟨firstId, distinct⟩ := List.pairwise_cons.1 given.distinct
      have member : context ∈ context :: contexts := List.mem_cons_self
      have reached := given.reached context member
      have le := given.fits context member
      have sound := given.sound context member
      have fresh := given.new context member
      obtain ⟨db', checked, success, applied⟩ := applyOperation_applied wf reached sound
      obtain ⟨sameLog, _, sameCommon⟩ := applied.frame
      have one : Run kaspa bound db (context.txScore + 1)
          (db'.recordOperation context.txScore checked) :=
        .step .refl reached le sound fresh applied
      have index : (db'.recordOperation context.txScore checked).txIdToOpscore =
          db.txIdToOpscore.insert context.operation.common.txId context.txScore := by
        rw [Db.recordOperation, congrArg LogStore.txIdToOpscore sameLog, sameCommon]
      have rest : Fresh (db'.recordOperation context.txScore checked) (context.txScore + 1)
          contexts := by
        refine ⟨fun later inRest => firstScore later inRest, ascending,
          fun later inRest => given.fits later (List.mem_cons_of_mem _ inRest),
          fun later inRest => given.sound later (List.mem_cons_of_mem _ inRest),
          fun later inRest => ?_, distinct⟩
        rw [index, Partition.get_insert_of_ne _ _ (firstId later inRest)]
        exact given.new later (List.mem_cons_of_mem _ inRest)
      have turn : ∃ diff', processNftOperation kaspa db diff context =
          .ok (db'.recordOperation context.txScore checked, diff') := by
        unfold processNftOperation
        simp only [success]
        exact ⟨_, rfl⟩
      obtain ⟨diff', turn⟩ := turn
      obtain ⟨final, diffs, last, loop, run, limits, logged⟩ :=
        ih _ diff' (applied.wf wf reached le sound fresh) rest
      refine ⟨final, diffs, last, by simp only [processNftOperations, turn, loop],
        one.trans run, fun limit le below => ?_, fun score checked' present => ?_⟩
      · exact limits limit (below context member)
          fun later inRest => below later (List.mem_cons_of_mem _ inRest)
      · rcases logged score checked' present with earlier | ⟨later, inRest, same⟩
        · rw [Db.recordOperation, Partition.get_insert,
            congrArg LogStore.operationHistory sameLog] at earlier
          split at earlier
          · rename_i same
            cases earlier
            exact .inr ⟨context, member, same, applied.records⟩
          · exact .inl earlier
        · exact .inr ⟨later, List.mem_cons_of_mem _ inRest, same⟩

end Loop

/-! Ledgers that processing can produce. -/

/-- A ledger that some run of operations from an empty database produces. Only the ledger is
carried from one operation to the next. -/
inductive Replay (kaspa : Kaspa) : ℕ → Ledger → Prop where
  | empty : Replay kaspa 0 {}
  | step {bound : ℕ} {db db' : Db} {context : ContextOperation} {checked : CheckedOperation}
      (earlier : Replay kaspa bound db.toLedger)
      (reached : bound ≤ context.txScore) (le : context.txScore ≤ u64Max)
      (sound : context.operation.Sound)
      (fresh : db.txIdToOpscore.get context.operation.common.txId = none)
      (applied : Applied kaspa db context db' checked) :
      Replay kaspa (context.txScore + 1) (db'.recordOperation context.txScore checked).toLedger

namespace Replay

variable {kaspa : Kaspa} {bound : ℕ} {ledger : Ledger}

theorem wf (replay : Replay kaspa bound ledger) : ledger.Wf bound := by
  induction replay with
  | empty => exact .empty
  | step _ reached le sound fresh applied ih => exact applied.wf ih reached le sound fresh

theorem run {first last : ℕ} {start final : Db} (replay : Replay kaspa bound start.toLedger)
    (le : bound ≤ first) (run : Run kaspa first start last final) :
    ∃ bound', bound' ≤ last ∧ Replay kaspa bound' final.toLedger := by
  induction run with
  | refl => exact ⟨bound, le, replay⟩
  | step _ reached fits sound fresh applied ih =>
      obtain ⟨bound', below, earlier⟩ := ih
      exact ⟨_, le_rfl, .step earlier (below.trans reached) fits sound fresh applied⟩

/-- Every replayed ledger extends, above any threshold, the replay of the operations below. -/
theorem cut (replay : Replay kaspa bound ledger) {threshold : ℕ}
    (le : threshold ≤ u64Max + 1) :
    ∃ bound' old, bound' ≤ threshold ∧ Replay kaspa bound' old ∧
      old.Extends threshold ledger := by
  induction replay with
  | empty => exact ⟨0, {}, Nat.zero_le _, .empty, Ledger.Wf.empty.extends_self (Nat.zero_le _)⟩
  | @step bound db db' context checked earlier reached fits sound fresh applied ih =>
      rcases lt_or_ge context.txScore threshold with low | high
      · have whole : Replay kaspa (context.txScore + 1)
            (db'.recordOperation context.txScore checked).toLedger :=
          .step earlier reached fits sound fresh applied
        exact ⟨_, _, low, whole, whole.wf.extends_self low⟩
      · obtain ⟨bound', old, below, replayed, extended⟩ := ih
        exact ⟨bound', old, below, replayed, applied.extends_step earlier.wf reached high fits
          sound fresh (replayed.wf.mono below le) extended⟩

end Replay

end Krc721
