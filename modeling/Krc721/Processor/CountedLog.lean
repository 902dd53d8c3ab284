import Krc721.Processor.Authority
import Krc721.Processor.Delivery
import Krc721.Store.Sum

/-! The counters against the log. What processing adds to a counter is the weight of the
accepted operations it logs, and what a removal takes off is a weight of those it unlogs. The two
weights differ in the preminted tokens of a deployment. -/

set_option autoImplicit false

namespace Krc721

open OrderedStore

/-! The counters by name. -/

inductive Counter where
  | deployments
  | mints
  | transfers
  | royaltyFees
  | securityFees
  | listings
  | sends
deriving DecidableEq

def Stats.count (stats : Stats) : Counter → ℕ
  | .deployments => stats.deployments
  | .mints => stats.mints
  | .transfers => stats.transfers
  | .royaltyFees => stats.royaltyFees
  | .securityFees => stats.securityFees
  | .listings => stats.listings
  | .sends => stats.sends

namespace Stats

variable {left right : Stats}

theorem ext_count (same : ∀ counter, left.count counter = right.count counter) :
    left = right := by
  cases left
  cases right
  rw [mk.injEq]
  exact ⟨same .deployments, same .mints, same .transfers, same .royaltyFees,
    same .securityFees, same .listings, same .sends⟩

theorem count_zero (counter : Counter) : (0 : Stats).count counter = 0 := by
  cases counter
  all_goals rfl

theorem count_add (left right : Stats) (counter : Counter) :
    (left + right).count counter =
      saturatingAdd (left.count counter) (right.count counter) := by
  cases counter
  all_goals rfl

theorem count_sub (left right : Stats) (counter : Counter) :
    (left - right).count counter = left.count counter - right.count counter := by
  cases counter
  all_goals rfl

end Stats

/-! The weight of an operation. -/

/-- What an accepted operation adds to a counter. -/
def Operation.weight (operation : Operation) : Counter → ℕ
  | .deployments => match operation.info with
      | .deploy _ => 1
      | _ => 0
  | .mints => match operation.info with
      | .deploy info => info.premint
      | .mint _ => 1
      | _ => 0
  | .transfers => match operation.info with
      | .transfer _ => 1
      | _ => 0
  | .royaltyFees => match operation.info with
      | .deploy info => royaltyFee info.royalty
      | .mint info => royaltyFee info.royalty
      | _ => 0
  | .securityFees => operation.common.fee
  | .listings => match operation.info with
      | .list _ => 1
      | _ => 0
  | .sends => match operation.info with
      | .send _ => 1
      | _ => 0

/-- The mints that a removal of the operation forgets. -/
def Operation.premints (operation : Operation) : Counter → ℕ
  | .mints => match operation.info with
      | .deploy info => info.premint
      | _ => 0
  | _ => 0

/-- The weight of a logged operation; a rejected one has none. -/
def CheckedOperation.weight (counter : Counter) (checked : CheckedOperation) : ℕ :=
  if checked.error.isNone then checked.operation.weight counter else 0

def CheckedOperation.premints (counter : Counter) (checked : CheckedOperation) : ℕ :=
  if checked.error.isNone then checked.operation.premints counter else 0

/-- What the removal of a logged operation takes off a counter. -/
def CheckedOperation.removedWeight (counter : Counter) (checked : CheckedOperation) : ℕ :=
  checked.weight counter - checked.premints counter

theorem CheckedOperation.weight_eq (counter : Counter) (checked : CheckedOperation) :
    checked.weight counter = checked.removedWeight counter + checked.premints counter := by
  have le : checked.premints counter ≤ checked.weight counter := by
    unfold CheckedOperation.premints weight
    split
    · cases counter with
      | mints =>
          unfold Operation.premints Operation.weight
          cases checked.operation.info with
          | deploy info => exact Nat.le_refl _
          | _ => exact Nat.zero_le _
      | _ => exact Nat.zero_le _
    · exact Nat.le_refl _
  unfold removedWeight
  omega

/-- A diff has no carry. -/
def StatsDiffs.Wrapped (diff : StatsDiffs) : Prop := ∀ counter, diff.count counter < 2 ^ 64

theorem StatsDiffs.wrapped_zero : StatsDiffs.Wrapped 0 := by
  intro counter
  rw [Stats.count_zero]
  decide

theorem StatsDiffs.count_accept {diff : StatsDiffs} (wrapped : diff.Wrapped)
    (common : OperationCommon) (info : OperationInfo) (counter : Counter) :
    (StatsDiffs.accept diff common info).count counter =
      (diff.count counter + (Operation.mk common info).weight counter) % 2 ^ 64 := by
  have small := wrapped counter
  cases info
  all_goals
    cases counter
    all_goals
      simp only [Stats.count] at small
      simp only [StatsDiffs.accept, Stats.count, Operation.weight, wrappingAdd,
        Nat.add_zero, Nat.mod_eq_of_lt small]

theorem StatsDiffs.count_remove {diff : StatsDiffs} (wrapped : diff.Wrapped)
    (common : OperationCommon) (info : OperationInfo) (counter : Counter) :
    (StatsDiffs.remove diff common info).count counter =
      (diff.count counter + CheckedOperation.removedWeight counter ⟨⟨common, info⟩, none⟩) %
        2 ^ 64 := by
  have small := wrapped counter
  cases info
  all_goals
    cases counter
    all_goals
      simp only [Stats.count] at small
      simp only [StatsDiffs.remove, Stats.count, CheckedOperation.removedWeight,
        CheckedOperation.weight, CheckedOperation.premints, Operation.weight,
        Operation.premints, Option.isNone_none, if_true, wrappingAdd,
        Nat.add_zero, Nat.sub_zero, Nat.sub_self, Nat.mod_eq_of_lt small]

theorem StatsDiffs.wrapped_accept {diff : StatsDiffs} (wrapped : diff.Wrapped)
    (common : OperationCommon) (info : OperationInfo) :
    (StatsDiffs.accept diff common info).Wrapped := by
  intro counter
  rw [count_accept wrapped]
  exact Nat.mod_lt _ (by decide)

theorem StatsDiffs.wrapped_remove {diff : StatsDiffs} (wrapped : diff.Wrapped)
    (common : OperationCommon) (info : OperationInfo) :
    (StatsDiffs.remove diff common info).Wrapped := by
  intro counter
  rw [count_remove wrapped]
  exact Nat.mod_lt _ (by decide)

/-! Additions. -/

def LogStore.weight (log : LogStore) (counter : Counter) : ℕ :=
  log.operationHistory.sum (CheckedOperation.weight counter)

section Additions

variable {kaspa : Kaspa} {db db' : Db} {diff diff' : StatsDiffs}

theorem processNftOperation_counted {context : ContextOperation} (wrapped : diff.Wrapped)
    (success : processNftOperation kaspa db diff context = .ok (db', diff'))
    (new : db.operationHistory.get context.txScore = none) :
    diff'.Wrapped ∧ ∃ checked,
      db'.operationHistory = db.operationHistory.insert context.txScore checked ∧
      ∀ counter, db'.toLogStore.weight counter =
          db.toLogStore.weight counter + checked.weight counter ∧
        diff'.count counter = (diff.count counter + checked.weight counter) % 2 ^ 64 := by
  unfold processNftOperation at success
  split at success
  · cases success
  · rename_i between checked applied
    cases success
    have log := congrArg LogStore.operationHistory (applyOperation_log applied)
    have inserted : (between.recordOperation context.txScore checked).operationHistory =
        db.operationHistory.insert context.txScore checked := by
      simp only [Db.recordOperation, log]
    have weights : ∀ counter,
        (between.recordOperation context.txScore checked).toLogStore.weight counter =
          db.toLogStore.weight counter + checked.weight counter := by
      intro counter
      rw [LogStore.weight, inserted, Partition.sum_insert checked new, LogStore.weight]
    by_cases accepted : checked.error.isNone
    · simp only [accepted, if_true]
      refine ⟨StatsDiffs.wrapped_accept wrapped _ _, checked, inserted, fun counter =>
        ⟨weights counter, ?_⟩⟩
      rw [StatsDiffs.count_accept wrapped, CheckedOperation.weight, if_pos accepted]
    · simp only [accepted, Bool.false_eq_true, if_false]
      refine ⟨wrapped, checked, inserted, fun counter => ⟨weights counter, ?_⟩⟩
      rw [CheckedOperation.weight, if_neg accepted, Nat.add_zero,
        Nat.mod_eq_of_lt (wrapped counter)]

/-- The loop adds to a counter, up to a carry, what it adds to the weight of the log. -/
theorem processNftOperations_counted {contexts : List ContextOperation}
    (wrapped : diff.Wrapped)
    (success : processNftOperations kaspa db diff contexts = .ok (db', diff'))
    (new : ∀ context ∈ contexts, db.operationHistory.get context.txScore = none)
    (ascending : contexts.Pairwise fun left right => left.txScore < right.txScore) :
    diff'.Wrapped ∧ ∀ counter, ∃ added,
      db'.toLogStore.weight counter = db.toLogStore.weight counter + added ∧
        diff'.count counter = (diff.count counter + added) % 2 ^ 64 := by
  induction contexts generalizing db diff with
  | nil =>
      cases success
      refine ⟨wrapped, fun counter => ⟨0, rfl, ?_⟩⟩
      rw [Nat.add_zero, Nat.mod_eq_of_lt (wrapped counter)]
  | cons context contexts ih =>
      obtain ⟨later, ascending⟩ := List.pairwise_cons.1 ascending
      unfold processNftOperations at success
      split at success
      · cases success
      · rename_i between diffs step
        obtain ⟨stepWrapped, checked, inserted, counted⟩ :=
          processNftOperation_counted wrapped step (new context List.mem_cons_self)
        have stillNew : ∀ next ∈ contexts, between.operationHistory.get next.txScore = none := by
          intro next member
          rw [inserted, Partition.get_insert_of_ne _ _ (later next member).ne]
          exact new next (List.mem_cons_of_mem _ member)
        obtain ⟨lastWrapped, rest⟩ := ih stepWrapped success stillNew ascending
        refine ⟨lastWrapped, fun counter => ?_⟩
        obtain ⟨weight, count⟩ := counted counter
        obtain ⟨added, weights, counts⟩ := rest counter
        refine ⟨checked.weight counter + added, ?_, ?_⟩
        · rw [weights, weight, Nat.add_assoc]
        · rw [counts, count, Nat.mod_add_mod, Nat.add_assoc]

/-- A mergeset above the stored blocks counts the operations it logs. -/
theorem processMergeset_counted {mergeset : Mergeset} (consistent : Consistent kaspa db)
    (valid : mergeset.Valid kaspa) (above : mergeset.Above db.toChainStore)
    (success : processMergeset kaspa 0 db 0 mergeset = .ok (db', diff)) (counter : Counter) :
    db.toLogStore.weight counter ≤ db'.toLogStore.weight counter ∧
      (db'.toLogStore.weight counter ≤ u64Max →
        db'.toLogStore.weight counter = db.toLogStore.weight counter + diff.count counter) := by
  obtain ⟨bound, replay, le⟩ := consistent.replay_le valid above
  have newBlock : ¬ (db.chainBlockScores.get
      ⟨mergeset.blueScore, mergeset.acceptedChainBlockHash⟩).isSome :=
    fun present => lt_irrefl _ (above _ present)
  have given := (valid.fresh { db with toChainStore := db.toChainStore.accept mergeset }).1
  have new : ∀ context ∈ scoredOperations kaspa { db with
      toChainStore := db.toChainStore.accept mergeset } mergeset,
      db.operationHistory.get context.txScore = none := by
    intro context member
    cases stored : db.operationHistory.get context.txScore with
    | none => rfl
    | some checked =>
        have low := replay.wf.log.under _ _ stored
        have reached := given.reached context member
        simp only at low
        omega
  unfold processMergeset at success
  rw [if_neg (Nat.not_lt_zero _)] at success
  simp only [newBlock, Bool.false_eq_true, if_false] at success
  split at success
  · cases success
  · rename_i between counted loop
    cases success
    obtain ⟨wrapped, counts⟩ := processNftOperations_counted StatsDiffs.wrapped_zero loop new
      given.ascending
    obtain ⟨added, weights, count⟩ := counts counter
    have small := wrapped counter
    simp only at weights
    rw [Stats.count_zero, Nat.zero_add] at count
    refine ⟨by omega, fun fits => ?_⟩
    rw [Stats.count_add, Stats.count_zero, saturatingAdd, count]
    unfold u64Max at fits ⊢
    omega

/-- Counters that agree with the log agree with it after more mergesets, when they fit. -/
theorem Continues.counted {mergesets : List Mergeset} (consistent : Consistent kaspa db)
    (continues : Continues kaspa db.toChainStore mergesets) :
    ∃ db' diffs, Adds kaspa db mergesets db' diffs ∧
      (∀ counter, db.toLogStore.weight counter ≤ db'.toLogStore.weight counter) ∧
      ∀ stats : Stats, (∀ counter, stats.count counter = db.toLogStore.weight counter) →
        (∀ counter, db'.toLogStore.weight counter ≤ u64Max) →
          ∀ counter, (stats.total diffs).count counter = db'.toLogStore.weight counter := by
  induction mergesets generalizing db with
  | nil =>
      exact ⟨db, [], .refl consistent, fun _ => le_rfl, fun stats agrees _ => agrees⟩
  | cons mergeset mergesets ih =>
      have member : mergeset ∈ mergeset :: mergesets := List.mem_cons_self
      obtain ⟨between, added, success, one, later⟩ := continues.adds_head consistent
      have counted := processMergeset_counted consistent (continues.valid mergeset member)
        (continues.above mergeset member) success
      obtain ⟨final, diffs, rest, grows, counts⟩ := ih one.consistent later
      refine ⟨final, added :: diffs, one.trans rest,
        fun counter => (counted counter).1.trans (grows counter), ?_⟩
      intro stats agrees fits
      refine counts (stats + added) (fun counter => ?_) fits
      have low := (grows counter).trans (fits counter)
      have exact := (counted counter).2 low
      rw [Stats.count_add, Stats.count_zero] at exact
      rw [Stats.count_add, agrees]
      unfold saturatingAdd at exact ⊢
      omega

end Additions

/-! Removals. -/

section Removals

variable {kaspa : Kaspa} {db db' : Db} {diff diff' : StatsDiffs}

/-- Putting a listing back leaves the log and the counters alone. -/
theorem restoreListing_frame (db : Db) (common : OperationCommon) (info : SendInfo) :
    (restoreListingForReorgedSend db common info).operationHistory = db.operationHistory ∧
      (restoreListingForReorgedSend db common info).stats = db.stats := by
  unfold restoreListingForReorgedSend
  split
  · exact ⟨rfl, rfl⟩
  · split
    · exact ⟨rfl, rfl⟩
    · split
      · exact ⟨rfl, rfl⟩
      · split
        · exact ⟨rfl, rfl⟩
        · exact ⟨rfl, rfl⟩

theorem removeOperation_counted {score : ℕ} {checked : CheckedOperation}
    (wrapped : diff.Wrapped)
    (success : removeOperation db diff score checked = .ok (db', diff'))
    (logged : db.operationHistory.get score = some checked) :
    db'.operationHistory = db.operationHistory.erase score ∧ db'.stats = db.stats ∧
      diff'.Wrapped ∧ ∀ counter,
        diff'.count counter = (diff.count counter + checked.removedWeight counter) % 2 ^ 64 := by
  unfold removeOperation at success
  simp only [logged] at success
  split at success
  · rename_i rejected
    cases success
    refine ⟨rfl, rfl, wrapped, fun counter => ?_⟩
    have refused : ¬ checked.error.isNone := by
      rw [Option.isNone_iff_eq_none]
      intro none
      rw [none] at rejected
      cases rejected
    rw [CheckedOperation.removedWeight, CheckedOperation.weight, if_neg refused, Nat.zero_sub,
      Nat.add_zero, Nat.mod_eq_of_lt (wrapped counter)]
  · rename_i accepted
    cases success
    obtain ⟨⟨common, info⟩, error⟩ := checked
    simp only [Bool.not_eq_true, Option.isSome_eq_false_iff, Option.isNone_iff_eq_none] at accepted
    subst accepted
    refine ⟨?_, ?_, StatsDiffs.wrapped_remove wrapped _ _,
      StatsDiffs.count_remove wrapped common info⟩
    · simp only
      split
      · exact (restoreListing_frame _ _ _).1
      · rfl
    · simp only
      split
      · exact (restoreListing_frame _ _ _).2
      · rfl

theorem removeOperations_counted {ops : List (ℕ × CheckedOperation)} (wrapped : diff.Wrapped)
    (success : removeOperations db diff ops = .ok (db', diff'))
    (logged : ∀ entry ∈ ops, db.operationHistory.get entry.1 = some entry.2)
    (ordered : ops.Pairwise fun left right => left.1 < right.1) :
    db'.stats = db.stats ∧ ∀ counter, diff'.count counter = (diff.count counter +
      (ops.map fun entry => entry.2.removedWeight counter).sum) % 2 ^ 64 := by
  induction ops generalizing db diff with
  | nil =>
      cases success
      refine ⟨rfl, fun counter => ?_⟩
      rw [List.map_nil, List.sum_nil, Nat.add_zero, Nat.mod_eq_of_lt (wrapped counter)]
  | cons entry ops ih =>
      obtain ⟨score, checked⟩ := entry
      obtain ⟨later, ordered⟩ := List.pairwise_cons.1 ordered
      unfold removeOperations at success
      split at success
      · cases success
      · rename_i between diffs step
        obtain ⟨erased, sameStats, stepWrapped, counted⟩ :=
          removeOperation_counted wrapped step (logged _ List.mem_cons_self)
        have stillLogged : ∀ entry ∈ ops,
            between.operationHistory.get entry.1 = some entry.2 := by
          intro entry member
          rw [erased, Partition.get_erase_of_ne _ (later entry member).ne]
          exact logged entry (List.mem_cons_of_mem _ member)
        obtain ⟨sameRest, counts⟩ := ih stepWrapped success stillLogged ordered
        refine ⟨sameRest.trans sameStats, fun counter => ?_⟩
        rw [counts, counted, Nat.mod_add_mod, List.map_cons, List.sum_cons, Nat.add_assoc]

end Removals

end Krc721
