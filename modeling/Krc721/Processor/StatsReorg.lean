import Krc721.Processor.CountedLog

/-! The counters after a reorganisation. A removal takes off what the removed operations had
added, except for the preminted tokens of the deployments among them. -/

set_option autoImplicit false

namespace Krc721

open OrderedStore

/-! The counters are not touched before the removal ends. -/

section Removal

variable {kaspa : Kaspa} {db db' : Db}

theorem removeTokenOperation_stats {premints : Partition Tick ℕ} {key : TokenMintsKey}
    {holder : Option ScriptPublicKey}
    (success : removeTokenOperation premints db key = .ok (db', holder)) :
    db'.stats = db.stats := by
  unfold removeTokenOperation at success
  simp only at success
  split at success
  · split at success
    · cases success
    · split at success
      · split at success
        · cases success
        · cases success
          rfl
      · cases success
        rfl
  · cases success
    rfl

theorem removeTokenOperations_stats {premints : Partition Tick ℕ} {keys : List TokenMintsKey}
    {affected : List (TokenMintsKey × Option ScriptPublicKey)}
    (success : removeTokenOperations premints db keys = .ok (db', affected)) :
    db'.stats = db.stats := by
  induction keys generalizing db affected with
  | nil =>
      cases success
      rfl
  | cons key keys ih =>
      unfold removeTokenOperations at success
      split at success
      · cases success
      · rename_i between holder step
        split at success
        · cases success
        · rename_i rest
          cases success
          exact (ih rest).trans (removeTokenOperation_stats step)

theorem reconstructTokenOwnership_stats {threshold : ℕ} {premints : Partition Tick ℕ}
    (success : reconstructTokenOwnership db threshold premints = .ok db') :
    db'.stats = db.stats := by
  unfold reconstructTokenOwnership at success
  split at success
  · cases success
  · rename_i affected
    cases success
    unfold getAffectedTokenOperations at affected
    have kept := removeTokenOperations_stats affected
    exact kept

/-- What a removal takes off the counters: the removed weights of the operations from the
threshold on. -/
theorem processRemoval_counted {removed : List RpcHash} {forced : Option ℕ}
    {diff : StatsDiffs} {chain : ChainStore} {minBlueScore : ℕ}
    (found : db.identifyReorgBlocksAndDelete removed forced = (chain, some minBlueScore))
    (success : processRemoval kaspa db removed forced = .ok (db', diff)) :
    db'.stats = db.stats ∧ ∀ counter, diff.count counter =
      db.operationHistory.sumFrom (calculateTxScoreFromBlue kaspa minBlueScore)
        (CheckedOperation.removedWeight counter) % 2 ^ 64 := by
  unfold processRemoval at success
  simp only [found] at success
  split at success
  · cases success
  · rename_i cleared diffs operations
    split at success
    · cases success
    · rename_i rebuilt
      cases success
      obtain ⟨sameStats, counts⟩ := removeOperations_counted StatsDiffs.wrapped_zero operations
        (fun entry member => (Partition.mem_entriesFrom.1 member).1)
        (Partition.entriesFrom_ordered _ _)
      constructor
      · have rebuiltStats := reconstructTokenOwnership_stats rebuilt
        simp only [removeAffectedListings, foldl_removeListing, removeDiscounts] at rebuiltStats
        exact rebuiltStats.trans sameStats
      · intro counter
        rw [counts, Stats.count_zero, Nat.zero_add]
        rfl

end Removal

/-- A part of the log weighs no preminted tokens if and only if no deployment in it made any. -/
theorem sumFrom_premints_eq_zero_iff {log : Partition ℕ CheckedOperation} {threshold : ℕ} :
    (∀ counter, log.sumFrom threshold (CheckedOperation.premints counter) = 0) ↔
      ∀ score common info, log.get score = some ⟨⟨common, .deploy info⟩, none⟩ →
        threshold ≤ score → info.premint = 0 := by
  constructor
  · intro zero score common info logged reached
    exact Partition.sumFrom_eq_zero_iff.1 (zero .mints) score _ logged reached
  · intro none counter
    rw [Partition.sumFrom_eq_zero_iff]
    intro score checked logged reached
    obtain ⟨⟨common, info⟩, error⟩ := checked
    cases error with
    | some error => rfl
    | none =>
        cases info with
        | deploy info =>
            cases counter with
            | mints => exact none score common info logged reached
            | _ => rfl
        | _ =>
            cases counter
            all_goals rfl

/-! A chain that is delivered, and a part of it that is rolled back. -/

section Chain

variable {kaspa : Kaspa} {before rest : List Mergeset} {first : Mergeset}

theorem ValidChain.continues {mergesets : List Mergeset} (valid : ValidChain kaspa mergesets) :
    Continues kaspa Db.new.toChainStore mergesets where
  valid := valid.valid
  ascending := valid.ascending
  above := by
    intro mergeset _ block stored
    simp [Db.new] at stored

/-- Adding a chain in one loop is accepting its mergesets one by one. -/
theorem Adds.accepted {db db' : Db} {mergesets rest : List Mergeset} {diffs : List StatsDiffs}
    (adds : Adds kaspa db mergesets db' diffs) (ready : Ready kaspa db (mergesets ++ rest)) :
    acceptMergesets kaspa db mergesets = .ok db' := by
  obtain ⟨final, diff, loop, accepted, _⟩ :=
    ready.processMergesets (fun mergeset _ => Nat.zero_le mergeset.blueScore) 0
  rw [adds.loop 0 0 fun mergeset _ => Nat.zero_le mergeset.blueScore] at loop
  cases loop
  exact accepted

/-- The counters of a database that a chain was delivered to are the weights of its log. -/
theorem Delivered.counted {mergesets : List Mergeset} {db : Db}
    (delivered : Delivered kaspa .new mergesets db) (valid : ValidChain kaspa mergesets)
    (fits : ∀ counter, db.toLogStore.weight counter ≤ u64Max) (counter : Counter) :
    (db.stats.getD 0).count counter = db.toLogStore.weight counter := by
  obtain ⟨base, diffs, adds, same⟩ := delivered
  obtain ⟨base', diffs', adds', _, counts⟩ := valid.continues.counted Consistent.new
  obtain ⟨sameBase, sameTotal⟩ := adds.unique adds'
  subst same sameBase
  have start : ∀ counter, (0 : Stats).count counter = Db.new.toLogStore.weight counter := by
    intro counter
    rw [Stats.count_zero]
    exact Partition.sum_empty.symm
  have counted := counts 0 start fits counter
  rw [← sameTotal] at counted
  have read : (countersAfter Db.new.stats mergesets diffs).getD 0 = (0 : Stats).total diffs :=
    getD_countersAfter adds
  rw [show ((base.withStats (countersAfter Db.new.stats mergesets diffs)).stats.getD 0) =
    (0 : Stats).total diffs from read]
  exact counted

theorem Delivered.consistent {start db : Db} {mergesets : List Mergeset}
    (delivered : Delivered kaspa start mergesets db) : Consistent kaspa db := by
  obtain ⟨base, diffs, adds, same⟩ := delivered
  subst same
  exact ⟨adds.consistent.replay, adds.consistent.covered, adds.consistent.discounts⟩

theorem processChainChanges_removal {db db' : Db} {removed : List RpcHash} {forced : Option ℕ}
    {diff : StatsDiffs} (rollsBack : RollsBack first rest removed forced)
    (success : processRemoval kaspa db removed forced = .ok (db', diff)) :
    processChainChanges kaspa db ⟨removed, forced, []⟩ = (db'.statsRemoval diff, .ok ()) := by
  have removes : (!removed.isEmpty || forced.isSome) = true := by
    cases rollsBack.reaches with
    | inl member =>
        cases removed with
        | nil => cases member
        | cons hash removed => rfl
    | inr given => rw [given, Option.isSome_some, Bool.or_true]
  have phase : removalPhase kaspa db ⟨removed, forced, []⟩ = .ok (db'.statsRemoval diff) := by
    simp only [removalPhase, removes, if_true, success]
  have none : additionPhase kaspa (db'.statsRemoval diff) ⟨removed, forced, []⟩ =
    .ok (db'.statsRemoval diff) := rfl
  simp only [processChainChanges, processChainChangesWtx, phase, none]

/-- The part of the log below the removed blocks is the log of the shorter chain. -/
theorem Delivered.split {full replayed : Db}
    (valid : ValidChain kaspa (before ++ first :: rest))
    (whole : Delivered kaspa .new (before ++ first :: rest) full)
    (shorter : Delivered kaspa .new before replayed) :
    replayed.operationHistory = full.operationHistory.below (fun score _ => score)
        (calculateTxScoreFromBlue kaspa first.blueScore) ∧
      ∃ base replayedBase, ChainSplit kaspa before first rest replayedBase base ∧
        full.toChainStore = base.toChainStore := by
  obtain ⟨replayedBase, base, split⟩ := valid.split
  obtain ⟨base', diffs, adds, same⟩ := whole
  obtain ⟨replayedBase', diffs', adds', same'⟩ := shorter
  have ready : Ready kaspa Db.new ((before ++ first :: rest) ++ []) := by
    rw [List.append_nil]
    exact .new valid
  have accepted := adds.accepted ready
  rw [acceptMergesets_append _ split.accepted, split.more] at accepted
  cases accepted
  have accepted' := adds'.accepted (Ready.new valid)
  rw [split.accepted] at accepted'
  cases accepted'
  subst same same'
  exact ⟨split.ledger.operationHistory.symm, base, replayedBase, split, rfl⟩

/-- A rollback leaves the counters of the shorter chain and the preminted tokens of the removed
deployments, which it does not take off. -/
theorem Delivered.count_rolledBack {full replayed : Db} {removed : List RpcHash}
    {forced : Option ℕ} (valid : ValidChain kaspa (before ++ first :: rest))
    (whole : Delivered kaspa .new (before ++ first :: rest) full)
    (shorter : Delivered kaspa .new before replayed)
    (unsaturated : ∀ counter, full.toLogStore.weight counter ≤ u64Max)
    (rollsBack : RollsBack first rest removed forced) :
    ∃ rolledBack, processChainChanges kaspa full ⟨removed, forced, []⟩ = (rolledBack, .ok ()) ∧
      ∀ counter, (rolledBack.stats.getD 0).count counter =
        (replayed.stats.getD 0).count counter + full.operationHistory.sumFrom
          (calculateTxScoreFromBlue kaspa first.blueScore)
          (CheckedOperation.premints counter) := by
  obtain ⟨sameLog, base, replayedBase, split, sameChain⟩ := whole.split valid shorter
  have found := split.identify rollsBack
  rw [← sameChain] at found
  obtain ⟨rolledBack, diff, success, _⟩ := whole.consistent.processRemoval removed forced
  obtain ⟨sameStats, counts⟩ := processRemoval_counted found success
  refine ⟨rolledBack.statsRemoval diff, processChainChanges_removal rollsBack success, ?_⟩
  have cut : ∀ counter, full.toLogStore.weight counter =
      replayed.toLogStore.weight counter +
        full.operationHistory.sumFrom (calculateTxScoreFromBlue kaspa first.blueScore)
          (CheckedOperation.weight counter) := by
    intro counter
    rw [LogStore.weight, LogStore.weight, sameLog]
    exact Partition.sum_eq_below_add_sumFrom _
  have smaller : ∀ counter, replayed.toLogStore.weight counter ≤ u64Max :=
    fun counter => (Nat.le_of_add_right_le (cut counter).ge).trans (unsaturated counter)
  intro counter
  have parts : full.operationHistory.sumFrom (calculateTxScoreFromBlue kaspa first.blueScore)
        (CheckedOperation.weight counter) =
      full.operationHistory.sumFrom (calculateTxScoreFromBlue kaspa first.blueScore)
        (CheckedOperation.removedWeight counter) +
      full.operationHistory.sumFrom (calculateTxScoreFromBlue kaspa first.blueScore)
        (CheckedOperation.premints counter) := by
    rw [← Partition.sumFrom_add]
    exact congrArg _ (funext fun checked => checked.weight_eq counter)
  have counted := whole.counted valid unsaturated counter
  have replayCounted := shorter.counted valid.left smaller counter
  have small := unsaturated counter
  have sums := cut counter
  rw [Db.statsRemoval, Option.getD_some, Stats.count_sub, sameStats, counted, counts,
    replayCounted]
  unfold u64Max at small
  omega

end Chain

/-- Rolling back the end of a delivered chain restores the counters of the shorter chain if and
only if no deployment with preminted tokens was accepted in the removed blocks. -/
theorem stats_survive_iff {kaspa : Kaspa} {before rest : List Mergeset} {first : Mergeset}
    {removed : List RpcHash} {forced : Option ℕ} {vccs replayVccs : List VirtualChainChanges}
    {delivered replayDelivered : ℕ} {full : Db}
    (valid : ValidChain kaspa (before ++ first :: rest))
    (delivery : Delivery (before ++ first :: rest) 0 vccs delivered)
    (whole : (before ++ first :: rest).length ≤ delivered)
    (replay : Delivery before 0 replayVccs replayDelivered)
    (replayWhole : before.length ≤ replayDelivered)
    (processed : deliver kaspa .new vccs = .ok full)
    (unsaturated : ∀ counter, full.toLogStore.weight counter ≤ u64Max)
    (rollsBack : RollsBack first rest removed forced) :
    ∃ replayed rolledBack, deliver kaspa .new replayVccs = .ok replayed ∧
      processChainChanges kaspa full ⟨removed, forced, []⟩ = (rolledBack, .ok ()) ∧
      (rolledBack.stats.getD 0 = replayed.stats.getD 0 ↔
        ∀ score common info,
          full.operationHistory.get score = some ⟨⟨common, .deploy info⟩, none⟩ →
            calculateTxScoreFromBlue kaspa first.blueScore ≤ score → info.premint = 0) := by
  have nothing : Delivered kaspa .new [] .new := .refl Consistent.new
  have fits : (Db.new.stats.getD 0).Fits := .zero
  obtain ⟨full', run, arrived⟩ := delivery.run fits valid.continues nothing
  rw [processed] at run
  cases run
  rw [List.take_of_length_le whole] at arrived
  obtain ⟨replayed, replayRun, there⟩ := replay.run fits valid.left.continues nothing
  rw [List.take_of_length_le replayWhole] at there
  obtain ⟨rolledBack, rollback, left⟩ :=
    arrived.count_rolledBack valid there unsaturated rollsBack
  refine ⟨replayed, rolledBack, replayRun, rollback, ?_⟩
  rw [← sumFrom_premints_eq_zero_iff]
  constructor
  · intro same counter
    have equal := left counter
    rw [same] at equal
    omega
  · intro zero
    refine Stats.ext_count fun counter => ?_
    rw [left counter, zero counter, Nat.add_zero]

/-! The deployment of the sample chain, rolled back. -/

/-- The preminted token of a deployment that was rolled back stays in the counters. -/
theorem deployed_not_restored : ∃ full rolledBack,
    deliver Sample.kaspa .new [.additions [Sample.deployBlock]] = .ok full ∧
      processChainChanges Sample.kaspa full ⟨[101], none, []⟩ = (rolledBack, .ok ()) ∧
      full.stats = some ⟨1, 1, 0, 0, 0, 1, 0⟩ ∧ rolledBack.stats = some ⟨0, 1, 0, 0, 0, 0, 0⟩ ∧
      rolledBack.stats.getD 0 ≠ Db.new.stats.getD 0 := by
  refine ⟨_, _, rfl, rfl, rfl, rfl, ?_⟩
  decide

namespace Sample

/-- The database after the deployment and the sale came one after the other. -/
def delivered : Db :=
  match deliver kaspa .new [.additions [deployBlock], .additions [deployBlock, saleBlock]] with
  | .ok db => db
  | .error _ => .new

set_option maxRecDepth 4000 in
theorem delivered_unsaturated : ∀ counter, delivered.toLogStore.weight counter ≤ u64Max := by
  intro counter
  cases counter
  all_goals decide

theorem delivery_deployBlock : Delivery [deployBlock] 0 [.additions [deployBlock]] 1 :=
  @Delivery.segment _ 0 0 1 1 _ (le_refl 0) (.done 1)

end Sample

set_option maxRecDepth 4000 in
theorem stats_survive_iff_sale : ∃ replayed rolledBack,
    deliver Sample.kaspa .new [.additions [Sample.deployBlock]] = .ok replayed ∧
    processChainChanges Sample.kaspa Sample.delivered ⟨[102], none, []⟩ = (rolledBack, .ok ()) ∧
    (rolledBack.stats.getD 0 = replayed.stats.getD 0 ↔ ∀ score common info,
      Sample.delivered.operationHistory.get score = some ⟨⟨common, .deploy info⟩, none⟩ →
        calculateTxScoreFromBlue Sample.kaspa Sample.saleBlock.blueScore ≤ score →
          info.premint = 0) :=
  stats_survive_iff Sample.chain_valid Sample.delivery (by decide) Sample.delivery_deployBlock
    (by decide) rfl Sample.delivered_unsaturated Sample.saleBlock_rollsBack

end Krc721
