import Krc721.Processor.Counters
import Krc721.Processor.ReachableInvariants

/-! Deliveries of a chain. However a chain is cut into notifications, and whichever of its
mergesets are sent again, the database ends as if the chain had come at once. -/

set_option autoImplicit false

namespace Krc721

open OrderedStore

/-- A notification that adds mergesets and removes nothing. -/
def VirtualChainChanges.additions (mergesets : List Mergeset) : VirtualChainChanges where
  removedChainBlockHashes := []
  forcedRollbackBlueScore := none
  mergesets := mergesets

/-- Without a removal the notification is its additions. -/
theorem processChainChanges_additions {kaspa : Kaspa} {db db' : Db} {mergesets : List Mergeset}
    (success : additionPhase kaspa db (.additions mergesets) = .ok db') :
    processChainChanges kaspa db (.additions mergesets) = (db', .ok ()) := by
  have removal : removalPhase kaspa db (.additions mergesets) = .ok db := rfl
  simp only [processChainChanges, processChainChangesWtx, removal, success]

/-- Process notifications one after the other, until one fails. -/
def deliver (kaspa : Kaspa) : Db → List VirtualChainChanges → Except Fault Db
  | db, [] => .ok db
  | db, vcc :: rest =>
      match processChainChanges kaspa db vcc with
      | (_, .error fault) => .error fault
      | (db, .ok ()) => deliver kaspa db rest

/-- Notifications that carry segments of a chain. Each starts at or before the mergeset after
the last one that was delivered, and they move the number of delivered mergesets. -/
inductive Delivery (chain : List Mergeset) : ℕ → List VirtualChainChanges → ℕ → Prop where
  | done (delivered : ℕ) : Delivery chain delivered [] delivered
  | segment {delivered start count last : ℕ} {rest : List VirtualChainChanges}
      (reaches : start ≤ delivered)
      (more : Delivery chain (max delivered (start + count)) rest last) :
      Delivery chain delivered (.additions ((chain.drop start).take count) :: rest) last

/-- The mergesets of a chain that continues the stored blocks of a database. -/
structure Continues (kaspa : Kaspa) (chain : ChainStore) (mergesets : List Mergeset) : Prop where
  valid : ∀ mergeset ∈ mergesets, mergeset.Valid kaspa
  ascending : mergesets.Pairwise fun left right => left.blueScore < right.blueScore
  above : ∀ mergeset ∈ mergesets, mergeset.Above chain

/-! The blocks of a chain. -/

def ChainStore.acceptAll (chain : ChainStore) (mergesets : List Mergeset) : ChainStore :=
  mergesets.foldl ChainStore.accept chain

namespace ChainStore

variable {chain : ChainStore} {mergesets : List Mergeset} {block : BlueScoredChainBlockHash}

theorem isSome_acceptAll : ((chain.acceptAll mergesets).chainBlockScores.get block).isSome ↔
    (chain.chainBlockScores.get block).isSome ∨ ∃ mergeset ∈ mergesets,
      block = ⟨mergeset.blueScore, mergeset.acceptedChainBlockHash⟩ := by
  induction mergesets generalizing chain with
  | nil => simp [acceptAll]
  | cons mergeset mergesets ih =>
      have rest := @ih (chain.accept mergeset)
      simp only [acceptAll, List.foldl_cons] at rest ⊢
      rw [rest, accept, Partition.get_insert]
      grind

end ChainStore

namespace Continues

variable {kaspa : Kaspa} {chain : ChainStore} {mergeset : Mergeset}
variable {mergesets rest : List Mergeset}

theorem tail (continues : Continues kaspa chain (mergeset :: mergesets)) :
    Continues kaspa (chain.accept mergeset) mergesets where
  valid := fun next member => continues.valid next (List.mem_cons_of_mem _ member)
  ascending := (List.pairwise_cons.1 continues.ascending).2
  above := by
    intro next member block stored
    rw [ChainStore.accept, Partition.get_insert] at stored
    split at stored
    · rename_i same
      subst same
      exact (List.pairwise_cons.1 continues.ascending).1 next member
    · exact continues.above next (List.mem_cons_of_mem _ member) block stored

theorem append (continues : Continues kaspa chain (mergesets ++ rest)) :
    Continues kaspa (chain.acceptAll mergesets) rest := by
  induction mergesets generalizing chain with
  | nil => exact continues
  | cons mergeset mergesets ih => exact ih continues.tail

theorem take (continues : Continues kaspa chain mergesets) (count : ℕ) :
    Continues kaspa chain (mergesets.take count) where
  valid := fun next member => continues.valid next (List.mem_of_mem_take member)
  ascending := continues.ascending.sublist (List.take_sublist count mergesets)
  above := fun next member => continues.above next (List.mem_of_mem_take member)

end Continues

/-! The loop over a batch. -/

section Loop

variable {kaspa : Kaspa} {lastAcceptedBlueScore : ℕ}

theorem processMergesets_append {db between : Db} {diff added : StatsDiffs}
    {left : List Mergeset} (right : List Mergeset)
    (success : processMergesets kaspa lastAcceptedBlueScore db diff left =
      .ok (between, added)) :
    processMergesets kaspa lastAcceptedBlueScore db diff (left ++ right) =
      processMergesets kaspa lastAcceptedBlueScore between added right := by
  induction left generalizing db diff with
  | nil =>
      cases success
      rfl
  | cons mergeset left ih =>
      simp only [List.cons_append, processMergesets] at success ⊢
      cases step : processMergeset kaspa lastAcceptedBlueScore db diff mergeset with
      | error fault =>
          rw [step] at success
          cases success
      | ok result =>
          rw [step] at success
          exact ih success

theorem processMergesets_known (kaspa : Kaspa) (lastAcceptedBlueScore : ℕ) {db : Db}
    (diff : StatsDiffs) {mergesets : List Mergeset}
    (known : ∀ mergeset ∈ mergesets, (db.chainBlockScores.get
      ⟨mergeset.blueScore, mergeset.acceptedChainBlockHash⟩).isSome) :
    processMergesets kaspa lastAcceptedBlueScore db diff mergesets = .ok (db, diff) := by
  induction mergesets with
  | nil => rfl
  | cons mergeset mergesets ih =>
      have stored := known mergeset List.mem_cons_self
      have skip : processMergeset kaspa lastAcceptedBlueScore db diff mergeset =
          .ok (db, diff) := by
        unfold processMergeset
        split
        · rfl
        · simp only [stored, if_true]
      simp only [processMergesets, skip]
      exact ih fun next member => known next (List.mem_cons_of_mem _ member)

/-- The loop adds mergesets to a database: whatever the tip it compares them with and whatever
was counted before, it ends in one database and adds one list of diffs. -/
structure Adds (kaspa : Kaspa) (db : Db) (mergesets : List Mergeset) (db' : Db)
    (diffs : List StatsDiffs) : Prop where
  consistent : Consistent kaspa db'
  chain : db'.toChainStore = db.toChainStore.acceptAll mergesets
  loop : ∀ lastAcceptedBlueScore diff,
    (∀ mergeset ∈ mergesets, lastAcceptedBlueScore ≤ mergeset.blueScore) →
      processMergesets kaspa lastAcceptedBlueScore db diff mergesets =
        .ok (db', diff.total diffs)

namespace Adds

variable {db middle db' : Db} {mergesets rest : List Mergeset} {diffs more : List StatsDiffs}

theorem refl (consistent : Consistent kaspa db) : Adds kaspa db [] db [] :=
  ⟨consistent, rfl, fun _ _ _ => rfl⟩

theorem trans (first : Adds kaspa db mergesets middle diffs)
    (second : Adds kaspa middle rest db' more) :
    Adds kaspa db (mergesets ++ rest) db' (diffs ++ more) where
  consistent := second.consistent
  chain := by
    rw [second.chain, first.chain, ChainStore.acceptAll, ChainStore.acceptAll,
      ChainStore.acceptAll, List.foldl_append]
  loop := by
    intro lastAcceptedBlueScore diff reached
    rw [processMergesets_append rest (first.loop lastAcceptedBlueScore diff
      fun mergeset member => reached mergeset (List.mem_append_left _ member))]
    rw [second.loop lastAcceptedBlueScore _
      fun mergeset member => reached mergeset (List.mem_append_right _ member)]
    rw [Stats.total_append]

theorem unique (first : Adds kaspa db mergesets middle diffs)
    (second : Adds kaspa db mergesets db' more) :
    middle = db' ∧ ∀ stats : Stats, stats.total diffs = stats.total more := by
  have same : ∀ stats : Stats, (middle, stats.total diffs) = (db', stats.total more) := by
    intro stats
    have left := first.loop 0 stats fun _ _ => Nat.zero_le _
    rw [second.loop 0 stats fun _ _ => Nat.zero_le _] at left
    exact (Except.ok.inj left).symm
  exact ⟨(Prod.mk.inj (same 0)).1, fun stats => (Prod.mk.inj (same stats)).2⟩

end Adds

/-- The first mergeset of a chain is added without a fault, and the rest continues. -/
theorem Continues.adds_head {db : Db} {mergeset : Mergeset} {mergesets : List Mergeset}
    (consistent : Consistent kaspa db)
    (continues : Continues kaspa db.toChainStore (mergeset :: mergesets)) :
    ∃ db' added, processMergeset kaspa 0 db 0 mergeset = .ok (db', 0 + added) ∧
      Adds kaspa db [mergeset] db' [added] ∧ Continues kaspa db'.toChainStore mergesets := by
  have member : mergeset ∈ mergeset :: mergesets := List.mem_cons_self
  obtain ⟨db', added, success, chain, grown⟩ := consistent.processMergeset
    (continues.valid mergeset member) (continues.above mergeset member)
  refine ⟨db', added, success 0 0 (Nat.zero_le _), ⟨grown.consistent, chain, ?_⟩,
    chain ▸ continues.tail⟩
  intro lastAcceptedBlueScore diff reached
  simp only [processMergesets, success lastAcceptedBlueScore diff
    (reached mergeset List.mem_cons_self), Stats.total, List.foldl_cons, List.foldl_nil]

/-- A chain that continues a database is added without a fault. -/
theorem Continues.adds {db : Db} {mergesets : List Mergeset} (consistent : Consistent kaspa db)
    (continues : Continues kaspa db.toChainStore mergesets) :
    ∃ db' diffs, Adds kaspa db mergesets db' diffs := by
  induction mergesets generalizing db with
  | nil => exact ⟨db, [], .refl consistent⟩
  | cons mergeset mergesets ih =>
      obtain ⟨between, added, _, one, later⟩ := continues.adds_head consistent
      obtain ⟨final, diffs, rest⟩ := ih one.consistent later
      exact ⟨final, added :: diffs, one.trans rest⟩

end Loop

/-! One notification. -/

/-- The counters after the diffs of mergesets, if there were any mergesets. -/
def countersAfter (stats : Option Stats) (mergesets : List Mergeset)
    (diffs : List StatsDiffs) : Option Stats :=
  if mergesets.isEmpty then stats else some ((stats.getD 0).total diffs)

/-- Notifications have brought mergesets into a database, each once. -/
def Delivered (kaspa : Kaspa) (start : Db) (mergesets : List Mergeset) (db : Db) : Prop :=
  ∃ base diffs, Adds kaspa start mergesets base diffs ∧
    db = base.withStats (countersAfter start.stats mergesets diffs)

namespace Delivered

variable {kaspa : Kaspa} {start db : Db} {mergesets known fresh : List Mergeset}

theorem refl (consistent : Consistent kaspa start) : Delivered kaspa start [] start :=
  ⟨start, [], .refl consistent, rfl⟩

theorem unique {db' : Db} (first : Delivered kaspa start mergesets db)
    (second : Delivered kaspa start mergesets db') : db = db' := by
  obtain ⟨base, diffs, adds, same⟩ := first
  obtain ⟨base', diffs', adds', same'⟩ := second
  obtain ⟨sameBase, sameTotal⟩ := adds.unique adds'
  subst same same' sameBase
  simp only [countersAfter, sameTotal]

theorem chain (delivered : Delivered kaspa start mergesets db) :
    db.toChainStore = start.toChainStore.acceptAll mergesets := by
  obtain ⟨base, diffs, adds, same⟩ := delivered
  subst same
  exact adds.chain

/-- The mergesets of a batch that are not stored are added, whatever was counted. -/
theorem processAdditions_known {base final : Db} (stats : Option Stats)
    {more : List StatsDiffs} (rest : Adds kaspa base fresh final more)
    (stored : ∀ mergeset ∈ known, (base.chainBlockScores.get
      ⟨mergeset.blueScore, mergeset.acceptedChainBlockHash⟩).isSome)
    (above : ∀ mergeset ∈ fresh, mergeset.Above base.toChainStore) :
    processAdditions kaspa (base.withStats stats) (known ++ fresh) =
      .ok (final.withStats stats, (0 : Stats).total more) := by
  have skipped := processMergesets_known kaspa
    (((base.withStats stats).lastAcceptedBlock.map (·.blueScore)).getD 0) 0
    (show ∀ mergeset ∈ known, ((base.withStats stats).chainBlockScores.get
      ⟨mergeset.blueScore, mergeset.acceptedChainBlockHash⟩).isSome from stored)
  rw [processAdditions, processMergesets_append fresh skipped, processMergesets_withStats,
    rest.loop]
  · rfl
  · intro mergeset member
    cases last : (base.withStats stats).lastAcceptedBlock with
    | none => exact Nat.zero_le _
    | some tip => exact (above mergeset member tip (Partition.lastKey_eq_some_iff.1 last).1).le

/-- The counters that a notification starts from. -/
theorem getD_countersAfter {base : Db} {diffs : List StatsDiffs}
    (adds : Adds kaspa start mergesets base diffs) :
    (countersAfter start.stats mergesets diffs).getD 0 = (start.stats.getD 0).total diffs := by
  unfold countersAfter
  cases mergesets with
  | nil =>
      have loop := adds.loop 0 (start.stats.getD 0) fun _ _ => Nat.zero_le _
      exact (Prod.mk.inj (Except.ok.inj loop)).2
  | cons mergeset mergesets => rfl

/-- The next notification repeats mergesets that were delivered and continues with new ones. -/
theorem next (delivered : Delivered kaspa start mergesets db)
    (fits : (start.stats.getD 0).Fits)
    (repeated : ∀ mergeset ∈ known, mergeset ∈ mergesets)
    (continues : Continues kaspa db.toChainStore fresh) :
    ∃ db', processChainChanges kaspa db (.additions (known ++ fresh)) = (db', .ok ()) ∧
      Delivered kaspa start (mergesets ++ fresh) db' := by
  have chain := delivered.chain
  obtain ⟨base, diffs, adds, same⟩ := delivered
  obtain ⟨final, more, rest⟩ := Continues.adds adds.consistent (same ▸ continues)
  by_cases empty : known ++ fresh = []
  · obtain ⟨noneKnown, noneFresh⟩ := List.append_eq_nil_iff.1 empty
    subst noneKnown noneFresh
    refine ⟨db, rfl, base, diffs, ?_, ?_⟩
    · rw [List.append_nil]
      exact adds
    · rw [List.append_nil]
      exact same
  · have stored : ∀ mergeset ∈ known, (base.chainBlockScores.get
        ⟨mergeset.blueScore, mergeset.acceptedChainBlockHash⟩).isSome := by
      intro mergeset member
      rw [congrArg ChainStore.chainBlockScores adds.chain, ChainStore.isSome_acceptAll]
      exact .inr ⟨mergeset, repeated mergeset member, rfl⟩
    have success := processAdditions_known (countersAfter start.stats mergesets diffs)
      rest stored (same ▸ continues).above
    have counted : (countersAfter start.stats mergesets diffs).getD 0 + (0 : Stats).total more =
        (start.stats.getD 0).total (diffs ++ more) := by
      rw [getD_countersAfter adds, Stats.add_total, (fits.total diffs).add_zero,
        Stats.total_append]
    have occupied : (mergesets ++ fresh).isEmpty = false := by
      rw [List.isEmpty_eq_false_iff]
      intro none
      obtain ⟨noMergesets, noFresh⟩ := List.append_eq_nil_iff.1 none
      subst noMergesets noFresh
      cases known with
      | nil => exact empty rfl
      | cons mergeset known => cases repeated mergeset List.mem_cons_self
    have notEmpty : (known ++ fresh).isEmpty = false := List.isEmpty_eq_false_iff.2 empty
    refine ⟨final.withStats (countersAfter start.stats (mergesets ++ fresh) (diffs ++ more)), ?_,
      final, diffs ++ more, adds.trans rest, rfl⟩
    subst same
    have phase : additionPhase kaspa (base.withStats (countersAfter start.stats mergesets diffs))
        (.additions (known ++ fresh)) = .ok (final.withStats
          (some ((start.stats.getD 0).total (diffs ++ more)))) := by
      rw [additionPhase, VirtualChainChanges.additions, notEmpty]
      simp only [Bool.not_false, if_true, success, Db.statsAddition, counted]
    have after : countersAfter start.stats (mergesets ++ fresh) (diffs ++ more) =
        some ((start.stats.getD 0).total (diffs ++ more)) := by
      simp only [countersAfter, occupied, Bool.false_eq_true, if_false]
    rw [after]
    exact processChainChanges_additions phase

theorem segment {mergesets : List Mergeset} {delivered start : ℕ} (count : ℕ) {first : Db}
    (arrived : Delivered kaspa first (mergesets.take delivered) db)
    (fits : (first.stats.getD 0).Fits)
    (continues : Continues kaspa first.toChainStore mergesets) (reaches : start ≤ delivered) :
    ∃ db', processChainChanges kaspa db (.additions ((mergesets.drop start).take count)) =
      (db', .ok ()) ∧
        Delivered kaspa first (mergesets.take (max delivered (start + count))) db' := by
  -- the segment repeats `old` mergesets and then brings `new` ones
  obtain ⟨old, oldEq⟩ : ∃ old, old = min count (delivered - start) := ⟨_, rfl⟩
  obtain ⟨new, newEq⟩ : ∃ new, new = start + count - delivered := ⟨_, rfl⟩
  have parts : (mergesets.drop start).take count =
      (mergesets.drop start).take old ++ (mergesets.drop delivered).take new := by
    have sum : count = old + new := by omega
    rw [sum, List.take_add, List.drop_drop]
    by_cases none : new = 0
    · rw [none, List.take_zero, List.take_zero]
    · have reached : start + old = delivered := by omega
      rw [reached]
  have arrivals : mergesets.take (max delivered (start + count)) =
      mergesets.take delivered ++ (mergesets.drop delivered).take new := by
    have sum : max delivered (start + count) = delivered + new := by omega
    rw [sum, List.take_add]
  have later : Continues kaspa db.toChainStore ((mergesets.drop delivered).take new) := by
    rw [arrived.chain]
    refine (Continues.append ?_).take new
    rw [List.take_append_drop]
    exact continues
  rw [parts, arrivals]
  refine arrived.next fits (fun mergeset member => ?_) later
  have within : mergeset ∈ (mergesets.drop start).take (delivered - start) :=
    List.take_subset_take_left _ (by omega) member
  rw [← List.drop_take] at within
  exact List.mem_of_mem_drop within

end Delivered

theorem Delivery.run {kaspa : Kaspa} {start db : Db} {chain : List Mergeset}
    {vccs : List VirtualChainChanges} {first last : ℕ} (delivery : Delivery chain first vccs last)
    (fits : (start.stats.getD 0).Fits) (continues : Continues kaspa start.toChainStore chain)
    (arrived : Delivered kaspa start (chain.take first) db) :
    ∃ final, deliver kaspa db vccs = .ok final ∧
      Delivered kaspa start (chain.take last) final := by
  induction delivery generalizing db with
  | done delivered => exact ⟨db, rfl, arrived⟩
  | @segment delivered start' count last rest reaches more ih =>
      obtain ⟨next, success, there⟩ := arrived.segment count fits continues reaches
      obtain ⟨final, run, done⟩ := ih there
      refine ⟨final, ?_, done⟩
      simp only [deliver, success, run]

/-- A delivery of a chain to a reachable database. Every notification succeeds, the database is
the one that a single notification with the delivered mergesets leaves, and a notification that
was delivered before changes nothing. -/
theorem delivery_independent {kaspa : Kaspa} {start : Db} {chain : List Mergeset}
    {vccs : List VirtualChainChanges} {delivered : ℕ} (reachable : UnforkedReachable kaspa start)
    (fits : (start.stats.getD 0).Fits) (continues : Continues kaspa start.toChainStore chain)
    (delivery : Delivery chain 0 vccs delivered) :
    ∃ final, deliver kaspa start vccs = .ok final ∧
      processChainChanges kaspa start (.additions (chain.take delivered)) = (final, .ok ()) ∧
      (chain.length ≤ delivered →
        processChainChanges kaspa start (.additions chain) = (final, .ok ())) ∧
      ∀ first count, first + count ≤ delivered →
        processChainChanges kaspa final (.additions ((chain.drop first).take count)) =
          (final, .ok ()) := by
  have nothing : Delivered kaspa start (chain.take 0) start := .refl reachable.consistent
  obtain ⟨final, run, arrived⟩ := delivery.run fits continues nothing
  have once : processChainChanges kaspa start (.additions (chain.take delivered)) =
      (final, .ok ()) := by
    obtain ⟨single, success, there⟩ := nothing.segment delivered fits continues (le_refl 0)
    rw [Nat.zero_add, Nat.zero_max] at there
    rw [List.drop_zero] at success
    rw [success, arrived.unique there]
  refine ⟨final, run, once, fun whole => ?_, fun first count old => ?_⟩
  · rw [List.take_of_length_le whole] at once
    exact once
  · have reaches : first ≤ delivered := by omega
    obtain ⟨again, success, there⟩ := arrived.segment count fits continues reaches
    have same : max delivered (first + count) = delivered := by omega
    rw [same] at there
    rw [success, arrived.unique there]

namespace Sample

/-- The deployment comes alone, and then again with the sale. -/
theorem delivery : Delivery [deployBlock, saleBlock] 0
    [.additions [deployBlock], .additions [deployBlock, saleBlock]] 2 :=
  @Delivery.segment _ 0 0 1 2 _ (le_refl 0) (@Delivery.segment _ 1 0 2 2 _ (by decide) (.done 2))

theorem chain_continues : Continues kaspa Db.new.toChainStore [deployBlock, saleBlock] where
  valid := chain_valid.valid
  ascending := chain_valid.ascending
  above := by
    intro mergeset _ block stored
    simp [Db.new] at stored

end Sample

theorem delivery_independent_sale : ∃ final,
    deliver Sample.kaspa .new [.additions [Sample.deployBlock],
      .additions [Sample.deployBlock, Sample.saleBlock]] = .ok final ∧
    processChainChanges Sample.kaspa .new
      (.additions [Sample.deployBlock, Sample.saleBlock]) = (final, .ok ()) := by
  obtain ⟨final, run, once, _⟩ :=
    delivery_independent .new .zero Sample.chain_continues Sample.delivery
  exact ⟨final, run, once⟩

end Krc721
