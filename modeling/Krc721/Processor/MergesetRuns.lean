import Krc721.Processor.GuardedRun
import Krc721.Processor.ChainFrame

/-! Guarded runs, one mergeset at a time: what every mergeset of a new block and every removal
keep holds of every database of the run. -/

set_option autoImplicit false

namespace Krc721

open OrderedStore

section Batch

variable {kaspa : Kaspa} {db db' : Db} {mergeset : Mergeset} {mergesets : List Mergeset}

theorem Mergeset.Above.fresh (above : mergeset.Above db.toChainStore) :
    db.chainBlockScores.get mergeset.block = none := by
  rw [← Option.not_isSome_iff_eq_none]
  intro present
  exact lt_irrefl _ (above _ present)

theorem Mergeset.Known.skip {lastAcceptedBlueScore : ℕ} {diff : StatsDiffs}
    (known : mergeset.Known db.toChainStore lastAcceptedBlueScore) :
    processMergeset kaspa lastAcceptedBlueScore db diff mergeset = .ok (db, diff) := by
  unfold processMergeset
  rcases known with low | stored
  · rw [if_pos low]
  · split
    · rfl
    · simp only [stored, if_true]

/-- What the mergesets of new blocks keep, a batch keeps. -/
theorem kept_of_processMergesets (kept : Db → Prop) (consistent : Consistent kaspa db)
    {lastAcceptedBlueScore : ℕ} {diff diff' : StatsDiffs}
    (addable : Addable kaspa db.toChainStore lastAcceptedBlueScore mergesets)
    (step : ∀ {db db' : Db} {diff diff' : StatsDiffs} {mergeset : Mergeset},
      Consistent kaspa db → mergeset ∈ mergesets → mergeset.Valid kaspa →
      mergeset.Above db.toChainStore → lastAcceptedBlueScore ≤ mergeset.blueScore →
      processMergeset kaspa lastAcceptedBlueScore db diff mergeset = .ok (db', diff') →
        kept db → kept db')
    (initially : kept db)
    (success : processMergesets kaspa lastAcceptedBlueScore db diff mergesets =
      .ok (db', diff')) : kept db' := by
  induction mergesets generalizing db diff with
  | nil =>
      cases success
      exact initially
  | cons mergeset mergesets ih =>
      have member : mergeset ∈ mergeset :: mergesets := List.mem_cons_self
      obtain ⟨skipped, accepted⟩ := addable.tail
      by_cases known : mergeset.Known db.toChainStore lastAcceptedBlueScore
      · simp only [Krc721.processMergesets, known.skip] at success
        apply ih consistent skipped _ initially success
        intro db db' diff diff' next earlier inRest
        exact step earlier (List.mem_cons_of_mem _ inRest)
      · have reached : lastAcceptedBlueScore ≤ mergeset.blueScore :=
          not_lt.1 fun low => known (.inl low)
        have above := (addable.placed mergeset member).resolve_left known
        have valid := addable.valid mergeset member
        obtain ⟨between, added, one, chain, grown⟩ := consistent.processMergeset valid above
        have next := step consistent member valid above reached (one _ diff reached) initially
        simp only [Krc721.processMergesets, one _ diff reached] at success
        apply ih grown.consistent (chain ▸ accepted) _ next success
        intro db db' diff diff' later earlier inRest
        exact step earlier (List.mem_cons_of_mem _ inRest)

end Batch

/-- A run whose mergesets all meet a condition. -/
abbrev MergesetRun (kaspa : Kaspa) (adds : Mergeset → Prop)
    (removes : Db → List RpcHash → Option ℕ → Prop) : Db → Prop :=
  UnforkedRun kaspa (fun _ mergesets => ∀ mergeset ∈ mergesets, adds mergeset) removes

/-- What the mergesets of new blocks and the removals keep holds throughout a run. -/
theorem MergesetRun.kept {kaspa : Kaspa} {adds : Mergeset → Prop}
    {removes : Db → List RpcHash → Option ℕ → Prop} {db : Db} (kept : Db → Prop)
    (run : MergesetRun kaspa adds removes db)
    (initially : kept .new)
    (addition : ∀ {db db' : Db} {lastAcceptedBlueScore : ℕ} {diff diff' : StatsDiffs}
      {mergeset : Mergeset}, Consistent kaspa db → adds mergeset → mergeset.Valid kaspa →
      mergeset.Above db.toChainStore → lastAcceptedBlueScore ≤ mergeset.blueScore →
      processMergeset kaspa lastAcceptedBlueScore db diff mergeset = .ok (db', diff') →
        kept db → kept db')
    (removal : ∀ {db db' : Db} {removed : List RpcHash} {forced : Option ℕ} {diff : StatsDiffs},
      MergesetRun kaspa adds removes db →
      removes db removed forced → RolledBack kaspa db removed forced db' →
      processRemoval kaspa db removed forced = .ok (db', diff) → kept db → kept db')
    (bookkeeping : ∀ {db : Db} (stats : Option Stats)
      (notificationQueue : Partition ℕ VirtualChainChanges), kept db →
      kept { db with stats, notificationQueue }) : kept db := by
  induction run with
  | new => exact initially
  | addition earlier batch guarded success ih =>
      obtain ⟨unforked, own⟩ := guarded
      have addable := (Admissible.mk batch unforked).addable
      apply kept_of_processMergesets kept (UnforkedRun.consistent earlier) addable _ ih success
      intro db db' diff diff' mergeset consistent member
      exact addition consistent (own mergeset member)
  | @removal _ _ removed forced _ earlier guarded success ih =>
      obtain ⟨db', diff, same, rolledBack⟩ :=
        (UnforkedRun.consistent earlier).processRemoval removed forced
      rw [success] at same
      cases same
      exact removal earlier guarded rolledBack success ih
  | bookkeeping stats notificationQueue earlier ih => exact bookkeeping _ _ ih

end Krc721
