import Krc721.Ingest.ChainSync
import Krc721.Processor.Convergence

/-! The ledger follows the chain of the node. After every processed notification it is what the
mergesets of that chain give from an empty database, up to the last known block. -/

set_option autoImplicit false

namespace Krc721

open OrderedStore Transition

section Notification

variable {kaspa : Kaspa} {adds : Db → List Mergeset → Prop}
variable {removes : Db → List RpcHash → Option ℕ → Prop} {db db' : Db} {vcc : VirtualChainChanges}

/-- What the removal of a notification leaves is what the notification leaves that adds nothing. -/
theorem removalPhase_chain {between : Db} (success : removalPhase kaspa db vcc = .ok between) :
    between.toChainStore = (db.identifyReorgBlocksAndDelete vcc.removedChainBlockHashes
      vcc.forcedRollbackBlueScore).1 := by
  have removal : removalPhase kaspa db { vcc with mergesets := [] } = .ok between := success
  have alone : processChainChangesWtx kaspa db { vcc with mergesets := [] } = .ok between := by
    rw [processChainChangesWtx, removal]
    rfl
  exact processChainChangesWtx_chain alone

/-- A notification that succeeds is a removal and then an addition of a run. -/
theorem UnforkedRun.processChainChanges (run : UnforkedRun kaspa adds removes db)
    (success : processChainChanges kaspa db vcc = (db', .ok ()))
    (removable : removes db vcc.removedChainBlockHashes vcc.forcedRollbackBlueScore)
    (addable : ∀ between : Db, between.toChainStore =
      (db.identifyReorgBlocksAndDelete vcc.removedChainBlockHashes vcc.forcedRollbackBlueScore).1 →
        Admissible kaspa between vcc.mergesets ∧ adds between vcc.mergesets) :
    UnforkedRun kaspa adds removes db' := by
  rw [Krc721.processChainChanges, processChainChangesWtx] at success
  cases removal : removalPhase kaspa db vcc with
  | error fault =>
      simp only [removal] at success
      cases success
  | ok between =>
      obtain ⟨admissible, guarded⟩ := addable between (removalPhase_chain removal)
      have cleared : UnforkedRun kaspa adds removes between := by
        rw [removalPhase] at removal
        split at removal
        · split at removal
          · cases removal
          · rename_i rolledBack
            cases removal
            exact .bookkeeping _ _ (.removal run removable rolledBack)
        · cases removal
          exact run
      simp only [removal] at success
      cases addition : additionPhase kaspa between vcc with
      | error fault =>
          simp only [addition] at success
          cases success
      | ok final =>
          simp only [addition] at success
          cases success
          rw [additionPhase] at addition
          split at addition
          · split at addition
            · cases addition
            · rename_i added
              cases addition
              exact .bookkeeping _ _ (cleared.added admissible guarded added)
          · cases addition
            exact cleared

end Notification

/-! What the blocks of the node contain. -/

/-- Every block of the tree has a valid mergeset of its own. -/
structure BlockTree.Contains (tree : BlockTree) (kaspa : Kaspa)
    (mergesetOf : RpcHash → Mergeset) : Prop where
  block : ∀ {hash block}, block ∈ tree.path hash → (mergesetOf block.blockHash).block = block
  valid : ∀ {hash block}, block ∈ tree.path hash → (mergesetOf block.blockHash).Valid kaspa

namespace BlockTree

variable {tree : BlockTree} {kaspa : Kaspa} {mergesetOf : RpcHash → Mergeset}
variable {tip source : RpcHash} {removed : List RpcHash}

theorem Contains.fits (contains : tree.Contains kaspa mergesetOf) {hash : RpcHash}
    {block : BlueScoredChainBlockHash} (member : block ∈ tree.path hash) :
    kaspa.Fits block.blueScore := by
  have same : (mergesetOf block.blockHash).blueScore = block.blueScore :=
    congrArg BlueScoredChainBlockHash.blueScore (contains.block member)
  have capacity : 0 < kaspa.blockCapacity := Nat.mul_pos kaspa.mergeSetLimit_pos (by decide)
  have valid := (contains.valid member).fits
  rw [same] at valid
  exact (Nat.mul_lt_mul_of_pos_right (Nat.lt_succ_self _) capacity).trans_le valid

theorem Answers.ascending {mergesets : List Mergeset}
    (answers : tree.Answers tip source removed (mergesets.map Mergeset.block)) :
    mergesets.Pairwise fun left right => left.blueScore < right.blueScore := by
  obtain ⟨common, gone, more, _, tipPath, _⟩ := answers
  have grows := tree.grows tip
  rw [tipPath] at grows
  have added := List.pairwise_map.1 (List.pairwise_append.1 (List.pairwise_append.1 grows).2.1).1
  exact added

/-- The blocks of a chain above a start and up to a last block. -/
def between (tree : BlockTree) (start last : BlueScoredChainBlockHash) (tip : RpcHash) :
    List BlueScoredChainBlockHash :=
  (tree.path tip).filter fun block =>
    decide (start.blueScore < block.blueScore) && decide (block.blueScore ≤ last.blueScore)

theorem mem_between {start last block : BlueScoredChainBlockHash} :
    block ∈ tree.between start last tip ↔ block ∈ tree.path tip ∧
      start.blueScore < block.blueScore ∧ block.blueScore ≤ last.blueScore := by
  rw [between, List.mem_filter, Bool.and_eq_true, decide_eq_true_iff, decide_eq_true_iff]

end BlockTree

namespace ChainSync

variable {kaspa : Kaspa} {tree : BlockTree} {mergesetOf : RpcHash → Mergeset}
variable {start : BlueScoredChainBlockHash} {initial state state' : ChainSync}

/-- The reconstruction of an answer gives the mergesets of its blocks. -/
def Delivers (mergesetOf : RpcHash → Mergeset) : Action → Prop
  | .answer _ mergesets _ =>
      ∀ mergeset ∈ mergesets, mergesetOf mergeset.acceptedChainBlockHash = mergeset
  | _ => True

/-- The database is that of a run over the node's blocks, all of them above the start. -/
structure Synced (kaspa : Kaspa) (tree : BlockTree) (mergesetOf : RpcHash → Mergeset)
    (start : BlueScoredChainBlockHash) (state : ChainSync) : Prop
    extends Invariant tree start state where
  hashed : HashedRun kaspa mergesetOf state.db
  stored : ∀ block, state.db.Stores block → start.blueScore < block.blueScore
  known : state.syncer.lastKnownBlock = start ∨
    start.blueScore < state.syncer.lastKnownBlock.blueScore
  delivered : ∀ request, state.request = some request → ∀ mergeset ∈ request.mergesets,
    mergesetOf mergeset.acceptedChainBlockHash = mergeset

namespace Synced

theorem startOnSource (synced : Synced kaspa tree mergesetOf start state) :
    start ∈ tree.path state.syncer.lastKnownBlock.blockHash := by
  rcases synced.known with same | above
  · rw [same]
    exact (BlockTree.isBlock_of_mem synced.startOnTip).mem
  · exact synced.tracks.startOn above

theorem added_above (synced : Synced kaspa tree mergesetOf start state) {request : ChainRequest}
    (pends : state.request = some request) {mergeset : Mergeset}
    (member : mergeset ∈ request.mergesets) : start.blueScore < mergeset.blueScore := by
  have pending := synced.pending request pends
  have onSource := synced.startOnSource
  rw [← pending.source] at onSource
  exact pending.answers.lt_of_added onSource pending.startOnTip (List.mem_map_of_mem member)

/-- What the node answers can be added to what the removal leaves. -/
theorem admissible (synced : Synced kaspa tree mergesetOf start state)
    (contains : tree.Contains kaspa mergesetOf) {request : ChainRequest}
    (pends : state.request = some request)
    (keeps : tree.Keeps start request.source request.sink state.db.toChainStore request.removed
      request.mergesets) {between : Db}
    (cleared : between.toChainStore = (state.db.identifyReorgBlocksAndDelete
      (removedWithForced request.source request.sink request.removed)
      (forcedRollbackBlueScore request.source request.sink request.removed)).1) :
    Admissible kaspa between request.mergesets := by
  have pending := synced.pending request pends
  have tracks := synced.tracks
  rw [← pending.source] at tracks
  refine ⟨⟨?valid, ?ascending⟩, ?unforked⟩
  case valid =>
    intro mergeset member
    have onTip := pending.answers.mem_tip (List.mem_map_of_mem member)
    have valid := contains.valid onTip
    rw [Mergeset.block, synced.delivered request pends mergeset member] at valid
    exact valid
  case ascending => exact pending.answers.ascending
  case unforked =>
    apply Db.Unforked.of_above
    intro mergeset member block isStored
    have unforced : start.blueScore < request.source.blueScore →
        forcedRollbackBlueScore request.source request.sink request.removed = none := by
      intro high
      apply Option.not_isSome_iff_eq_none.1
      intro forced
      have nothing := (keeps high).1 forced
      rw [nothing] at member
      cases member
    have isLeft : between.Stores block := isStored
    rw [cleared] at isLeft
    have above := synced.stored block (ChainStore.stores_of_identified isLeft)
    obtain ⟨onSource, onTip⟩ :=
      (tracks.kept pending.startOnTip pending.answers unforced block above).1 isLeft
    exact pending.answers.lt_of_added onSource onTip (List.mem_map_of_mem member)

/-- A step that leaves the database and the last known block. -/
theorem keep (synced : Synced kaspa tree mergesetOf start state)
    (invariant : Invariant tree start state') (db : state'.db = state.db)
    (known : state'.syncer.lastKnownBlock = state.syncer.lastKnownBlock)
    (delivered : ∀ request, state'.request = some request → ∀ mergeset ∈ request.mergesets,
      mergesetOf mergeset.acceptedChainBlockHash = mergeset) :
    Synced kaspa tree mergesetOf start state' where
  toInvariant := invariant
  hashed := by
    rw [db]
    exact synced.hashed
  stored := by
    rw [db]
    exact synced.stored
  known := by
    rw [known]
    exact synced.known
  delivered := delivered

/-- A processed notification stores blocks of the node that are above the start. -/
theorem process (synced : Synced kaspa tree mergesetOf start state)
    (contains : tree.Contains kaspa mergesetOf) {request : ChainRequest}
    (pends : state.request = some request)
    (keeps : tree.Keeps start request.source request.sink state.db.toChainStore request.removed
      request.mergesets) {db : Db}
    (success : processChainChanges kaspa state.db (historicalChanges request.source request.sink
      request.removed request.mergesets) = (db, .ok ())) :
    HashedRun kaspa mergesetOf db ∧
      ∀ block, db.Stores block → start.blueScore < block.blueScore := by
  constructor
  · apply UnforkedRun.processChainChanges synced.hashed success
    · intro score forced
      obtain ⟨same, _⟩ := forced_of_some forced
      have isBlock := synced.tracks.isBlock
      rw [← (synced.pending request pends).source] at isBlock
      rw [same]
      exact contains.fits isBlock.mem
    · intro between cleared
      exact ⟨synced.admissible contains pends keeps cleared, synced.delivered request pends⟩
  · intro block isStored
    rw [processChainChanges_chain success, ChainStore.applyChanges,
      ChainStore.stores_addBlocks] at isStored
    rcases isStored with left | ⟨mergeset, member, _, same⟩
    · exact synced.stored block (ChainStore.stores_of_identified left)
    · rw [same]
      exact synced.added_above pends member

theorem step (synced : Synced kaspa tree mergesetOf start state)
    (contains : tree.Contains kaspa mergesetOf) {action : Action}
    (honest : Honest tree start state action) (keeps : Keeps tree start state action)
    (delivers : Delivers mergesetOf action) (moved : step kaspa state action = some state') :
    Synced kaspa tree mergesetOf start state' := by
  have invariant := synced.toInvariant.step honest keeps moved
  cases action with
  | chain tip =>
      cases moved
      exact synced.keep invariant rfl rfl synced.delivered
  | other action =>
      rw [ChainSync.step] at moved
      split at moved
      · rename_i isOther
        obtain ⟨syncer, stepped, rfl⟩ := Option.map_eq_some_iff.1 moved
        have known := (Syncer.continues_step isOther stepped).lastKnownBlock
        exact synced.keep invariant rfl known synced.delivered
      · cases moved
  | answer removed mergesets resolved =>
      rw [ChainSync.step] at moved
      split at moved
      · rename_i source sink task
        obtain ⟨syncer, stepped, rfl⟩ := Option.map_eq_some_iff.1 moved
        obtain ⟨known, _⟩ := Syncer.syncStep_historical task stepped
        refine synced.keep invariant rfl known fun request pends => ?_
        cases pends
        exact delivers
      · cases moved
  | process =>
      rw [ChainSync.step] at moved
      split at moved
      · rename_i sink progress lastAdded request task pends
        split at moved
        · obtain ⟨syncer, stepped, rfl⟩ := Option.map_eq_some_iff.1 moved
          have known := (Syncer.continues_syncStep rfl stepped).lastKnownBlock
          exact synced.keep invariant rfl known synced.delivered
        · rename_i db success
          obtain ⟨syncer, stepped, rfl⟩ := Option.map_eq_some_iff.1 moved
          obtain ⟨known, _⟩ := Syncer.syncStep_processed task stepped
          obtain ⟨hashed, stored⟩ := synced.process contains pends (keeps request pends) success
          refine ⟨invariant, hashed, stored, ?_, fun request pends => by cases pends⟩
          simp only
          rw [known]
          have pending := synced.pending request pends
          cases added : lastAdded with
          | some last =>
              right
              rcases pending.lastAdded sink progress lastAdded task with none | isLast
              · rw [none] at added
                cases added
              · rw [added] at isLast
                obtain ⟨mergeset, member, same⟩ :=
                  List.mem_map.1 (List.mem_of_getLast? isLast.symm)
                rw [Option.some_or, Option.getD_some, ← same]
                exact synced.added_above pends member
          | none =>
              rw [Option.none_or]
              cases accepted : db.lastAcceptedBlock with
              | some last =>
                  exact .inr (stored last (ChainStore.lastAcceptedBlock_spec accepted).1)
              | none => exact synced.known
      · cases moved

/-- The stored mergesets are those of the chain of the last notification. -/
theorem mergesets_eq (synced : Synced kaspa tree mergesetOf start state) {tip : RpcHash}
    (isProcessed : state.processed = some tip) :
    state.db.mergesets mergesetOf =
      (tree.between start state.syncer.lastKnownBlock tip).map fun block =>
        mergesetOf block.blockHash := by
  have keys : state.db.chainBlockScores.keys =
      tree.between start state.syncer.lastKnownBlock tip := by
    apply Partition.keys_eq
    · apply (List.Pairwise.filter _ (tree.grows tip)).imp
      intro lower upper less
      exact BlueScoredChainBlockHash.lt_iff.2 (.inl less)
    · intro block
      rw [BlockTree.mem_between]
      constructor
      · intro isStored
        have above := synced.stored block isStored
        obtain ⟨onTip, le⟩ := ((synced.upToDate tip isProcessed).2 block above).1 isStored
        exact ⟨onTip, above, le⟩
      · intro onChain
        obtain ⟨onTip, above, le⟩ := onChain
        exact ((synced.upToDate tip isProcessed).2 block above).2 ⟨onTip, le⟩
  rw [ChainStore.mergesets, keys]

end Synced

/-- Above the start nothing is stored in an empty database. -/
theorem Spawned.invariant (spawned : Spawned tree start initial) (new : initial.db = .new) :
    Invariant tree start initial where
  toAwaits := spawned.waits.toAwaits
  tracks := by
    have isBlock := BlockTree.isBlock_of_mem spawned.startOnTip
    rw [spawned.lastKnownBlock]
    refine ⟨isBlock, fun above => absurd above (Nat.lt_irrefl _), ?_, spawned.scored⟩
    refine (BlockTree.Follows.of_le isBlock le_rfl).2 fun block above isStored => ?_
    rw [new] at isStored
    simp [ChainStore.Stores, Db.new] at isStored
  upToDate := by
    intro tip isProcessed
    rw [spawned.processed] at isProcessed
    cases isProcessed

theorem Spawned.synced (spawned : Spawned tree start initial) (new : initial.db = .new) :
    Synced kaspa tree mergesetOf start initial where
  toInvariant := spawned.invariant new
  hashed := by
    rw [new]
    exact .new
  stored := by
    intro block isStored
    rw [new] at isStored
    simp [ChainStore.Stores, Db.new] at isStored
  known := .inl spawned.lastKnownBlock
  delivered := by
    intro request pends
    rw [spawned.request] at pends
    cases pends

/-- After every processed notification the database of a syncing indexer is what an empty one
becomes of the mergesets of the node's chain, from the start to the last known block. -/
theorem ledger_follows (contains : tree.Contains kaspa mergesetOf)
    (spawned : Spawned tree start initial) (new : initial.db = .new)
    (reach : Reach (ChainSync.step kaspa) (fun state action => Honest tree start state action ∧
      Keeps tree start state action ∧ Delivers mergesetOf action) initial state)
    {tip : RpcHash} (isProcessed : state.processed = some tip) :
    ∃ replayed diff,
      processAdditions kaspa .new ((tree.between start state.syncer.lastKnownBlock tip).map
        fun block => mergesetOf block.blockHash) = .ok (replayed, diff) ∧
      state.db.toLedger = replayed.toLedger ∧ state.db.toChainStore = replayed.toChainStore := by
  have synced : Synced kaspa tree mergesetOf start state :=
    reach.invariant (spawned.synced new) fun _ _ _ synced meets moved =>
      synced.step contains meets.1 meets.2.1 meets.2.2 moved
  obtain ⟨replayed, diff, success, ledger, hashed, blocks⟩ :=
    (HashedRun.rebuilt synced.hashed).replays
  rw [synced.mergesets_eq isProcessed] at success
  have chain := (HashedRun.scored hashed).toWf.eq_of_stores (HashedRun.scored synced.hashed).toWf
    blocks
  exact ⟨replayed, diff, success, ledger.symm, chain.symm⟩

end ChainSync

namespace Sample

/-- Every block of the line has a mergeset without operations. -/
def lineMergesetOf (hash : RpcHash) : Mergeset :=
  if hash < 4 then lineMergeset hash else ⟨[], 0, 0, hash⟩

theorem emptyMergeset_valid {blueScore hash : ℕ} (low : blueScore < 4) :
    Mergeset.Valid kaspa ⟨[], 0, blueScore, hash⟩ where
  within := by simp
  ascending := .nil
  distinct := .nil
  sound := by simp
  fits := by
    have bound : (blueScore + 1) * kaspa.blockCapacity ≤ 4 * kaspa.blockCapacity :=
      Nat.mul_le_mul_right _ low
    exact bound.trans (by decide)

theorem line_contains : line.Contains kaspa lineMergesetOf := by
  have own : ∀ {hash block}, block ∈ line.path hash →
      lineMergesetOf block.blockHash = ⟨[], 0, block.blueScore, block.blockHash⟩ ∧
        block.blueScore < 4 := by
    intro hash block member
    by_cases low : hash < 4
    · have found : ∀ hash < 4, ∀ block ∈ linePath hash,
          lineMergesetOf block.blockHash = ⟨[], 0, block.blueScore, block.blockHash⟩ ∧
            block.blueScore < 4 := by decide
      exact found hash low block member
    · simp only [line, linePath, low, if_false, List.mem_singleton] at member
      subst member
      simp [lineMergesetOf, low]
  constructor
  case block =>
    intro hash block member
    rw [(own member).1]
    rfl
  case valid =>
    intro hash block member
    rw [(own member).1]
    exact emptyMergeset_valid (own member).2

def lineDelivers : ChainSync.Action → Bool
  | .answer _ mergesets _ => mergesets.all fun mergeset =>
      lineMergesetOf mergeset.acceptedChainBlockHash = mergeset
  | _ => true

theorem delivers_of_lineDelivers {action : ChainSync.Action}
    (delivers : lineDelivers action = true) : ChainSync.Delivers lineMergesetOf action := by
  cases action with
  | answer removed mergesets resolved =>
      intro mergeset member
      exact of_decide_eq_true (List.all_eq_true.1 delivers mergeset member)
  | chain tip | process | other action => trivial

end Sample

theorem ChainSync.ledger_follows_growing : ∃ state : ChainSync, state.processed = some 3 ∧
    ∃ replayed diff,
      processAdditions Sample.kaspa .new ((Sample.line.between (Sample.lineBlock 0)
        state.syncer.lastKnownBlock 3).map fun block =>
          Sample.lineMergesetOf block.blockHash) = .ok (replayed, diff) ∧
      state.db.toLedger = replayed.toLedger ∧ state.db.toChainStore = replayed.toChainStore := by
  have ran : ((runActions (ChainSync.step Sample.kaspa) (fun state action =>
      Sample.lineHonest state action && Sample.lineKeeps state action &&
        Sample.lineDelivers action) Sample.lineStart
      (Sample.replaying (some (Sample.lineBlock 3)))).bind (·.processed)) = some 3 := by
    decide +kernel
  obtain ⟨state, run, isProcessed⟩ := Option.bind_eq_some_iff.1 ran
  refine ⟨state, isProcessed, ChainSync.ledger_follows Sample.line_contains
    Sample.lineStart_spawned rfl ?_ isProcessed⟩
  refine (Reach.of_runActions run).mono fun state action meets => ?_
  rw [Bool.and_eq_true, Bool.and_eq_true] at meets
  exact ⟨Sample.honest_of_lineHonest meets.1.1, Sample.keeps_of_lineKeeps meets.1.2,
    Sample.delivers_of_lineDelivers meets.2⟩

end Krc721
