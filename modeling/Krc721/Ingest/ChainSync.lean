import Krc721.Ingest.SelectedChain
import Krc721.Ingest.SyncTask

/-! The loop of the sync task with the node and the database: the node's chain grows and
reorganizes between the calls, an answer is about the chain of its call, and a notification is
processed later. -/

set_option autoImplicit false

namespace Krc721

def forcedRollbackBlueScore (source sink : BlueScoredChainBlockHash) (removed : List RpcHash) :
    Option ℕ :=
  if sink.blueScore ≤ source.blueScore ∧ source.blockHash ≠ sink.blockHash ∧
      source.blockHash ∉ removed then
    some source.blueScore
  else none

/-- The notification that the sync task makes of an answer. -/
def historicalChanges (source sink : BlueScoredChainBlockHash) (removed : List RpcHash)
    (mergesets : List Mergeset) : VirtualChainChanges where
  removedChainBlockHashes := removedWithForced source sink removed
  forcedRollbackBlueScore := forcedRollbackBlueScore source sink removed
  mergesets := mergesets

theorem removedWithForced_of_none {source sink : BlueScoredChainBlockHash} {removed : List RpcHash}
    (unforced : forcedRollbackBlueScore source sink removed = none) :
    removedWithForced source sink removed = removed := by
  unfold forcedRollbackBlueScore at unforced
  unfold removedWithForced
  split at unforced
  · cases unforced
  · rename_i unmet
    rw [if_neg unmet]

theorem forced_of_some {source sink : BlueScoredChainBlockHash} {removed : List RpcHash}
    {score : ℕ} (forced : forcedRollbackBlueScore source sink removed = some score) :
    score = source.blueScore ∧ source.blockHash ∉ removed ∧
      removedWithForced source sink removed = removed ++ [source.blockHash] := by
  unfold forcedRollbackBlueScore at forced
  unfold removedWithForced
  split at forced
  · rename_i met
    rw [if_pos met]
    exact ⟨(Option.some.inj forced).symm, met.2.2, rfl⟩
  · cases forced

namespace BlockTree

variable {tree : BlockTree} {tip : RpcHash} {start source sink block : BlueScoredChainBlockHash}
variable {chain : ChainStore} {removed : List RpcHash} {mergesets : List Mergeset}
variable {lastAdded : Option BlueScoredChainBlockHash}

/-- The stored blocks follow the last known block, which may have left the chain. -/
structure Tracks (tree : BlockTree) (start last : BlueScoredChainBlockHash) (chain : ChainStore) :
    Prop where
  isBlock : tree.IsBlock last
  startOn : start.blueScore < last.blueScore → start ∈ tree.path last.blockHash
  follows : tree.Follows start last chain
  scored : chain.Scored tree.scoreOf

/-- What an answer has to be like for a notification made of it to lose no block. A forced rollback
adds nothing, and a notification that adds nothing leaves a stored block. -/
def Keeps (tree : BlockTree) (start source sink : BlueScoredChainBlockHash) (chain : ChainStore)
    (removed : List RpcHash) (mergesets : List Mergeset) : Prop :=
  start.blueScore < source.blueScore →
    ((forcedRollbackBlueScore source sink removed).isSome → mergesets = []) ∧
    (mergesets = [] → ∃ block, chain.Stores block ∧
      ∀ hash ∈ removedWithForced source sink removed, block.blueScore < tree.scoreOf hash)

/-- What the first answer that is processed has to be like. Unless a rollback is forced, what is
already stored above the start is what it adds, up to a blue score. -/
def Resumes (start source sink : BlueScoredChainBlockHash) (chain : ChainStore)
    (removed : List RpcHash) (mergesets : List Mergeset) : Prop :=
  forcedRollbackBlueScore source sink removed = none →
    ∃ score, ∀ block : BlueScoredChainBlockHash, start.blueScore < block.blueScore →
      (chain.Stores block ↔ block ∈ mergesets.map Mergeset.block ∧ block.blueScore ≤ score)

/-- The blocks that a removal leaves above the start, unless it is forced there. -/
theorem Tracks.kept (tracks : tree.Tracks start source chain) (startOnTip : start ∈ tree.path tip)
    (answers : tree.Answers tip source.blockHash removed (mergesets.map Mergeset.block))
    (unforced : start.blueScore < source.blueScore →
      forcedRollbackBlueScore source sink removed = none)
    (block : BlueScoredChainBlockHash) (above : start.blueScore < block.blueScore) :
    (chain.identifyReorgBlocksAndDelete (removedWithForced source sink removed)
      (forcedRollbackBlueScore source sink removed)).1.Stores block ↔
        block ∈ tree.path source.blockHash ∧ block ∈ tree.path tip := by
  by_cases high : start.blueScore < source.blueScore
  · rw [removedWithForced_of_none (unforced high), unforced high]
    exact stores_identified answers rfl tracks.scored tracks.follows (tracks.startOn high)
      startOnTip above
  · have nothing := (Follows.of_le tracks.isBlock (Nat.le_of_not_lt high)).1 tracks.follows
    constructor
    · intro stored
      exact absurd (ChainStore.stores_of_identified stored) (nothing block above)
    · rintro ⟨onSource, _⟩
      exact absurd ((tracks.follows block above).2 onSource) (nothing block above)

/-- A removal leaves the block that the condition names. -/
theorem Tracks.exists_left (tracks : tree.Tracks start source chain)
    (sink : BlueScoredChainBlockHash) (isStored : chain.Stores block)
    (low : ∀ hash ∈ removedWithForced source sink removed, block.blueScore < tree.scoreOf hash) :
    ∃ last, (chain.identifyReorgBlocksAndDelete (removedWithForced source sink removed)
      (forcedRollbackBlueScore source sink removed)).1.lastAcceptedBlock = some last := by
  refine @ChainStore.exists_lastAcceptedBlock _ block ?_
  cases removals : removedWithForced source sink removed with
  | nil =>
      cases forced : forcedRollbackBlueScore source sink removed with
      | none => exact isStored
      | some score =>
          have appended := (forced_of_some forced).2.2
          rw [removals] at appended
          exact absurd appended.symm (List.append_ne_nil_of_right_ne_nil _ (by simp))
  | cons first rest =>
      have bound := low first (by rw [removals]; exact List.mem_cons_self)
      rw [← removals]
      refine tracks.scored.toWf.stores_identified_of_lt (bound.trans_le (scoreOf_le first)) isStored
        ?_ ?_
      · intro hash member score found
        rw [← tracks.scored.scored found]
        exact low hash member
      · intro score forced
        obtain ⟨rfl, _, appended⟩ := forced_of_some forced
        rw [← isBlock_iff.1 tracks.isBlock]
        exact low source.blockHash (by rw [appended]; simp)

/-- A forced rollback leaves the chain in front of the last known block. -/
theorem Tracks.kept_forced (tracks : tree.Tracks start source chain) {score : ℕ}
    (answers : tree.Answers tip source.blockHash removed (mergesets.map Mergeset.block))
    (forced : forcedRollbackBlueScore source sink removed = some score)
    (block : BlueScoredChainBlockHash) (above : start.blueScore < block.blueScore) :
    (chain.identifyReorgBlocksAndDelete (removedWithForced source sink removed)
      (forcedRollbackBlueScore source sink removed)).1.Stores block ↔
        block ∈ tree.path source.blockHash ∧ block.blueScore < source.blueScore := by
  obtain ⟨rfl, unremoved, appended⟩ := forced_of_some forced
  have nothing := (answers.onTip tracks.isBlock unremoved).1
  rw [appended, forced, nothing]
  exact stores_identified_forced tracks.isBlock tracks.scored tracks.follows above

/-- A notification that adds nothing goes back to a block on both chains. -/
theorem Tracks.reaches_removal (tracks : tree.Tracks start source chain)
    (startOnTip : start ∈ tree.path tip) (answers : tree.Answers tip source.blockHash removed [])
    {last : BlueScoredChainBlockHash}
    (accepted : (chain.identifyReorgBlocksAndDelete (removedWithForced source sink removed)
      (forcedRollbackBlueScore source sink removed)).1.lastAcceptedBlock = some last) :
    tree.Reaches start tip last (chain.identifyReorgBlocksAndDelete
      (removedWithForced source sink removed) (forcedRollbackBlueScore source sink removed)).1 := by
  have scored := tracks.scored.identified (removedWithForced source sink removed)
    (forcedRollbackBlueScore source sink removed)
  have answers' : tree.Answers tip source.blockHash removed
      (([] : List Mergeset).map Mergeset.block) := answers
  cases forced : forcedRollbackBlueScore source sink removed with
  | none =>
      rw [forced] at accepted scored
      have kept := tracks.kept startOnTip answers' fun _ => forced
      rw [forced] at kept
      refine reaches_of_kept scored accepted (fun block above => (kept block above).1) ?_
      intro block other above le onSource stored
      have both := (kept other (above.trans_le le)).1 stored
      have upTo := (mem_path_iff both.1).2 ⟨onSource, le⟩
      exact (kept block above).2 ⟨onSource, ((mem_path_iff both.2).1 upTo).1⟩
  | some score =>
      have unremoved := (forced_of_some forced).2.1
      have kept := tracks.kept_forced answers' forced
      rw [forced] at accepted scored kept
      generalize (chain.identifyReorgBlocksAndDelete _ _).1 = cleared at accepted scored kept ⊢
      have shared := (answers.onTip tracks.isBlock unremoved).2
      have onBoth : ∀ block : BlueScoredChainBlockHash, start.blueScore < block.blueScore →
          cleared.Stores block →
            block ∈ tree.path source.blockHash ∧ block ∈ tree.path tip := by
        intro block above stored
        have onSource := ((kept block above).1 stored).1
        exact ⟨onSource, shared block onSource⟩
      refine reaches_of_kept scored accepted onBoth fun block other above le onSource stored => ?_
      have below := ((kept other (above.trans_le le)).1 stored).2
      exact (kept block above).2 ⟨onSource, le.trans_lt below⟩

/-- A notification after which the blocks up to the next last known block are stored. -/
theorem Tracks.reaches_applyChanges (tracks : tree.Tracks start source chain)
    (startOnTip : start ∈ tree.path tip)
    (answers : tree.Answers tip source.blockHash removed (mergesets.map Mergeset.block))
    (isAdded : lastAdded = none ∨ lastAdded = (mergesets.map Mergeset.block).getLast?)
    (keeps : tree.Keeps start source sink chain removed mergesets) :
    tree.Reaches start tip ((lastAdded.or (chain.applyChanges
      (historicalChanges source sink removed mergesets)).lastAcceptedBlock).getD source)
      (chain.applyChanges (historicalChanges source sink removed mergesets)) := by
  have scored := tracks.scored.identified (removedWithForced source sink removed)
    (forcedRollbackBlueScore source sink removed)
  cases isLast : (mergesets.map Mergeset.block).getLast? with
  | none =>
      have empty : mergesets = [] := List.map_eq_nil_iff.1 (List.getLast?_eq_none_iff.1 isLast)
      subst empty
      have unadded : lastAdded = none := isAdded.elim id fun same => same.trans isLast
      subst unadded
      have removal : chain.applyChanges (historicalChanges source sink removed []) =
          (chain.identifyReorgBlocksAndDelete (removedWithForced source sink removed)
            (forcedRollbackBlueScore source sink removed)).1 := rfl
      rw [removal, Option.none_or]
      cases accepted : (chain.identifyReorgBlocksAndDelete (removedWithForced source sink removed)
          (forcedRollbackBlueScore source sink removed)).1.lastAcceptedBlock with
      | some last => exact tracks.reaches_removal startOnTip answers accepted
      | none =>
          -- then the last known block stays, so it must not be above the start
          have low : source.blueScore ≤ start.blueScore := by
            refine Nat.le_of_not_lt fun high => ?_
            obtain ⟨block, isStored, least⟩ := (keeps high).2 rfl
            obtain ⟨last, left⟩ := tracks.exists_left sink isStored least
            rw [accepted] at left
            cases left
          refine .of_le tracks.isBlock low fun block above stored => ?_
          have nothing := (Follows.of_le tracks.isBlock low).1 tracks.follows
          exact nothing block above (ChainStore.stores_of_identified stored)
  | some last =>
      have unforced : start.blueScore < source.blueScore →
          forcedRollbackBlueScore source sink removed = none := by
        intro high
        refine Option.not_isSome_iff_eq_none.1 fun forced => ?_
        rw [(keeps high).1 forced] at isLast
        cases isLast
      have stores : ∀ block : BlueScoredChainBlockHash, start.blueScore < block.blueScore → _ :=
        fun _ above => stores_addBlocks_of_answers answers
          (tracks.kept startOnTip answers unforced) above
      refine reaches_of_added answers isLast (scored.addBlocks fun mergeset member => ?_)
        tracks.isBlock tracks.startOn startOnTip stores ?_
      · have onTip := answers.mem_tip (List.mem_map_of_mem member)
        exact isBlock_iff.1 (isBlock_of_mem onTip)
      · rcases isAdded with rfl | rfl
        · exact .inr rfl
        · left
          rw [isLast]
          rfl

/-- The first removal leaves what the answer adds, up to a blue score. -/
theorem Resumes.cleared (resumes : Resumes start start sink chain [] mergesets)
    (isBlock : tree.IsBlock start) (scored : chain.Scored tree.scoreOf) :
    ∃ score, ∀ block : BlueScoredChainBlockHash, start.blueScore < block.blueScore →
      ((chain.identifyReorgBlocksAndDelete (removedWithForced start sink [])
        (forcedRollbackBlueScore start sink [])).1.Stores block ↔
          block ∈ mergesets.map Mergeset.block ∧ block.blueScore ≤ score) := by
  cases forced : forcedRollbackBlueScore start sink [] with
  | none =>
      rw [removedWithForced_of_none forced]
      exact resumes forced
  | some score =>
      obtain ⟨rfl, _, appended⟩ := forced_of_some forced
      have cut := @ChainStore.Wf.identifyReorgBlocksAndDelete chain [start.blockHash]
        (some start.blueScore) scored.toWf start.blueScore (tree.bounded isBlock.mem) (by
          intro hash member score found
          rw [List.mem_singleton.1 member] at found
          rw [← scored.scored found, isBlock_iff.1 isBlock])
        (fun score same => (Option.some.inj same).le) (.inr rfl)
      refine ⟨start.blueScore, fun block above => iff_of_false ?_ ?_⟩
      · rw [appended, List.nil_append, cut, ChainStore.stores_below]
        exact fun below => absurd below.2 (Nat.not_lt.2 above.le)
      · exact fun low => absurd low.2 (Nat.not_le.2 above)

/-- Added to their own front, the added blocks are stored. -/
theorem stores_addBlocks_of_front {score : ℕ}
    (front : ∀ block : BlueScoredChainBlockHash, start.blueScore < block.blueScore →
      (chain.Stores block ↔ block ∈ mergesets.map Mergeset.block ∧ block.blueScore ≤ score))
    (above : start.blueScore < block.blueScore) :
    (chain.addBlocks ((chain.lastAcceptedBlock.map (·.blueScore)).getD 0) mergesets).Stores block ↔
      block ∈ mergesets.map Mergeset.block := by
  rw [ChainStore.stores_addBlocks, front block above]
  constructor
  · intro isStored
    rcases isStored with ⟨member, _⟩ | ⟨mergeset, member, _, rfl⟩
    · exact member
    · exact List.mem_map_of_mem member
  · intro isAdded
    obtain ⟨mergeset, member, rfl⟩ := List.mem_map.1 isAdded
    rcases le_or_gt ((chain.lastAcceptedBlock.map (·.blueScore)).getD 0)
      mergeset.blueScore with reached | low
    · exact .inr ⟨mergeset, member, reached, rfl⟩
    · -- the stored tip is an added block from below the score
      refine .inl ⟨isAdded, ?_⟩
      cases accepted : chain.lastAcceptedBlock with
      | none =>
          rw [accepted] at low
          exact absurd low (Nat.not_lt_zero _)
      | some tipBlock =>
          rw [accepted] at low
          have less : mergeset.block.blueScore < tipBlock.blueScore := low
          have isStored := (ChainStore.lastAcceptedBlock_spec accepted).1
          exact less.le.trans ((front tipBlock (above.trans less)).1 isStored).2

/-- The first processed notification, from whatever is stored. -/
theorem Resumes.reaches (resumes : Resumes start start sink chain removed mergesets)
    (scored : chain.Scored tree.scoreOf) (startOnTip : start ∈ tree.path tip)
    (answers : tree.Answers tip start.blockHash removed (mergesets.map Mergeset.block))
    (isAdded : lastAdded = none ∨ lastAdded = (mergesets.map Mergeset.block).getLast?) :
    tree.Reaches start tip ((lastAdded.or (chain.applyChanges
      (historicalChanges start sink removed mergesets)).lastAcceptedBlock).getD start)
      (chain.applyChanges (historicalChanges start sink removed mergesets)) := by
  have isBlock := isBlock_of_mem startOnTip
  have unremoved := answers.removed_eq_nil startOnTip
  subst unremoved
  obtain ⟨score, cleared⟩ := resumes.cleared isBlock scored
  have left := scored.identified (removedWithForced start sink [])
    (forcedRollbackBlueScore start sink [])
  rw [ChainStore.applyChanges, historicalChanges]
  generalize (chain.identifyReorgBlocksAndDelete (removedWithForced start sink [])
    (forcedRollbackBlueScore start sink [])).1 = cleared' at cleared left ⊢
  have added : ∀ mergeset ∈ mergesets,
      tree.scoreOf mergeset.acceptedChainBlockHash = mergeset.blueScore := fun mergeset member =>
    isBlock_iff.1 (isBlock_of_mem (answers.mem_tip (List.mem_map_of_mem member)))
  cases isLast : (mergesets.map Mergeset.block).getLast? with
  | none =>
      have empty : mergesets = [] := List.map_eq_nil_iff.1 (List.getLast?_eq_none_iff.1 isLast)
      subst empty
      have unadded : lastAdded = none := isAdded.elim id fun same => same.trans isLast
      subst unadded
      have nothing : ∀ block : BlueScoredChainBlockHash, start.blueScore < block.blueScore →
          ¬ cleared'.Stores block := by
        intro block above isStored
        cases ((cleared block above).1 isStored).1
      rw [Option.none_or]
      change tree.Reaches start tip (cleared'.lastAcceptedBlock.getD start) cleared'
      cases accepted : cleared'.lastAcceptedBlock with
      | none => exact .of_le isBlock le_rfl nothing
      | some last =>
          refine .of_le (isBlock_of_lastAcceptedBlock left accepted)
            (Nat.le_of_not_lt fun high => ?_) nothing
          exact nothing last high (ChainStore.lastAcceptedBlock_spec accepted).1
  | some last =>
      refine reaches_of_added answers isLast (left.addBlocks added) isBlock (fun _ => isBlock.mem)
        startOnTip (fun block above => (stores_addBlocks_of_front cleared above).trans ?_) ?_
      · refine (or_iff_right fun shared => ?_).symm
        exact absurd (le_of_mem isBlock shared.1) (Nat.not_le.2 above)
      · rcases isAdded with rfl | rfl
        · exact .inr rfl
        · left
          rw [isLast]
          rfl

end BlockTree

/-! The run. Only the sync task sends notifications to the processor. -/

/-- An answer that is being processed, with the node's chain at its call. -/
structure ChainRequest where
  tip : RpcHash
  source : BlueScoredChainBlockHash
  sink : BlueScoredChainBlockHash
  removed : List RpcHash
  mergesets : List Mergeset

/-- The syncer, the database and the node's chain. `processed` is the chain that the last processed
notification was about. -/
structure ChainSync where
  syncer : Syncer
  db : Db
  tip : RpcHash
  request : Option ChainRequest := none
  processed : Option RpcHash := none

namespace ChainSync

/-- The node's chain changes, it answers `get_historical_data`, the processor is done with a
notification, or the syncer goes on otherwise. `resolved` says that the last added block was
read. -/
inductive Action where
  | chain (tip : RpcHash)
  | answer (removed : List RpcHash) (mergesets : List Mergeset) (resolved : Bool)
  | process
  | other (action : Syncer.Action)

/-- The steps of the syncer that have no action of their own. A failed call or a failed
reconstruction is one of them. -/
def isOther : Syncer.Action → Bool
  | .syncTask (.historical (some _)) | .syncTask (.processed (.ok _)) => false
  | _ => true

def step (kaspa : Kaspa) (state : ChainSync) : Action → Option ChainSync
  | .chain tip => some { state with tip }
  | .answer removed mergesets resolved =>
      match state.syncer.syncTask with
      | .fetching source sink =>
          let added := mergesets.map Mergeset.block
          (state.syncer.syncStep (.historical (some {
            removedChainBlockHashes := removed
            addedChainBlockHashes := added.map (·.blockHash)
            lastAddedChainBlock := if resolved then added.getLast? else none }))).map
              fun syncer => { state with
                syncer
                request := some ⟨state.tip, source, sink, removed, mergesets⟩ }
      | _ => none
  | .process =>
      match state.syncer.syncTask, state.request with
      | .applying _ _ _, some request =>
          match processChainChanges kaspa state.db (historicalChanges request.source request.sink
              request.removed request.mergesets) with
          | (_, .error _) =>
              (state.syncer.syncStep (.processed (.error ()))).map
                fun syncer => { state with syncer }
          | (db, .ok ()) =>
              (state.syncer.syncStep (.processed (.ok db.lastAcceptedBlock))).map
                fun syncer => { state with
                  syncer
                  db
                  request := none
                  processed := some request.tip }
      | _, _ => none
  | .other action =>
      if isOther action then
        (state.syncer.step action).map fun syncer => { state with syncer }
      else none

/-- The node does what it promises. The start stays on its chain. -/
def Honest (tree : BlockTree) (start : BlueScoredChainBlockHash) (state : ChainSync) :
    Action → Prop
  | .chain tip => start ∈ tree.path tip
  | .answer removed mergesets _ => ∀ source sink, state.syncer.syncTask = .fetching source sink →
      tree.Answers state.tip source.blockHash removed (mergesets.map Mergeset.block)
  | .other (.syncTask (.sink (some sink))) => (tree.path state.tip).getLast? = some sink
  | .process | .other _ => True

/-- A notification that is processed keeps the blocks it does not replace. -/
def Keeps (tree : BlockTree) (start : BlueScoredChainBlockHash) (state : ChainSync) :
    Action → Prop
  | .process => ∀ request, state.request = some request →
      tree.Keeps start request.source request.sink state.db.toChainStore request.removed
        request.mergesets
  | _ => True

/-- The first notification that is processed goes on with what is stored. -/
def Resumes (start : BlueScoredChainBlockHash) (state : ChainSync) : Action → Prop
  | .process => state.processed = none → ∀ request, state.request = some request →
      BlockTree.Resumes start request.source request.sink state.db.toChainStore request.removed
        request.mergesets
  | _ => True

/-- The syncer is spawned with a block of the chain, over any database of the node's blocks. -/
structure Spawned (tree : BlockTree) (start : BlueScoredChainBlockHash) (state : ChainSync) :
    Prop where
  syncTask : state.syncer.syncTask = .starting
  lastKnownBlock : state.syncer.lastKnownBlock = start
  startOnTip : start ∈ tree.path state.tip
  scored : state.db.toChainStore.Scored tree.scoreOf
  request : state.request = none
  processed : state.processed = none

/-- After a processed notification the blocks above the start are those of the chain it was about,
up to the last known block. -/
def UpToDate (tree : BlockTree) (start : BlueScoredChainBlockHash) (state : ChainSync) : Prop :=
  ∀ tip, state.processed = some tip →
    (start.blueScore < state.syncer.lastKnownBlock.blueScore →
      state.syncer.lastKnownBlock ∈ tree.path tip) ∧
    ∀ block, start.blueScore < block.blueScore → (state.db.toChainStore.Stores block ↔
      block ∈ tree.path tip ∧ block.blueScore ≤ state.syncer.lastKnownBlock.blueScore)

end ChainSync

/-! What the other steps of the syncer leave alone. -/

namespace Syncer

/-- The last known block stays, a fetch starts at it, and no notification is sent. -/
structure Continues (syncer syncer' : Syncer) : Prop where
  lastKnownBlock : syncer'.lastKnownBlock = syncer.lastKnownBlock
  fetching : ∀ source sink, syncer'.syncTask = .fetching source sink →
    syncer.syncTask = .fetching source sink ∨ source = syncer.lastKnownBlock
  applying : ∀ sink progress lastAdded, syncer'.syncTask = .applying sink progress lastAdded →
    syncer.syncTask = .applying sink progress lastAdded

variable {syncer syncer' : Syncer}

theorem continues_syncStep {reply : Reply} (other : ChainSync.isOther (.syncTask reply) = true)
    (moved : syncer.syncStep reply = some syncer') : syncer.Continues syncer' := by
  unfold syncStep at moved
  cases task : syncer.syncTask with
  | looping sink =>
      cases reply with
      | none =>
          simp only [task] at moved
          split at moved
          · cases moved
            exact ⟨rfl, nofun, nofun⟩
          · cases moved
            refine ⟨rfl, fun source sink same => ?_, nofun⟩
            cases same
            exact .inr rfl
      | _ => simp [task] at moved
  | fetching source sink =>
      cases reply with
      | historical answer =>
          cases answer with
          | none =>
              simp only [task, Option.some.injEq] at moved
              subst moved
              exact ⟨rfl, nofun, nofun⟩
          | some answer => cases other
      | _ => simp [task] at moved
  | applying sink progress lastAdded =>
      cases reply with
      | processed answer =>
          cases answer with
          | error fault =>
              simp only [task, Option.some.injEq] at moved
              subst moved
              exact ⟨rfl, nofun, nofun⟩
          | ok lastAccepted => cases other
      | _ => simp [task] at moved
  | starting =>
      cases reply with
      | sink answer =>
          cases answer with
          | none =>
              simp only [task, Option.some.injEq] at moved
              subst moved
              exact ⟨rfl, fun _ _ => .inl, fun _ _ _ => id⟩
          | some sink =>
              simp only [task, Option.some.injEq] at moved
              subst moved
              exact ⟨rfl, nofun, nofun⟩
      | _ => simp [task] at moved
  | _ =>
      simp only [task] at moved
      repeat' split at moved
      all_goals cases moved
      all_goals exact ⟨rfl, nofun, nofun⟩

theorem continues_step {action : Action} (other : ChainSync.isOther action = true)
    (moved : syncer.step action = some syncer') : syncer.Continues syncer' := by
  cases action with
  | virtualChainChanged sink | disconnected =>
      cases moved
      exact ⟨rfl, fun _ _ => .inl, fun _ _ _ => id⟩
  | syncTask reply => exact continues_syncStep other moved
  | handler index =>
      rw [step] at moved
      split at moved
      · cases moved
      · rename_i handler _
        cases moved
        cases handler with
        | spawning =>
            dsimp only
            split
            · exact ⟨rfl, fun _ _ => .inl, fun _ _ _ => id⟩
            · exact ⟨rfl, nofun, nofun⟩
        | notified | flagging | switching _ | unsyncing _ | targeting | releasing =>
            exact ⟨rfl, fun _ _ => .inl, fun _ _ _ => id⟩

/-- An answer leaves the last known block, and its last block is the one it was told. -/
theorem syncStep_historical {source sink : BlueScoredChainBlockHash} {answer : HistoricalData}
    (task : syncer.syncTask = .fetching source sink)
    (moved : syncer.syncStep (.historical (some answer)) = some syncer') :
    syncer'.lastKnownBlock = syncer.lastKnownBlock ∧ (∀ source sink,
      syncer'.syncTask ≠ .fetching source sink) ∧ ∀ sink progress lastAdded,
        syncer'.syncTask = .applying sink progress lastAdded →
          lastAdded = answer.lastAddedChainBlock := by
  simp only [syncStep, task] at moved
  split at moved
  · cases moved
    exact ⟨rfl, nofun, nofun⟩
  · cases moved
    refine ⟨rfl, nofun, fun _ _ lastAdded same => ?_⟩
    cases same
    rfl

/-- A processed notification moves the last known block to the last added or the tip, if any. -/
theorem syncStep_processed {sink : BlueScoredChainBlockHash} {progress : TargetProgress}
    {lastAdded lastAccepted : Option BlueScoredChainBlockHash}
    (task : syncer.syncTask = .applying sink progress lastAdded)
    (moved : syncer.syncStep (.processed (.ok lastAccepted)) = some syncer') :
    syncer'.lastKnownBlock = (lastAdded.or lastAccepted).getD syncer.lastKnownBlock ∧
      (∀ source sink, syncer'.syncTask ≠ .fetching source sink) ∧
      ∀ sink progress lastAdded, syncer'.syncTask ≠ .applying sink progress lastAdded := by
  simp only [syncStep, task] at moved
  split at moved
  · rename_i nothing
    cases moved
    exact ⟨by rw [nothing]; rfl, nofun, nofun⟩
  · rename_i block found
    cases moved
    refine ⟨by rw [found]; rfl, ?_, ?_⟩ <;> cases progress <;> exact nofun

end Syncer

/-! The run. -/

namespace ChainSync

open Transition

variable {kaspa : Kaspa} {tree : BlockTree} {start : BlueScoredChainBlockHash}
variable {initial state state' : ChainSync}

/-- The request is about the last known block and keeps its promise; the last added block that the
task remembers is its last one. -/
structure Pending (tree : BlockTree) (start : BlueScoredChainBlockHash) (state : ChainSync)
    (request : ChainRequest) : Prop where
  source : request.source = state.syncer.lastKnownBlock
  startOnTip : start ∈ tree.path request.tip
  answers : tree.Answers request.tip request.source.blockHash request.removed
    (request.mergesets.map Mergeset.block)
  lastAdded : ∀ sink progress lastAdded,
    state.syncer.syncTask = .applying sink progress lastAdded →
      lastAdded = none ∨ lastAdded = (request.mergesets.map Mergeset.block).getLast?

/-- What holds from the spawn on, whatever is stored. -/
structure Awaits (tree : BlockTree) (start : BlueScoredChainBlockHash) (state : ChainSync) :
    Prop where
  startOnTip : start ∈ tree.path state.tip
  scored : state.db.toChainStore.Scored tree.scoreOf
  fetching : ∀ source sink, state.syncer.syncTask = .fetching source sink →
    source = state.syncer.lastKnownBlock
  pending : ∀ request, state.request = some request → Pending tree start state request

/-- A step that leaves the stored blocks, the last known block and what was processed. -/
structure Leaves (state state' : ChainSync) : Prop where
  chain : state'.db.toChainStore = state.db.toChainStore
  lastKnownBlock : state'.syncer.lastKnownBlock = state.syncer.lastKnownBlock
  processed : state'.processed = state.processed

/-- A notification is processed, and the last known block goes to the last block that it added or
else to the stored tip. -/
structure Processes (kaspa : Kaspa) (state : ChainSync) (request : ChainRequest)
    (lastAdded : Option BlueScoredChainBlockHash) (state' : ChainSync) : Prop where
  pends : state.request = some request
  isAdded : lastAdded = none ∨ lastAdded = (request.mergesets.map Mergeset.block).getLast?
  success : processChainChanges kaspa state.db (historicalChanges request.source request.sink
    request.removed request.mergesets) = (state'.db, .ok ())
  lastKnownBlock : state'.syncer.lastKnownBlock =
    (lastAdded.or state'.db.lastAcceptedBlock).getD state.syncer.lastKnownBlock
  processed : state'.processed = some request.tip

/-- A failed call, a notification or a step of a handler leaves everything in place. -/
theorem Awaits.continues (awaits : Awaits tree start state) {syncer : Syncer}
    (continues : state.syncer.Continues syncer) : Awaits tree start { state with syncer } where
  startOnTip := awaits.startOnTip
  scored := awaits.scored
  fetching source sink task := by
    rw [continues.lastKnownBlock]
    exact (continues.fetching source sink task).elim (awaits.fetching source sink) id
  pending request pends := by
    have pending := awaits.pending request pends
    refine ⟨?_, pending.startOnTip, pending.answers, fun sink progress lastAdded task => ?_⟩
    · rw [continues.lastKnownBlock]
      exact pending.source
    · exact pending.lastAdded sink progress lastAdded
        (continues.applying sink progress lastAdded task)

/-- An answer is about the last known block. -/
theorem Awaits.answer (awaits : Awaits tree start state) {source sink : BlueScoredChainBlockHash}
    {removed : List RpcHash} {mergesets : List Mergeset} {resolved : Bool} {syncer : Syncer}
    (task : state.syncer.syncTask = .fetching source sink)
    (answers : tree.Answers state.tip source.blockHash removed (mergesets.map Mergeset.block))
    (stepped : state.syncer.syncStep (.historical (some {
      removedChainBlockHashes := removed
      addedChainBlockHashes := (mergesets.map Mergeset.block).map (·.blockHash)
      lastAddedChainBlock :=
        if resolved then (mergesets.map Mergeset.block).getLast? else none })) = some syncer) :
    Awaits tree start { state with
      syncer, request := some ⟨state.tip, source, sink, removed, mergesets⟩ } ∧
    syncer.lastKnownBlock = state.syncer.lastKnownBlock := by
  obtain ⟨same, unfetched, isAdded⟩ := Syncer.syncStep_historical task stepped
  refine ⟨⟨awaits.startOnTip, awaits.scored, fun source sink task' =>
    absurd task' (unfetched source sink), fun request pends => ?_⟩, same⟩
  cases pends
  refine ⟨(awaits.fetching source sink task).trans same.symm, awaits.startOnTip, answers, ?_⟩
  intro sink progress lastAdded task'
  rw [isAdded sink progress lastAdded task']
  cases resolved with
  | false => exact .inl rfl
  | true => exact .inr rfl

/-- The stored blocks after a notification have their own scores. -/
theorem Awaits.process (awaits : Awaits tree start state) {request : ChainRequest}
    {lastAdded : Option BlueScoredChainBlockHash}
    (processes : Processes kaspa state request lastAdded state') :
    state'.db.toChainStore.Scored tree.scoreOf := by
  rw [processChainChanges_chain processes.success]
  refine awaits.scored.applyChanges fun mergeset member => ?_
  have onTip := (awaits.pending request processes.pends).answers.mem_tip
    (List.mem_map_of_mem member)
  exact BlockTree.isBlock_iff.1 (BlockTree.isBlock_of_mem onTip)

/-- A step leaves the stored blocks, or a notification is processed. -/
theorem Awaits.step (awaits : Awaits tree start state) {action : Action}
    (honest : Honest tree start state action)
    (moved : ChainSync.step kaspa state action = some state') :
    Awaits tree start state' ∧ (Leaves state state' ∨
      ∃ request lastAdded, action = .process ∧
        Processes kaspa state request lastAdded state') := by
  cases action with
  | chain tip =>
      cases moved
      refine ⟨⟨honest, awaits.scored, awaits.fetching, fun request pends => ?_⟩,
        .inl ⟨rfl, rfl, rfl⟩⟩
      have pending := awaits.pending request pends
      exact ⟨pending.source, pending.startOnTip, pending.answers, pending.lastAdded⟩
  | other action =>
      rw [ChainSync.step] at moved
      split at moved
      · rename_i isOther
        obtain ⟨syncer, stepped, rfl⟩ := Option.map_eq_some_iff.1 moved
        have continues := Syncer.continues_step isOther stepped
        exact ⟨awaits.continues continues, .inl ⟨rfl, continues.lastKnownBlock, rfl⟩⟩
      · cases moved
  | answer removed mergesets resolved =>
      rw [ChainSync.step] at moved
      split at moved
      · rename_i source sink task
        obtain ⟨syncer, stepped, rfl⟩ := Option.map_eq_some_iff.1 moved
        obtain ⟨awaits', same⟩ := awaits.answer task (honest source sink task) stepped
        exact ⟨awaits', .inl ⟨rfl, same, rfl⟩⟩
      · cases moved
  | process =>
      rw [ChainSync.step] at moved
      split at moved
      · rename_i sink progress lastAdded request task pends
        split at moved
        · obtain ⟨syncer, stepped, rfl⟩ := Option.map_eq_some_iff.1 moved
          have continues := Syncer.continues_syncStep rfl stepped
          exact ⟨awaits.continues continues, .inl ⟨rfl, continues.lastKnownBlock, rfl⟩⟩
        · rename_i db success
          obtain ⟨syncer, stepped, rfl⟩ := Option.map_eq_some_iff.1 moved
          obtain ⟨known, unfetched, unapplied⟩ := Syncer.syncStep_processed task stepped
          have isAdded := (awaits.pending request pends).lastAdded sink progress lastAdded task
          have processes : Processes kaspa state request lastAdded
              { state with syncer, db, request := none, processed := some request.tip } :=
            ⟨pends, isAdded, success, known, rfl⟩
          exact ⟨⟨awaits.startOnTip, awaits.process processes,
            fun source sink task' => absurd task' (unfetched source sink), nofun⟩,
            .inr ⟨request, lastAdded, rfl, processes⟩⟩
      · cases moved

theorem UpToDate.of_reaches {tip : RpcHash} (isProcessed : state.processed = some tip)
    (reaches : tree.Reaches start tip state.syncer.lastKnownBlock state.db.toChainStore) :
    UpToDate tree start state := by
  intro answered same
  rw [isProcessed] at same
  cases same
  refine ⟨reaches.onTip, fun block above => (reaches.follows block above).trans ?_⟩
  by_cases high : start.blueScore < state.syncer.lastKnownBlock.blueScore
  · exact BlockTree.mem_path_iff (reaches.onTip high)
  · constructor
    · intro member
      have := BlockTree.le_of_mem reaches.isBlock member
      omega
    · rintro ⟨_, le⟩
      omega

/-- The stored blocks above the start lead to the last known block. -/
structure Invariant (tree : BlockTree) (start : BlueScoredChainBlockHash) (state : ChainSync) :
    Prop extends Awaits tree start state where
  tracks : tree.Tracks start state.syncer.lastKnownBlock state.db.toChainStore
  upToDate : UpToDate tree start state

theorem Invariant.leaves (invariant : Invariant tree start state)
    (awaits : Awaits tree start state') (leaves : Leaves state state') :
    Invariant tree start state' where
  toAwaits := awaits
  tracks := by
    rw [leaves.lastKnownBlock, leaves.chain]
    exact invariant.tracks
  upToDate := by
    intro tip isProcessed
    rw [leaves.processed] at isProcessed
    rw [leaves.lastKnownBlock, leaves.chain]
    exact invariant.upToDate tip isProcessed

/-- After a notification that reaches its last known block. -/
theorem Awaits.reached (awaits : Awaits tree start state) (awaits' : Awaits tree start state')
    {request : ChainRequest} {lastAdded : Option BlueScoredChainBlockHash}
    (processes : Processes kaspa state request lastAdded state')
    (reaches : tree.Reaches start request.tip state'.syncer.lastKnownBlock
      state'.db.toChainStore) : Invariant tree start state' where
  toAwaits := awaits'
  tracks := by
    refine ⟨reaches.isBlock, fun above => ?_, reaches.follows, awaits'.scored⟩
    have startOnTip := (awaits.pending request processes.pends).startOnTip
    exact (BlockTree.mem_path_iff (reaches.onTip above)).2 ⟨startOnTip, above.le⟩
  upToDate := .of_reaches processes.processed reaches

theorem Invariant.step (invariant : Invariant tree start state) {action : Action}
    (honest : Honest tree start state action) (keeps : Keeps tree start state action)
    (moved : step kaspa state action = some state') : Invariant tree start state' := by
  obtain ⟨awaits, left | ⟨request, lastAdded, rfl, processes⟩⟩ :=
    invariant.toAwaits.step honest moved
  · exact invariant.leaves awaits left
  · have pending := invariant.pending request processes.pends
    have tracks := invariant.tracks
    rw [← pending.source] at tracks
    have reaches := tracks.reaches_applyChanges pending.startOnTip pending.answers
      processes.isAdded (keeps request processes.pends)
    rw [← processChainChanges_chain processes.success, pending.source,
      ← processes.lastKnownBlock] at reaches
    exact invariant.toAwaits.reached awaits processes reaches

/-- Up to the first processed notification the last known block is the start. -/
structure Waits (tree : BlockTree) (start : BlueScoredChainBlockHash) (state : ChainSync) :
    Prop extends Awaits tree start state where
  lastKnownBlock : state.syncer.lastKnownBlock = start
  processed : state.processed = none

theorem Waits.step (waits : Waits tree start state) {action : Action}
    (honest : Honest tree start state action) (resumes : Resumes start state action)
    (moved : step kaspa state action = some state') :
    Waits tree start state' ∨ Invariant tree start state' := by
  obtain ⟨awaits, left | ⟨request, lastAdded, rfl, processes⟩⟩ :=
    waits.toAwaits.step honest moved
  · exact .inl ⟨awaits, left.lastKnownBlock.trans waits.lastKnownBlock,
      left.processed.trans waits.processed⟩
  · have pending := waits.pending request processes.pends
    have source := pending.source.trans waits.lastKnownBlock
    have goesOn := resumes waits.processed request processes.pends
    have answers := pending.answers
    rw [source] at goesOn answers
    have reaches := goesOn.reaches waits.scored pending.startOnTip answers processes.isAdded
    have known := processes.lastKnownBlock
    have chain := processChainChanges_chain processes.success
    rw [waits.lastKnownBlock] at known
    rw [source] at chain
    rw [← chain, ← known] at reaches
    exact .inr (waits.toAwaits.reached awaits processes reaches)

theorem Spawned.waits (spawned : Spawned tree start initial) : Waits tree start initial where
  startOnTip := spawned.startOnTip
  scored := spawned.scored
  fetching source sink task := by
    rw [spawned.syncTask] at task
    cases task
  pending request pends := by
    rw [spawned.request] at pends
    cases pends
  lastKnownBlock := spawned.lastKnownBlock
  processed := spawned.processed

/-- If the first notification goes on with what is stored and every notification keeps the blocks
it does not replace, then the stored blocks are those of the chain of the last notification. -/
theorem no_lost_block (spawned : Spawned tree start initial)
    (reach : Reach (step kaspa) (fun state action => Honest tree start state action ∧
      Resumes start state action ∧ Keeps tree start state action) initial state) :
    UpToDate tree start state := by
  have reached : Waits tree start state ∨ Invariant tree start state := by
    induction reach with
    | refl => exact .inl spawned.waits
    | next _ meets moved invariant =>
        obtain ⟨honest, resumes, keeps⟩ := meets
        rcases invariant with waits | invariant
        · exact waits.step honest resumes moved
        · exact .inr (invariant.step honest keeps moved)
  rcases reached with waits | invariant
  · intro tip isProcessed
    rw [waits.processed] at isProcessed
    cases isProcessed
  · exact invariant.upToDate

end ChainSync

/-! A chain of four blocks. -/

namespace Sample

def linePath (hash : RpcHash) : List BlueScoredChainBlockHash :=
  if hash < 4 then (List.range (hash + 1)).map fun score => ⟨score, score⟩ else [⟨0, hash⟩]

def line : BlockTree where
  path := linePath
  ends := by
    intro hash
    by_cases low : hash < 4
    · exact ⟨⟨hash, hash⟩, by simp [linePath, low, List.range_succ], rfl⟩
    · exact ⟨⟨0, hash⟩, by simp [linePath, low], rfl⟩
  inherits := by
    intro hash block member
    by_cases low : hash < 4
    · have inherited : ∀ hash < 4, ∀ block ∈ linePath hash,
          (linePath block.blockHash).getLast? = some block ∧
            linePath block.blockHash <+: linePath hash := by decide
      exact inherited hash low block member
    · simp only [linePath, low, if_false, List.mem_singleton] at member
      subst member
      simp [linePath, low]
  grows := by
    intro hash
    by_cases low : hash < 4
    · have increasing : ∀ hash < 4,
          (linePath hash).Pairwise fun lower upper => lower.blueScore < upper.blueScore := by decide
      exact increasing hash low
    · simp [linePath, low]
  bounded := by
    intro hash block member
    by_cases low : hash < 4
    · have small : ∀ hash < 4, ∀ block ∈ linePath hash, block.blueScore ≤ 3 := by decide
      exact (small hash low block member).trans (by decide)
    · simp only [linePath, low, if_false, List.mem_singleton] at member
      subst member
      exact Nat.zero_le _

def lineBlock (score : ℕ) : BlueScoredChainBlockHash := ⟨score, score⟩

def lineMergeset (score : ℕ) : Mergeset := ⟨[], 0, score, score⟩

def lineStart : ChainSync where
  syncer := { lastKnownBlock := lineBlock 0 }
  db := Db.new
  tip := 1

/-- The node only grows its chain and answers from it. -/
def lineHonest (state : ChainSync) : ChainSync.Action → Bool
  | .chain tip => tip < 4
  | .answer removed mergesets _ =>
      match state.syncer.syncTask with
      | .fetching source _ => removed = [] &&
          (linePath source.blockHash ++ mergesets.map Mergeset.block).isPrefixOf
            (linePath state.tip)
      | _ => true
  | .other (.syncTask (.sink (some sink))) => (linePath state.tip).getLast? = some sink
  | .process | .other _ => true

theorem honest_of_lineHonest {state : ChainSync} {action : ChainSync.Action}
    (honest : lineHonest state action = true) :
    ChainSync.Honest line (lineBlock 0) state action := by
  cases action with
  | chain tip =>
      have onTip : ∀ tip < 4, lineBlock 0 ∈ linePath tip := by decide
      exact onTip tip (of_decide_eq_true honest)
  | answer removed mergesets resolved =>
      intro source sink task
      simp only [lineHonest, task, Bool.and_eq_true, decide_eq_true_eq,
        List.isPrefixOf_iff_prefix] at honest
      obtain ⟨rfl, more, split⟩ := honest
      rw [List.append_assoc] at split
      exact ⟨linePath source.blockHash, [], more, (List.append_nil _).symm, split.symm, nofun, rfl⟩
  | process => trivial
  | other action =>
      cases action with
      | virtualChainChanged sink | disconnected | handler index => trivial
      | syncTask reply =>
          cases reply with
          | none | historical answer | processed answer | queueApplied answer => trivial
          | sink answer =>
              cases answer with
              | none => trivial
              | some sink =>
                  have isTip : (linePath state.tip).getLast? = some sink :=
                    of_decide_eq_true honest
                  exact isTip

/-- Forced rollbacks and notifications that add nothing do not come above the start. -/
def lineKeeps (state : ChainSync) : ChainSync.Action → Bool
  | .process =>
      match state.request with
      | some request =>
          forcedRollbackBlueScore request.source request.sink request.removed = none &&
            !request.mergesets.isEmpty
      | none => true
  | _ => true

theorem keeps_of_lineKeeps {state : ChainSync} {action : ChainSync.Action}
    (keeps : lineKeeps state action = true) :
    ChainSync.Keeps line (lineBlock 0) state action := by
  cases action with
  | process =>
      intro request pends _
      simp only [lineKeeps, pends, Bool.and_eq_true, decide_eq_true_eq, Bool.not_eq_true',
        List.isEmpty_eq_false_iff] at keeps
      refine ⟨fun forced => ?_, fun empty => absurd empty keeps.2⟩
      rw [keeps.1] at forced
      cases forced
  | chain tip | answer removed mergesets resolved | other action => trivial

/-- Nothing is stored before the first notification. -/
def lineResumes (state : ChainSync) : ChainSync.Action → Bool
  | .process => state.processed.isSome || (state.db.chainBlockScores.keysFrom ⟨0, 0⟩).isEmpty
  | _ => true

theorem resumes_of_lineResumes {state : ChainSync} {action : ChainSync.Action}
    (resumes : lineResumes state action = true) :
    ChainSync.Resumes (lineBlock 0) state action := by
  cases action with
  | process =>
      intro unprocessed request _ _
      simp only [lineResumes, unprocessed, Option.isSome_none, Bool.false_or,
        List.isEmpty_iff] at resumes
      refine ⟨0, fun block above => iff_of_false (fun isStored => ?_) fun low => ?_⟩
      · have isKey := OrderedStore.Partition.mem_keysFrom.2
          ⟨isStored, BlueScoredChainBlockHash.start_le_iff.2 (Nat.zero_le _)⟩
        rw [resumes] at isKey
        cases isKey
      · exact absurd low.2 (Nat.not_le.2 above)
  | chain tip | answer removed mergesets resolved | other action => trivial

/-- Blocks 1 and 2 are stored; the refresh of the sink fails or not, and block 3 comes. -/
def replaying (sink : Option BlueScoredChainBlockHash) : List ChainSync.Action :=
  [.other (.syncTask (.sink (some (lineBlock 1)))), .other (.syncTask .none), .chain 2,
    .answer [] [lineMergeset 1, lineMergeset 2] true, .process, .chain 3] ++
  (sink.elim [.other (.syncTask (.sink none))] fun sink =>
    [.other (.syncTask (.sink (some sink))), .other (.syncTask .none),
      .other (.syncTask .none)]) ++
  [.other (.syncTask .none), .answer [] [lineMergeset 3] true, .process]

theorem lineStart_spawned : lineStart.Spawned line (lineBlock 0) where
  syncTask := rfl
  lastKnownBlock := rfl
  startOnTip := by decide
  scored := ⟨⟨by simp [lineStart, Db.new]⟩, by simp [lineStart, Db.new]⟩
  request := rfl
  processed := rfl

end Sample

namespace ChainSync

open Transition

theorem no_lost_block_growing : ∃ state, Reach (step Sample.kaspa) (fun state action =>
      Honest Sample.line (Sample.lineBlock 0) state action ∧
        Resumes (Sample.lineBlock 0) state action ∧
          Keeps Sample.line (Sample.lineBlock 0) state action) Sample.lineStart state ∧
    state.processed = some 3 ∧ UpToDate Sample.line (Sample.lineBlock 0) state := by
  have ran : ((runActions (step Sample.kaspa) (fun state action =>
      Sample.lineHonest state action && (Sample.lineResumes state action &&
        Sample.lineKeeps state action)) Sample.lineStart
      (Sample.replaying (some (Sample.lineBlock 3)))).bind (·.processed)) = some 3 := by
    decide +kernel
  obtain ⟨state, run, isProcessed⟩ := Option.bind_eq_some_iff.1 ran
  have reach : Reach (step Sample.kaspa) (fun state action =>
      Honest Sample.line (Sample.lineBlock 0) state action ∧
        Resumes (Sample.lineBlock 0) state action ∧
          Keeps Sample.line (Sample.lineBlock 0) state action) Sample.lineStart state := by
    refine (Reach.of_runActions run).mono fun state action meets => ?_
    rw [Bool.and_eq_true, Bool.and_eq_true] at meets
    exact ⟨Sample.honest_of_lineHonest meets.1, Sample.resumes_of_lineResumes meets.2.1,
      Sample.keeps_of_lineKeeps meets.2.2⟩
  exact ⟨state, reach, isProcessed, no_lost_block Sample.lineStart_spawned reach⟩

/-- An old sink makes the task roll block 2 back, and the answer adds only what comes after it. -/
theorem replay_lost_block :
    ¬∀ {kaspa : Kaspa} {tree : BlockTree} {start : BlueScoredChainBlockHash}
      {initial state : ChainSync}, Spawned tree start initial →
        Reach (step kaspa) (Honest tree start) initial state → UpToDate tree start state := by
  intro neverLost
  have ran : ((runActions (step Sample.kaspa) Sample.lineHonest Sample.lineStart
      (Sample.replaying none)).map fun state => (state.processed,
        state.syncer.lastKnownBlock, state.db.chainBlockScores.get (Sample.lineBlock 2))) =
      some (some 3, Sample.lineBlock 3, none) := by
    decide +kernel
  obtain ⟨state, run, found⟩ := Option.map_eq_some_iff.1 ran
  simp only [Prod.mk.injEq] at found
  obtain ⟨isProcessed, known, unstored⟩ := found
  have reach := (Reach.of_runActions run).mono fun _ _ => Sample.honest_of_lineHonest
  have stores := ((neverLost Sample.lineStart_spawned reach) 3 isProcessed).2
    (Sample.lineBlock 2) (by decide)
  rw [known] at stores
  have stored := stores.2 ⟨by decide, by decide⟩
  rw [ChainStore.Stores, unstored] at stored
  cases stored

end ChainSync

end Krc721
