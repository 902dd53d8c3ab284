import Krc721.Store.KeyList
import Krc721.Processor.LedgerFrame
import Krc721.Processor.MergesetRuns
import Krc721.Processor.Delivery
import Krc721.Processor.ScoreOrder

/-! The ledger is a function of the stored chain. However the additions and the removals that
led to a database were interleaved, its ledger is the one that processing the mergesets of its
stored blocks produces from an empty database; so two indexers that store the same blocks agree. -/

set_option autoImplicit false

namespace Krc721

open OrderedStore

/-- The mergesets of the stored blocks, first block first. -/
def ChainStore.mergesets (chain : ChainStore) (mergesetOf : RpcHash → Mergeset) : List Mergeset :=
  chain.chainBlockScores.keys.map fun block => mergesetOf block.blockHash

/-- The scores of a blue score are not cut off at 64 bits. -/
def Kaspa.Fits (kaspa : Kaspa) (blueScore : ℕ) : Prop := blueScore * kaspa.blockCapacity < 2 ^ 64

theorem Kaspa.Fits.threshold_eq {kaspa : Kaspa} {blueScore : ℕ} (fits : kaspa.Fits blueScore) :
    calculateTxScoreFromBlue kaspa blueScore = blueScore * kaspa.blockCapacity := by
  apply OpPosition.threshold_eq
  rw [exactTxScore_eq]
  simp only [packed, zero_mul, add_zero]
  exact fits

/-- A run in which the hash of a chain block stands for its mergeset, and no forced rollback is
to a blue score whose scores are cut off. -/
abbrev HashedRun (kaspa : Kaspa) (mergesetOf : RpcHash → Mergeset) : Db → Prop :=
  MergesetRun kaspa (fun mergeset => mergesetOf mergeset.acceptedChainBlockHash = mergeset)
    fun _ _ forced => ∀ score, forced = some score → kaspa.Fits score

theorem HashedRun.scored {kaspa : Kaspa} {mergesetOf : RpcHash → Mergeset} {db : Db}
    (run : HashedRun kaspa mergesetOf db) :
    db.toChainStore.Scored fun hash => (mergesetOf hash).blueScore := by
  apply ScoredRun.scored
  apply GuardedRun.mono run
  · intro db mergesets guarded
    exact ⟨guarded.1, fun mergeset member =>
      congrArg Mergeset.blueScore (guarded.2 mergeset member)⟩
  · intro db removed forced fits
    trivial

/-! One mergeset. -/

section Mergeset

variable {kaspa : Kaspa} {db other : Db} {mergeset : Mergeset} {mergesets : List Mergeset}

theorem processMergeset_alike {lastAcceptedBlueScore : ℕ} {diff : StatsDiffs}
    (same : db.toLedger = other.toLedger)
    (reached : lastAcceptedBlueScore ≤ mergeset.blueScore)
    (fresh : db.chainBlockScores.get mergeset.block = none)
    (otherFresh : other.chainBlockScores.get mergeset.block = none) :
    Alike (processMergeset kaspa lastAcceptedBlueScore db diff mergeset)
      (processMergeset kaspa lastAcceptedBlueScore other diff mergeset) := by
  have scored : scoredOperations kaspa
      { db with toChainStore := db.toChainStore.accept mergeset } mergeset =
    scoredOperations kaspa { other with toChainStore := other.toChainStore.accept mergeset }
      mergeset := scoredOperations_ledger mergeset same
  have step : Alike
      (processNftOperations kaspa { db with toChainStore := db.toChainStore.accept mergeset } 0
        (scoredOperations kaspa { db with toChainStore := db.toChainStore.accept mergeset }
          mergeset))
      (processNftOperations kaspa
        { other with toChainStore := other.toChainStore.accept mergeset } 0
        (scoredOperations kaspa { other with toChainStore := other.toChainStore.accept mergeset }
          mergeset)) := by
    rw [scored]
    exact processNftOperations_alike same
  unfold Mergeset.block at fresh otherFresh
  unfold processMergeset
  simp only [if_neg (not_lt.2 reached), fresh, otherFresh, Option.isSome_none,
    Bool.false_eq_true, if_false]
  generalize processNftOperations kaspa _ 0 _ = left at step ⊢
  generalize processNftOperations kaspa _ 0 _ = right at step ⊢
  cases step with
  | fault fault => exact .fault fault
  | done added ledger => exact .done (diff + added) ledger

/-- Mergesets at or above a threshold keep every extension above it. -/
theorem Adds.extends {threshold : ℕ} {old : Ledger} {db' : Db} {diffs : List StatsDiffs}
    (adds : Adds kaspa db mergesets db' diffs) (consistent : Consistent kaspa db)
    (continues : Continues kaspa db.toChainStore mergesets)
    (reached : ∀ mergeset ∈ mergesets,
      threshold ≤ calculateTxScoreFromBlue kaspa mergeset.blueScore)
    (oldWf : old.Wf threshold) (extended : old.Extends threshold db.toLedger) :
    old.Extends threshold db'.toLedger := by
  induction mergesets generalizing db diffs with
  | nil =>
      rw [(adds.unique (.refl consistent)).1]
      exact extended
  | cons mergeset mergesets ih =>
      have member : mergeset ∈ mergeset :: mergesets := List.mem_cons_self
      have valid := continues.valid mergeset member
      have above := continues.above mergeset member
      obtain ⟨between, added, success, first, later⟩ := continues.adds_head consistent
      obtain ⟨final, more, rest⟩ := Continues.adds first.consistent later
      have ends : db' = final := (adds.unique (first.trans rest)).1
      subst ends
      apply ih rest first.consistent later
      · intro next inRest
        exact reached next (List.mem_cons_of_mem _ inRest)
      · obtain ⟨bound, replay, le⟩ := consistent.replay_le valid above
        have scoreLe : calculateTxScoreFromBlue kaspa mergeset.blueScore ≤ u64Max :=
          lt_two_pow_iff_le_u64Max.1 (Nat.mod_lt _ (by positivity))
        have wf := replay.wf.mono le (scoreLe.trans (Nat.le_succ _))
        obtain ⟨db'', added', last, same, run, _⟩ := processMergeset_next wf valid above.fresh
        rw [same 0 0 (Nat.zero_le _)] at success
        have ends := (Prod.mk.inj (Except.ok.inj success)).1
        rw [← ends]
        exact run.extends_of wf (reached mergeset member) oldWf extended

/-- The rows of added mergesets are below a blue score that these are below. -/
theorem Adds.wf_below {db' : Db} {diffs : List StatsDiffs} {blueScore : ℕ}
    (adds : Adds kaspa .new mergesets db' diffs) (fits : kaspa.Fits blueScore)
    (low : ∀ mergeset ∈ mergesets, mergeset.blueScore < blueScore) :
    db'.toLedger.Wf (blueScore * kaspa.blockCapacity) := by
  obtain ⟨bound, replay⟩ := adds.consistent.replay
  have within : blueScore * kaspa.blockCapacity ≤ u64Max := lt_two_pow_iff_le_u64Max.1 fits
  apply replay.wf.mono
  · rcases replay.bound_logged with empty | ⟨score, checked, last, logged⟩
    · rw [empty]
      exact Nat.zero_le _
    · obtain ⟨block, stored, _, below⟩ := adds.consistent.covered score checked logged
      rw [congrArg ChainStore.chainBlockScores adds.chain, ChainStore.isSome_acceptAll] at stored
      rcases stored with initial | ⟨mergeset, member, same⟩
      · simp [Db.new] at initial
      · have before := low mergeset member
        rw [same] at below
        rw [last]
        exact below.trans_le (Nat.mul_le_mul_right _ before)
  · exact within.trans (Nat.le_succ _)

theorem Continues.left {chain : ChainStore} {rest : List Mergeset}
    (continues : Continues kaspa chain (mergesets ++ rest)) : Continues kaspa chain mergesets where
  valid := fun next member => continues.valid next (List.mem_append_left _ member)
  ascending := (List.pairwise_append.1 continues.ascending).1
  above := fun next member => continues.above next (List.mem_append_left _ member)

theorem BlueScoredChainBlockHash.blueScore_mono {left right : BlueScoredChainBlockHash}
    (le : left ≤ right) : left.blueScore ≤ right.blueScore :=
  start_le_iff.1 ((start_le_iff.2 le_rfl).trans le)

end Mergeset

/-! The score that a removal finds. -/

namespace ChainStore

variable {chain : ChainStore} {removed : List RpcHash}

theorem Lookups.found_le (wf : chain.Wf) {state : RemovedBlocks} (lookups : Lookups chain 0 state)
    (removed : List RpcHash)
    (counted : state.foundRemovedBlock = true →
      ∃ block, chain.Stores block ∧ state.minBlueScore ≤ block.blueScore)
    (found : (removed.foldl removeBlock state).foundRemovedBlock = true) :
    ∃ block, chain.Stores block ∧
      (removed.foldl removeBlock state).minBlueScore ≤ block.blueScore := by
  induction removed generalizing state with
  | nil => exact counted found
  | cons hash removed ih =>
      apply ih (lookups.step wf fun _ _ => Nat.zero_le _).1
      · cases looked : state.chain.lookupRemovedBlockScore hash with
        | none =>
            simp only [removeBlock, looked]
            exact counted
        | some score =>
            intro _
            refine ⟨⟨score, hash⟩, wf.indexed.1 (lookups.lookup wf looked), ?_⟩
            simp only [removeBlock, looked]
            exact min_le_right _ _
      · exact found

/-- The least score of a removal is at most a forced one, or that of a stored block. -/
theorem Wf.identified_le (wf : chain.Wf) {forced : Option ℕ} {minBlueScore : ℕ}
    (found : (chain.identifyReorgBlocksAndDelete removed forced).2 = some minBlueScore) :
    (∃ score, forced = some score ∧ minBlueScore ≤ score) ∨
      ∃ block, chain.Stores block ∧ minBlueScore ≤ block.blueScore := by
  have start : Lookups chain 0 ⟨chain, u64Max, false⟩ := ⟨id, .inl, Nat.zero_le _, rfl⟩
  have counted := start.found_le wf removed (fun none => by cases none)
  unfold ChainStore.identifyReorgBlocksAndDelete at found
  generalize removed.foldl removeBlock ⟨chain, u64Max, false⟩ = state at counted found
  cases forced with
  | none =>
      simp only at found
      split at found
      · rename_i seen
        cases found
        exact .inr (counted seen)
      · cases found
  | some score =>
      simp only [if_true, Option.some.injEq] at found
      subst found
      exact .inl ⟨score, rfl, min_le_right _ _⟩

end ChainStore

/-! The invariant. -/

/-- The stored blocks are a chain that the mergesets of their hashes make up, and processing
these from an empty database gives the ledger. -/
structure Rebuilt (kaspa : Kaspa) (mergesetOf : RpcHash → Mergeset) (db : Db) : Prop where
  continues : Continues kaspa Db.new.toChainStore (db.mergesets mergesetOf)
  blocks : ∀ block, db.Stores block → (mergesetOf block.blockHash).block = block
  ledger : ∃ replayed diffs, Adds kaspa .new (db.mergesets mergesetOf) replayed diffs ∧
    replayed.toLedger = db.toLedger

namespace Rebuilt

variable {kaspa : Kaspa} {mergesetOf : RpcHash → Mergeset} {db db' : Db}
variable {mergeset : Mergeset} {mergesets : List Mergeset}

theorem new : Rebuilt kaspa mergesetOf .new := by
  have none : Db.new.mergesets mergesetOf = [] := by
    simp [ChainStore.mergesets, Db.new]
  constructor
  case continues =>
    rw [none]
    exact ⟨by simp, .nil, by simp⟩
  case blocks =>
    intro block stored
    simp [ChainStore.Stores, Db.new] at stored
  case ledger =>
    rw [none]
    exact ⟨.new, [], .refl .new, rfl⟩

/-- The invariant is about the blocks and the ledger only. -/
theorem congr (rebuilt : Rebuilt kaspa mergesetOf db)
    (chain : db'.toChainStore = db.toChainStore) (ledger : db'.toLedger = db.toLedger) :
    Rebuilt kaspa mergesetOf db' := by
  obtain ⟨continues, blocks, replay⟩ := rebuilt
  rw [← chain] at continues blocks replay
  rw [← ledger] at replay
  exact ⟨continues, blocks, replay⟩

theorem stores_block (rebuilt : Rebuilt kaspa mergesetOf db)
    (member : mergeset ∈ db.mergesets mergesetOf) : db.Stores mergeset.block := by
  obtain ⟨block, stored, same⟩ := List.mem_map.1 member
  rw [Partition.mem_keys] at stored
  have own := rebuilt.blocks block stored
  rw [same] at own
  rw [own]
  exact stored

theorem blueScore_eq (rebuilt : Rebuilt kaspa mergesetOf db) {block : BlueScoredChainBlockHash}
    (stored : db.Stores block) : (mergesetOf block.blockHash).blueScore = block.blueScore :=
  congrArg BlueScoredChainBlockHash.blueScore (rebuilt.blocks block stored)

/-- The scores of a stored block are not cut off. -/
theorem fits (rebuilt : Rebuilt kaspa mergesetOf db) {block : BlueScoredChainBlockHash}
    (stored : db.Stores block) {blueScore : ℕ} (le : blueScore ≤ block.blueScore) :
    kaspa.Fits blueScore := by
  have member : mergesetOf block.blockHash ∈ db.mergesets mergesetOf :=
    List.mem_map.2 ⟨block, Partition.mem_keys.2 stored, rfl⟩
  have valid := (rebuilt.continues.valid _ member).fits
  rw [rebuilt.blueScore_eq stored] at valid
  have capacity : 0 < kaspa.blockCapacity := Nat.mul_pos kaspa.mergeSetLimit_pos (by decide)
  exact (Nat.mul_lt_mul_of_pos_right (Nat.lt_succ_of_le le) capacity).trans_le valid

/-- A mergeset above the chain is appended, to the chain and to its replay. -/
theorem accept (rebuilt : Rebuilt kaspa mergesetOf db) (consistent : Consistent kaspa db)
    (valid : mergeset.Valid kaspa) (above : mergeset.Above db.toChainStore)
    (hashed : mergesetOf mergeset.acceptedChainBlockHash = mergeset)
    {lastAcceptedBlueScore : ℕ} {diff diff' : StatsDiffs}
    (reached : lastAcceptedBlueScore ≤ mergeset.blueScore)
    (success : processMergeset kaspa lastAcceptedBlueScore db diff mergeset = .ok (db', diff')) :
    Rebuilt kaspa mergesetOf db' := by
  obtain ⟨_, added, accepted, chain, _⟩ := consistent.processMergeset valid above
  rw [accepted _ _ reached] at success
  cases success
  have appended : db'.mergesets mergesetOf = db.mergesets mergesetOf ++ [mergeset] := by
    rw [ChainStore.mergesets, congrArg ChainStore.chainBlockScores chain, ChainStore.accept,
      Partition.keys_insert, List.map_append, List.map_singleton, hashed]
    · rfl
    · intro block stored
      exact BlueScoredChainBlockHash.lt_iff.2 (.inl (above block stored))
  have continues : Continues kaspa Db.new.toChainStore
      (db.mergesets mergesetOf ++ [mergeset]) := by
    constructor
    case valid =>
      intro next member
      rcases List.mem_append.1 member with earlier | last
      · exact rebuilt.continues.valid next earlier
      · rw [List.mem_singleton.1 last]
        exact valid
    case ascending =>
      apply List.pairwise_append.2
      refine ⟨rebuilt.continues.ascending, List.pairwise_singleton _ _,
        fun earlier member last inLast => ?_⟩
      rw [List.mem_singleton.1 inLast]
      exact above _ (rebuilt.stores_block member)
    case above =>
      intro next member block stored
      simp [Db.new] at stored
  constructor
  case continues =>
    rw [appended]
    exact continues
  case blocks =>
    intro block stored
    rw [ChainStore.Stores, congrArg ChainStore.chainBlockScores chain] at stored
    rcases ChainStore.stores_accept.1 stored with same | earlier
    · rw [same]
      exact congrArg Mergeset.block hashed
    · exact rebuilt.blocks block earlier
  case ledger =>
    obtain ⟨replayed, diffs, adds, ledger⟩ := rebuilt.ledger
    have next : Continues kaspa replayed.toChainStore [mergeset] := by
      rw [adds.chain]
      exact continues.append
    obtain ⟨replayed', more, step, one, _⟩ := next.adds_head adds.consistent
    have alike : Alike (processMergeset kaspa 0 db 0 mergeset)
        (processMergeset kaspa 0 replayed 0 mergeset) :=
      processMergeset_alike ledger.symm (Nat.zero_le _) above.fresh
        (next.above mergeset List.mem_cons_self).fresh
    rw [accepted 0 0 (Nat.zero_le _), step] at alike
    refine ⟨replayed', diffs ++ [more], ?_, ?_⟩
    · rw [appended]
      exact adds.trans one
    · exact alike.ledger.symm

/-- Cutting the chain below a score splits its replay: the ledger extends the one that the blocks
below the score build. -/
theorem cut (rebuilt : Rebuilt kaspa mergesetOf db) {minBlueScore : ℕ}
    (fits : kaspa.Fits minBlueScore)
    (below : db'.toChainStore = db.toChainStore.below minBlueScore) :
    ∃ replayed diffs, Continues kaspa Db.new.toChainStore (db'.mergesets mergesetOf) ∧
      Adds kaspa .new (db'.mergesets mergesetOf) replayed diffs ∧
      replayed.toLedger.Wf (minBlueScore * kaspa.blockCapacity) ∧
      replayed.toLedger.Extends (minBlueScore * kaspa.blockCapacity) db.toLedger := by
  obtain ⟨later, keys, high⟩ := Partition.keys_below db.chainBlockScores
    BlueScoredChainBlockHash.rowScore minBlueScore (·.blueScore) (fun _ _ => rfl)
    BlueScoredChainBlockHash.blueScore_mono
  have parts : db.mergesets mergesetOf =
      db'.mergesets mergesetOf ++ later.map fun block => mergesetOf block.blockHash := by
    rw [ChainStore.mergesets, keys, List.map_append, ChainStore.mergesets,
      congrArg ChainStore.chainBlockScores below, ChainStore.below]
  -- the chain splits into what stays and what goes
  have whole := rebuilt.continues
  rw [parts] at whole
  have kept : Continues kaspa Db.new.toChainStore (db'.mergesets mergesetOf) := whole.left
  obtain ⟨replayed, diffs, adds⟩ := kept.adds .new
  have gone := whole.append
  rw [← adds.chain] at gone
  obtain ⟨full, more, rest⟩ := gone.adds adds.consistent
  obtain ⟨full', all, replay, ledger⟩ := rebuilt.ledger
  rw [parts] at replay
  rw [(replay.unique (adds.trans rest)).1] at ledger
  have low : ∀ mergeset ∈ db'.mergesets mergesetOf, mergeset.blueScore < minBlueScore := by
    intro mergeset member
    obtain ⟨block, stored, same⟩ := List.mem_map.1 member
    rw [Partition.mem_keys, congrArg ChainStore.chainBlockScores below, ChainStore.below,
      Partition.isSome_get_below block.blueScore fun _ => rfl] at stored
    rw [← same, rebuilt.blueScore_eq stored.1]
    exact stored.2
  have above : ∀ mergeset ∈ later.map fun block => mergesetOf block.blockHash,
      minBlueScore * kaspa.blockCapacity ≤
        calculateTxScoreFromBlue kaspa mergeset.blueScore := by
    intro mergeset member
    rw [calculateTxScoreFromBlue_eq (gone.valid mergeset member).fits]
    obtain ⟨block, inLater, same⟩ := List.mem_map.1 member
    have stored : db.Stores block := by
      rw [ChainStore.Stores, ← Partition.mem_keys, keys]
      exact List.mem_append_right _ inLater
    rw [← same, rebuilt.blueScore_eq stored]
    exact Nat.mul_le_mul_right _ (high block inLater)
  have oldWf := adds.wf_below fits low
  have extended := rest.extends adds.consistent gone above oldWf (oldWf.extends_self le_rfl)
  rw [ledger] at extended
  exact ⟨replayed, diffs, kept, adds, oldWf, extended⟩

/-- A removal keeps the blocks below a score, and its ledger is their replay. -/
theorem removal (rebuilt : Rebuilt kaspa mergesetOf db) (consistent : Consistent kaspa db)
    (wf : db.toChainStore.Wf) {removed : List RpcHash} {forced : Option ℕ}
    (fits : ∀ score, forced = some score → kaspa.Fits score)
    (rolledBack : RolledBack kaspa db removed forced db') {diff : StatsDiffs}
    (success : processRemoval kaspa db removed forced = .ok (db', diff)) :
    Rebuilt kaspa mergesetOf db' := by
  have chain := rolledBack.chain
  cases found : (db.identifyReorgBlocksAndDelete removed forced).2 with
  | none =>
      have sameChain : db'.toChainStore = db.toChainStore :=
        chain.trans ((ChainStore.identifyReorgBlocksAndDelete_blocks _ removed forced).2 found)
      have sameLedger : db'.toLedger = db.toLedger := by
        apply rolledBack.unchanged
        rw [removalThreshold, found, Option.map_none]
      exact rebuilt.congr sameChain sameLedger
  | some minBlueScore =>
      have minFits : kaspa.Fits minBlueScore := by
        rcases wf.identified_le found with ⟨score, given, le⟩ | ⟨block, stored, le⟩
        · exact (Nat.mul_le_mul_right _ le).trans_lt (fits score given)
        · exact rebuilt.fits stored le
      obtain ⟨replayed, diffs, kept, adds, oldWf, extended⟩ :=
        rebuilt.cut minFits (chain.trans (wf.identified removed forced found))
      rw [← minFits.threshold_eq] at oldWf extended
      obtain ⟨bound, current⟩ := consistent.replay
      obtain ⟨db'', diff', same, restored, _⟩ := processRemoval_restores (Prod.ext rfl found)
        current.wf consistent.discounts oldWf extended
      rw [success] at same
      cases same
      constructor
      case continues => exact kept
      case blocks =>
        intro block stored
        apply rebuilt.blocks block
        rw [ChainStore.Stores, chain] at stored
        exact ChainStore.stores_of_identified stored
      case ledger => exact ⟨replayed, diffs, adds, restored.symm⟩

end Rebuilt

theorem HashedRun.rebuilt {kaspa : Kaspa} {mergesetOf : RpcHash → Mergeset} {db : Db}
    (run : HashedRun kaspa mergesetOf db) : Rebuilt kaspa mergesetOf db := by
  apply MergesetRun.kept (Rebuilt kaspa mergesetOf) run .new
  · intro db db' lastAcceptedBlueScore diff diff' mergeset consistent hashed valid above reached
      success rebuilt
    exact rebuilt.accept consistent valid above hashed reached success
  · intro db db' removed forced diff earlier fits rolledBack success rebuilt
    exact rebuilt.removal (UnforkedRun.consistent earlier)
      (HashedRun.scored earlier).toWf fits rolledBack success
  · intro db stats notificationQueue rebuilt
    exact rebuilt.congr rfl rfl

/-! Convergence. -/

section Converges

variable {kaspa : Kaspa} {mergesetOf : RpcHash → Mergeset} {db db' : Db}

/-- Two chains with the same blocks and exact indexes are the same. -/
theorem ChainStore.Wf.eq_of_stores {chain chain' : ChainStore} (wf : chain.Wf) (wf' : chain'.Wf)
    (same : ∀ block, chain.Stores block ↔ chain'.Stores block) : chain = chain' := by
  apply ChainStore.ext
  · exact Partition.ext_keys same
  · ext hash : 1
    apply Option.ext
    intro score
    rw [wf.indexed, wf'.indexed]
    exact same ⟨score, hash⟩

/-- The stored mergesets are one batch that an empty database accepts. -/
theorem Rebuilt.replays (rebuilt : Rebuilt kaspa mergesetOf db) :
    ∃ replayed diff, processAdditions kaspa .new (db.mergesets mergesetOf) = .ok (replayed, diff) ∧
      replayed.toLedger = db.toLedger ∧ HashedRun kaspa mergesetOf replayed ∧
      ∀ block, replayed.Stores block ↔ db.Stores block := by
  obtain ⟨replayed, diffs, adds, ledger⟩ := rebuilt.ledger
  have tip : Db.new.lastAcceptedBlock = none := rfl
  have success : processAdditions kaspa .new (db.mergesets mergesetOf) =
      .ok (replayed, (0 : Stats).total diffs) := by
    rw [processAdditions, tip]
    exact adds.loop 0 0 fun _ _ => Nat.zero_le _
  refine ⟨replayed, (0 : Stats).total diffs, success, ledger, ?_, ?_⟩
  · apply UnforkedRun.added .new _ _ success
    · exact ⟨⟨rebuilt.continues.valid, rebuilt.continues.ascending⟩, .new _⟩
    · intro mergeset member
      obtain ⟨block, stored, same⟩ := List.mem_map.1 member
      have own := rebuilt.blocks block (Partition.mem_keys.1 stored)
      rw [same] at own
      rw [← own] at same
      exact same
  · intro block
    rw [adds.chain, ChainStore.Stores, ChainStore.isSome_acceptAll]
    constructor
    · intro added
      rcases added with initial | ⟨mergeset, member, same⟩
      · simp [Db.new] at initial
      · rw [same]
        exact rebuilt.stores_block member
    · intro stored
      refine .inr ⟨mergesetOf block.blockHash, ?_, (rebuilt.blocks block stored).symm⟩
      exact List.mem_map.2 ⟨block, Partition.mem_keys.2 stored, rfl⟩

/-- Two databases that store the same blocks have one ledger and one chain, whatever additions,
removals and forks led to them; and it is what the stored chain gives from an empty database. -/
theorem HashedRun.converges (run : HashedRun kaspa mergesetOf db)
    (run' : HashedRun kaspa mergesetOf db')
    (sameBlocks : ∀ block, db.Stores block ↔ db'.Stores block) :
    db.toLedger = db'.toLedger ∧ db.toChainStore = db'.toChainStore ∧
      ∃ replayed diff,
        processAdditions kaspa .new (db.mergesets mergesetOf) = .ok (replayed, diff) ∧
        replayed.toLedger = db.toLedger ∧ replayed.toChainStore = db.toChainStore := by
  have wf := (HashedRun.scored run).toWf
  have chain := wf.eq_of_stores (HashedRun.scored run').toWf sameBlocks
  obtain ⟨replayed, diff, success, ledger, hashed, blocks⟩ := (HashedRun.rebuilt run).replays
  obtain ⟨replayed', diff', success', ledger', _⟩ := (HashedRun.rebuilt run').replays
  rw [← chain, success] at success'
  cases success'
  exact ⟨ledger.symm.trans ledger', chain, replayed, diff, success, ledger,
    (HashedRun.scored hashed).toWf.eq_of_stores wf blocks⟩

end Converges

/-! The sale is removed and comes again. -/

namespace Sample

def mergesetOf (hash : RpcHash) : Mergeset := if hash = 101 then deployBlock else saleBlock

def resold : Db := added (removed sold [102]) [saleBlock]

theorem stores_added {db : Db} {mergesets : List Mergeset}
    (reachable : UnforkedReachable kaspa db) (admissible : Admissible kaspa db mergesets)
    (block : BlueScoredChainBlockHash) :
    (added db mergesets).Stores block ↔ db.Stores block ∨ ∃ mergeset ∈ mergesets,
      (db.lastAcceptedBlock.map (·.blueScore)).getD 0 ≤ mergeset.blueScore ∧
        block = mergeset.block := by
  obtain ⟨diff, success⟩ := processAdditions_added reachable admissible
  rw [processMergesets_chain success, ChainStore.stores_addBlocks]

theorem stores_sold (block : BlueScoredChainBlockHash) :
    sold.Stores block ↔ block = deployBlock.block ∨ block = saleBlock.block := by
  have tip : Db.new.lastAcceptedBlock = none := rfl
  rw [sold, stores_added .new chain_admissible, tip]
  simp [ChainStore.Stores, Db.new]

theorem sold_hashed : HashedRun kaspa mergesetOf sold := by
  obtain ⟨diff, success⟩ := processAdditions_added .new chain_admissible
  exact UnforkedRun.added .new chain_admissible (by decide) success

theorem processRemoval_removed : ∃ diff,
    processRemoval kaspa sold [102] none = .ok (removed sold [102], diff) := by
  obtain ⟨db', diff, success, _⟩ := sold_reachable.consistent.processRemoval [102] none
  simp only [removed, success]
  exact ⟨diff, rfl⟩

theorem removed_hashed : HashedRun kaspa mergesetOf (removed sold [102]) := by
  obtain ⟨diff, success⟩ := processRemoval_removed
  exact .removal sold_hashed (by simp) success

theorem stores_removed (block : BlueScoredChainBlockHash) :
    (removed sold [102]).Stores block ↔ block = deployBlock.block := by
  obtain ⟨diff, success⟩ := processRemoval_removed
  have wf := (HashedRun.scored sold_hashed).toWf
  have stored : sold.blockhashToScore.get 102 = some 2 :=
    wf.indexed.2 ((stores_sold ⟨2, 102⟩).2 (.inr rfl))
  have cut : sold.identifyReorgBlocksAndDelete [102] none = (sold.below 2, some 2) :=
    wf.identifyReorgBlocksAndDelete (show 2 ≤ u64Max by decide) (by simp [stored]) (by simp)
      (.inl ⟨102, by simp, stored⟩)
  rw [processRemoval_chain success, cut, ChainStore.stores_below, stores_sold]
  constructor
  · intro kept
    rcases kept with ⟨deploy | sale, low⟩
    · exact deploy
    · rw [sale] at low
      cases Nat.lt_irrefl 2 low
  · intro same
    rw [same]
    exact ⟨.inl rfl, by decide⟩

theorem sale_admissible : Admissible kaspa (removed sold [102]) [saleBlock] where
  valid := by
    intro mergeset member
    rw [List.mem_singleton.1 member]
    exact saleBlock_valid
  ascending := List.pairwise_singleton _ _
  unforked := by
    apply Db.Unforked.of_above
    intro mergeset member block stored
    rw [List.mem_singleton.1 member]
    rw [(stores_removed block).1 stored]
    decide

theorem resold_hashed : HashedRun kaspa mergesetOf resold := by
  obtain ⟨diff, success⟩ :=
    processAdditions_added (UnforkedRun.unforkedReachable removed_hashed) sale_admissible
  exact UnforkedRun.added removed_hashed sale_admissible (by decide) success

theorem stores_resold (block : BlueScoredChainBlockHash) :
    sold.Stores block ↔ resold.Stores block := by
  have tip : (removed sold [102]).lastAcceptedBlock = some deployBlock.block := by
    apply ChainStore.lastAcceptedBlock_of_greatest
    · exact (stores_removed _).2 rfl
    · intro other stored different
      exact absurd ((stores_removed other).1 stored) different
  rw [resold, stores_added (UnforkedRun.unforkedReachable removed_hashed) sale_admissible, tip,
    stores_removed, stores_sold]
  simp [Mergeset.block, deployBlock, saleBlock]

end Sample

theorem HashedRun.converges_resold :
    Sample.sold.toLedger = Sample.resold.toLedger ∧
      Sample.sold.toChainStore = Sample.resold.toChainStore ∧
      ∃ replayed diff,
        processAdditions Sample.kaspa .new (Sample.sold.mergesets Sample.mergesetOf) =
          .ok (replayed, diff) ∧
        replayed.toLedger = Sample.sold.toLedger ∧
        replayed.toChainStore = Sample.sold.toChainStore :=
  HashedRun.converges Sample.sold_hashed Sample.resold_hashed Sample.stores_resold

end Krc721
