import Krc721.Processor.GuardedRun
import Krc721.Processor.ReachableInvariants

/-! The indexes of the chain and of the log: blocks by score and by hash, operations by score and
by transaction. They agree in every database that additions and removals reach. -/

set_option autoImplicit false

namespace Krc721

open OrderedStore

def calculateBlueScoreFromTxScore (kaspa : Kaspa) (txScore : ℕ) : ℕ :=
  txScore / (kaspa.mergeSetLimit * BLOCK_TX_CAPACITY)

/-- A run in which every block hash has one blue score. -/
abbrev ScoredRun (kaspa : Kaspa) (scoreOf : RpcHash → ℕ) : Db → Prop :=
  UnforkedRun kaspa (fun _ mergesets => ∀ mergeset ∈ mergesets,
    scoreOf mergeset.acceptedChainBlockHash = mergeset.blueScore) fun _ _ _ => True

/-- The indexes agree, and every operation belongs to a stored block. -/
structure IndexesAgree (kaspa : Kaspa) (db : Db) : Prop where
  blocks : ∀ score hash, (db.chainBlockScores.get ⟨score, hash⟩).isSome ↔
    db.blockhashToScore.get hash = some score
  transactions : ∀ txId score, db.txIdToOpscore.get txId = some score ↔
    ∃ checked, db.operationHistory.get score = some checked ∧
      checked.operation.common.txId = txId
  stored : ∀ score, (db.operationHistory.get score).isSome → ∃ hash,
    (db.chainBlockScores.get ⟨calculateBlueScoreFromTxScore kaspa score, hash⟩).isSome

/-- The four partitions hold nothing at or above a blue score. -/
structure EndsBelow (kaspa : Kaspa) (db : Db) (blueScore : ℕ) : Prop where
  blocks : ∀ block, (db.chainBlockScores.get block).isSome → block.blueScore < blueScore
  hashes : ∀ hash score, db.blockhashToScore.get hash = some score → score < blueScore
  operations : ∀ score, (db.operationHistory.get score).isSome →
    calculateBlueScoreFromTxScore kaspa score < blueScore
  transactions : ∀ txId score, db.txIdToOpscore.get txId = some score →
    calculateBlueScoreFromTxScore kaspa score < blueScore

/-! Blocks. -/

/-- The index of the blocks is exact, and every stored hash has its own score. -/
structure ChainStore.Scored (chain : ChainStore) (scoreOf : RpcHash → ℕ) : Prop extends
    chain.Wf where
  scored : ∀ {hash score}, chain.blockhashToScore.get hash = some score → scoreOf hash = score

namespace ChainStore.Scored

variable {chain : ChainStore} {scoreOf : RpcHash → ℕ} {mergeset : Mergeset}

theorem newHash (scored : chain.Scored scoreOf) (above : mergeset.Above chain)
    (own : scoreOf mergeset.acceptedChainBlockHash = mergeset.blueScore) :
    chain.blockhashToScore.get mergeset.acceptedChainBlockHash = none := by
  cases stored : chain.blockhashToScore.get mergeset.acceptedChainBlockHash with
  | none => rfl
  | some score =>
      have below := above _ (scored.indexed.1 stored)
      have same := scored.scored stored
      simp only at below
      omega

theorem accept (scored : chain.Scored scoreOf) (above : mergeset.Above chain)
    (own : scoreOf mergeset.acceptedChainBlockHash = mergeset.blueScore) :
    (chain.accept mergeset).Scored scoreOf where
  toWf := scored.toWf.accept (scored.newHash above own)
  scored := by
    intro hash score stored
    simp only [ChainStore.accept, Partition.get_insert] at stored
    split at stored
    · rename_i same
      cases stored
      rw [← same, own]
    · exact scored.scored stored

theorem identified (scored : chain.Scored scoreOf) (removed : List RpcHash)
    (forced : Option ℕ) : (chain.identifyReorgBlocksAndDelete removed forced).1.Scored scoreOf := by
  cases found : (chain.identifyReorgBlocksAndDelete removed forced).2 with
  | none =>
      rw [(identifyReorgBlocksAndDelete_blocks chain removed forced).2 found]
      exact scored
  | some minBlueScore =>
      rw [scored.toWf.identified removed forced found]
      refine ⟨scored.toWf.below minBlueScore, fun {hash score} stored => ?_⟩
      rw [ChainStore.below, Partition.get_below_eq_some_iff] at stored
      exact scored.scored stored.1

end ChainStore.Scored

namespace ScoredRun

variable {kaspa : Kaspa} {scoreOf : RpcHash → ℕ} {db : Db}

theorem scored (run : ScoredRun kaspa scoreOf db) : db.toChainStore.Scored scoreOf := by
  refine UnforkedRun.invariant (fun db => db.toChainStore.Scored scoreOf) run ?_ ?_ ?_
    fun _ _ kept => kept
  · exact ⟨⟨by simp [Db.new]⟩, by simp [Db.new]⟩
  · intro db db' mergesets _ own grown kept
    refine grown.preserves (fun db => db.toChainStore.Scored scoreOf) ?_ ?_ kept
    · intro db mergeset member above scored
      exact scored.accept above (own mergeset member)
    · intro bound db db' context checked _ _ _ applied scored
      change db'.toChainStore.Scored scoreOf
      rw [applied.frame.2.1]
      exact scored
  · intro db db' removed forced _ _ rolledBack kept
    rw [rolledBack.chain]
    exact kept.identified removed forced

end ScoredRun

/-! Operations. -/

/-- The blue score of a tx score is that of the block whose scores it is among. -/
theorem calculateBlueScoreFromTxScore_eq {kaspa : Kaspa} {score blueScore : ℕ}
    (reached : blueScore * kaspa.blockCapacity ≤ score)
    (below : score < (blueScore + 1) * kaspa.blockCapacity) :
    calculateBlueScoreFromTxScore kaspa score = blueScore :=
  Nat.div_eq_of_lt_le reached below

/-- A score below the threshold of a removal has a smaller blue score. -/
theorem calculateBlueScoreFromTxScore_lt {kaspa : Kaspa} {score minBlueScore : ℕ}
    (below : score < calculateTxScoreFromBlue kaspa minBlueScore) :
    calculateBlueScoreFromTxScore kaspa score < minBlueScore := by
  have capacity : 0 < kaspa.blockCapacity := Nat.mul_pos kaspa.mergeSetLimit_pos (by decide)
  have whole : calculateTxScoreFromBlue kaspa minBlueScore ≤
      minBlueScore * kaspa.blockCapacity := by
    refine (Nat.mod_le _ _).trans ?_
    simp [Kaspa.blockCapacity, mul_assoc]
  exact (Nat.div_lt_iff_lt_mul capacity).2 (below.trans_le whole)

/-- In every database of a run the indexes agree, and a removal leaves nothing at or above the
least blue score it finds. -/
theorem ScoredRun.indexes_agree {kaspa : Kaspa} {scoreOf : RpcHash → ℕ} {db : Db}
    (run : ScoredRun kaspa scoreOf db) :
    IndexesAgree kaspa db ∧ ∀ removed forced, ∃ db' diff,
      processRemoval kaspa db removed forced = .ok (db', diff) ∧
        ∀ minBlueScore, (db.identifyReorgBlocksAndDelete removed forced).2 = some minBlueScore →
          EndsBelow kaspa db' minBlueScore := by
  have scored := ScoredRun.scored run
  have consistent := run.consistent
  obtain ⟨bound, replay⟩ := consistent.replay
  refine ⟨⟨fun score hash => scored.indexed.symm, fun txId score => replay.wf.log.indexed, ?_⟩, ?_⟩
  · intro score present
    obtain ⟨checked, logged⟩ := Option.isSome_iff_exists.1 present
    obtain ⟨block, stored, reached, below⟩ := consistent.covered score checked logged
    refine ⟨block.blockHash, ?_⟩
    rw [calculateBlueScoreFromTxScore_eq reached below]
    exact stored
  · intro removed forced
    obtain ⟨db', diff, success, rolledBack⟩ := consistent.processRemoval removed forced
    refine ⟨db', diff, success, fun minBlueScore found => ?_⟩
    have chain : db'.toChainStore = db.toChainStore.below minBlueScore :=
      rolledBack.chain.trans (scored.toWf.identified removed forced found)
    have extended := rolledBack.extended (calculateTxScoreFromBlue kaspa minBlueScore)
      (by rw [removalThreshold, found, Option.map_some])
    constructor
    · intro block present
      rw [congrArg ChainStore.chainBlockScores chain, ChainStore.below,
        Partition.isSome_get_below block.blueScore fun _ => rfl] at present
      exact present.2
    · intro hash score stored
      rw [congrArg ChainStore.blockhashToScore chain, ChainStore.below,
        Partition.get_below_eq_some_iff] at stored
      exact stored.2
    · intro score present
      obtain ⟨checked, logged⟩ := Option.isSome_iff_exists.1 present
      rw [← extended.operationHistory, Partition.get_below_eq_some_iff] at logged
      exact calculateBlueScoreFromTxScore_lt logged.2
    · intro txId score stored
      rw [← extended.txIdToOpscore, Partition.get_below_eq_some_iff] at stored
      exact calculateBlueScoreFromTxScore_lt stored.2

theorem Sample.sold_scored : ScoredRun Sample.kaspa (fun hash => hash - 100) Sample.sold := by
  obtain ⟨diff, success⟩ := Sample.processAdditions_added .new Sample.chain_admissible
  exact UnforkedRun.added .new Sample.chain_admissible (by decide) success

theorem ScoredRun.indexes_agree_sale :
    IndexesAgree Sample.kaspa Sample.sold ∧ ∀ removed forced, ∃ db' diff,
      processRemoval Sample.kaspa Sample.sold removed forced = .ok (db', diff) ∧
        ∀ minBlueScore,
          (Sample.sold.identifyReorgBlocksAndDelete removed forced).2 = some minBlueScore →
            EndsBelow Sample.kaspa db' minBlueScore :=
  ScoredRun.indexes_agree Sample.sold_scored

namespace Sample

/-- Mints of two transactions in blocks of one blue score. -/
def forkedLog : List ChainStep := [
  .add [block 1 101 0 [deploys 1 2 0]],
  .add [block 2 102 0 [mints 2]],
  .add [block 2 202 0 [mints 3]]]

end Sample

/-- The second mint takes the place of the first one in the log, and the index keeps both. -/
theorem GuardedRun.not_indexesAgree_forked : ∃ scoreOf : RpcHash → ℕ,
    GuardedRun Sample.kaspa (fun _ mergesets => ∀ mergeset ∈ mergesets,
        scoreOf mergeset.acceptedChainBlockHash = mergeset.blueScore) (fun _ _ _ => True)
      (Sample.reached Sample.forkedLog) ∧
      ¬ IndexesAgree Sample.kaspa (Sample.reached Sample.forkedLog) := by
  refine ⟨fun hash => hash % 100, Sample.reached_run (by decide) (by decide +kernel),
    fun agree => ?_⟩
  have indexed : (Sample.reached Sample.forkedLog).txIdToOpscore.get 2 = some 4000 := by
    decide +kernel
  have last : ((Sample.reached Sample.forkedLog).operationHistory.get 4000).map
      (·.operation.common.txId) = some 3 := by decide +kernel
  obtain ⟨checked, logged, txId⟩ := (agree.transactions 2 4000).1 indexed
  rw [logged, Option.map_some, txId] at last
  cases last

end Krc721
