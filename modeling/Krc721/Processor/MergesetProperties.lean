import Krc721.Store.MixedRadix
import Krc721.Processor.ChainProperties

/-! Mergesets as the node delivers them. The scores of a mergeset lie between those of its
chain block and of the next one, so a mergeset above the tip is processed without a fault. -/

set_option autoImplicit false

namespace Krc721

open OrderedStore

/-- The scores that belong to one chain block. -/
def Kaspa.blockCapacity (kaspa : Kaspa) : ℕ := kaspa.mergeSetLimit * BLOCK_TX_CAPACITY

/-- What the node and the analyzer promise of a mergeset: positions are within the network
bounds and ascend, transactions are distinct, deployments are sound, and the scores of its
blue score fit into 64 bits. -/
structure Mergeset.Valid (kaspa : Kaspa) (mergeset : Mergeset) : Prop where
  within : ∀ op ∈ mergeset.operations, op.blockIndexWithinMergeset < kaspa.mergeSetLimit ∧
    op.indexWithinMergedBlock < BLOCK_TX_CAPACITY
  ascending : mergeset.operations.Pairwise fun left right =>
    left.blockIndexWithinMergeset < right.blockIndexWithinMergeset ∨
      left.blockIndexWithinMergeset = right.blockIndexWithinMergeset ∧
        left.indexWithinMergedBlock < right.indexWithinMergedBlock
  distinct : mergeset.operations.Pairwise fun left right =>
    left.operation.common.txId ≠ right.operation.common.txId
  sound : ∀ op ∈ mergeset.operations, op.operation.Sound
  fits : (mergeset.blueScore + 1) * kaspa.blockCapacity ≤ 2 ^ 64

instance (kaspa : Kaspa) (mergeset : Mergeset) : Decidable (mergeset.Valid kaspa) :=
  decidable_of_iff
    ((∀ op ∈ mergeset.operations, op.blockIndexWithinMergeset < kaspa.mergeSetLimit ∧
        op.indexWithinMergedBlock < BLOCK_TX_CAPACITY) ∧
      (mergeset.operations.Pairwise fun left right =>
        left.blockIndexWithinMergeset < right.blockIndexWithinMergeset ∨
          left.blockIndexWithinMergeset = right.blockIndexWithinMergeset ∧
            left.indexWithinMergedBlock < right.indexWithinMergedBlock) ∧
      (mergeset.operations.Pairwise fun left right =>
        left.operation.common.txId ≠ right.operation.common.txId) ∧
      (∀ op ∈ mergeset.operations, op.operation.Sound) ∧
      (mergeset.blueScore + 1) * kaspa.blockCapacity ≤ 2 ^ 64)
    ⟨fun ⟨within, ascending, distinct, sound, fits⟩ => ⟨within, ascending, distinct, sound, fits⟩,
      fun valid => ⟨valid.within, valid.ascending, valid.distinct, valid.sound, valid.fits⟩⟩

/-! Scores. -/

section Scores

variable {kaspa : Kaspa} {blueScore : ℕ}

theorem calculateTxScoreFromBlue_eq (fits : (blueScore + 1) * kaspa.blockCapacity ≤ 2 ^ 64) :
    calculateTxScoreFromBlue kaspa blueScore = blueScore * kaspa.blockCapacity := by
  have positive : 0 < kaspa.blockCapacity :=
    Nat.mul_pos kaspa.mergeSetLimit_pos (by decide)
  rw [Nat.succ_mul] at fits
  rw [calculateTxScoreFromBlue, calculateTxScore, zero_mul, add_zero, add_zero, mul_assoc]
  exact Nat.mod_eq_of_lt (by unfold Kaspa.blockCapacity at *; omega)

/-- A score within the bounds is the score of its chain block plus its position. -/
theorem calculateTxScore_eq (fits : (blueScore + 1) * kaspa.blockCapacity ≤ 2 ^ 64)
    {block index : ℕ} (blockLt : block < kaspa.mergeSetLimit)
    (indexLt : index < BLOCK_TX_CAPACITY) :
    calculateTxScore kaspa blueScore block index =
        blueScore * kaspa.blockCapacity + (block * BLOCK_TX_CAPACITY + index) ∧
      block * BLOCK_TX_CAPACITY + index < kaspa.blockCapacity := by
  have position : block * BLOCK_TX_CAPACITY + index < kaspa.blockCapacity :=
    packed_lt_mul blockLt indexLt
  refine ⟨?_, position⟩
  rw [Nat.succ_mul] at fits
  rw [calculateTxScore, mul_assoc, ← Kaspa.blockCapacity, add_assoc]
  exact Nat.mod_eq_of_lt (by omega)

end Scores

section Mergeset

variable {kaspa : Kaspa} {db : Db} {mergeset : Mergeset}

theorem mem_scoredOperations {context : ContextOperation} :
    context ∈ scoredOperations kaspa db mergeset ↔ ∃ op ∈ mergeset.operations,
      db.txIdToOpscore.get op.operation.common.txId = none ∧ context = {
        txScore := calculateTxScore kaspa mergeset.blueScore op.blockIndexWithinMergeset
          op.indexWithinMergedBlock
        operation := op.operation
        mergesetEntropy := mergeset.entropy } := by
  simp only [scoredOperations, List.mem_filterMap]
  refine exists_congr fun op => and_congr_right fun _ => ?_
  cases db.txIdToOpscore.get op.operation.common.txId with
  | none => simp [eq_comm]
  | some score => simp

/-- The loop is given operations with the scores of the chain block. -/
theorem Mergeset.Valid.fresh (valid : mergeset.Valid kaspa) (db : Db) :
    Fresh db (calculateTxScoreFromBlue kaspa mergeset.blueScore)
        (scoredOperations kaspa db mergeset) ∧
      ∀ context ∈ scoredOperations kaspa db mergeset,
        context.txScore < (mergeset.blueScore + 1) * kaspa.blockCapacity := by
  have bounds : ∀ context ∈ scoredOperations kaspa db mergeset,
      calculateTxScoreFromBlue kaspa mergeset.blueScore ≤ context.txScore ∧
        context.txScore < (mergeset.blueScore + 1) * kaspa.blockCapacity := by
    intro context member
    obtain ⟨op, inMergeset, _, rfl⟩ := mem_scoredOperations.1 member
    obtain ⟨blockLt, indexLt⟩ := valid.within op inMergeset
    obtain ⟨score, position⟩ := calculateTxScore_eq valid.fits blockLt indexLt
    rw [calculateTxScoreFromBlue_eq valid.fits, Nat.succ_mul]
    simp only [score]
    omega
  have pairs : ∀ {relation : ContextOperation → ContextOperation → Prop},
      (mergeset.operations.Pairwise fun left right =>
        relation
          ⟨calculateTxScore kaspa mergeset.blueScore left.blockIndexWithinMergeset
            left.indexWithinMergedBlock, left.operation, mergeset.entropy⟩
          ⟨calculateTxScore kaspa mergeset.blueScore right.blockIndexWithinMergeset
            right.indexWithinMergedBlock, right.operation, mergeset.entropy⟩) →
      (scoredOperations kaspa db mergeset).Pairwise relation := by
    intro relation pairwise
    refine List.Pairwise.filterMap _ ?_ pairwise
    intro left right related leftContext leftEq rightContext rightEq
    split at leftEq
    · cases leftEq
    · split at rightEq
      · cases rightEq
      · cases leftEq
        cases rightEq
        exact related
  refine ⟨⟨fun context member => (bounds context member).1, pairs ?_, ?_, ?_, ?_, pairs ?_⟩,
    fun context member => (bounds context member).2⟩
  · refine valid.ascending.imp_of_mem fun {left right} leftMember rightMember before => ?_
    obtain ⟨leftBlock, leftIndex⟩ := valid.within left leftMember
    obtain ⟨rightBlock, rightIndex⟩ := valid.within right rightMember
    simp only
    rw [(calculateTxScore_eq valid.fits leftBlock leftIndex).1,
      (calculateTxScore_eq valid.fits rightBlock rightIndex).1]
    unfold BLOCK_TX_CAPACITY at *
    omega
  · intro context member
    have below := (bounds context member).2
    have fits := valid.fits
    rw [← lt_two_pow_iff_le_u64Max]
    omega
  · intro context member
    obtain ⟨op, inMergeset, _, rfl⟩ := mem_scoredOperations.1 member
    exact valid.sound op inMergeset
  · intro context member
    obtain ⟨op, inMergeset, fresh, rfl⟩ := mem_scoredOperations.1 member
    exact fresh
  · exact valid.distinct

/-- A mergeset above the tip is accepted: its block is stored and its operations run. What
they do to the database does not depend on the tip or on the counters. -/
theorem processMergeset_next
    (wf : db.toLedger.Wf (calculateTxScoreFromBlue kaspa mergeset.blueScore))
    (valid : mergeset.Valid kaspa)
    (newBlock : db.chainBlockScores.get
      ⟨mergeset.blueScore, mergeset.acceptedChainBlockHash⟩ = none) :
    ∃ db' added last,
      (∀ lastAcceptedBlueScore diff, lastAcceptedBlueScore ≤ mergeset.blueScore →
        processMergeset kaspa lastAcceptedBlueScore db diff mergeset =
          .ok (db', diff + added)) ∧
      Run kaspa (calculateTxScoreFromBlue kaspa mergeset.blueScore)
        { db with toChainStore := db.toChainStore.accept mergeset } last db' ∧
      last ≤ (mergeset.blueScore + 1) * kaspa.blockCapacity ∧
      ∀ score checked, db'.operationHistory.get score = some checked →
        db.operationHistory.get score = some checked ∨
          calculateTxScoreFromBlue kaspa mergeset.blueScore ≤ score ∧
            score < (mergeset.blueScore + 1) * kaspa.blockCapacity ∧
            ∃ op ∈ mergeset.operations, checked.Records op.operation := by
  obtain ⟨given, below⟩ :=
    valid.fresh { db with toChainStore := db.toChainStore.accept mergeset }
  obtain ⟨db', added, last, loop, run, limits, logged⟩ := processNftOperations_run
    { db with toChainStore := db.toChainStore.accept mergeset } 0 wf given
  refine ⟨db', added, last, fun lastAcceptedBlueScore diff above => ?_, run,
    limits _ ?_ below, fun score checked present => ?_⟩
  · unfold processMergeset
    simp only [if_neg (not_lt.2 above), newBlock, Option.isSome_none, Bool.false_eq_true,
      if_false, loop]
  · rw [calculateTxScoreFromBlue_eq valid.fits, Nat.succ_mul]
    omega
  · refine (logged score checked present).imp id ?_
    rintro ⟨context, member, rfl, records⟩
    refine ⟨given.reached context member, below context member, ?_⟩
    obtain ⟨op, inMergeset, _, rfl⟩ := mem_scoredOperations.1 member
    exact ⟨op, inMergeset, records⟩

end Mergeset

end Krc721
