import Krc721.Store.MixedRadix
import Krc721.Processor.ChainIndex

/-! The score of an operation packs the blue score of its chain block, the index of its block
in the mergeset and its index in that block. As long as the packed number fits into a `u64`,
scores order operations as the chain does and carry the blue score. -/

set_option autoImplicit false

namespace Krc721

open OrderedStore

/-! The arithmetic of `calculate_tx_score` step by step. -/

/-- `none` when the product leaves the `u64`. -/
def checkedMul (left right : ℕ) : Option ℕ :=
  if left * right < 2 ^ 64 then some (left * right) else none

/-- `none` when the sum leaves the `u64`. -/
def checkedAdd (left right : ℕ) : Option ℕ :=
  if left + right < 2 ^ 64 then some (left + right) else none

/-- `calculate_tx_score` with overflow checks, as a debug build computes it. -/
def checkedTxScore (kaspa : Kaspa)
    (blueScore blockTxIndexWithinMergeset txIndexWithinMergedBlock : ℕ) : Option ℕ := do
  let blocks ← checkedMul blueScore kaspa.mergeSetLimit
  let scores ← checkedMul blocks BLOCK_TX_CAPACITY
  let offset ← checkedMul blockTxIndexWithinMergeset BLOCK_TX_CAPACITY
  let block ← checkedAdd scores offset
  checkedAdd block txIndexWithinMergedBlock

/-- The score as a natural number. -/
def exactTxScore (kaspa : Kaspa) (blueScore blockIndex txIndex : ℕ) : ℕ :=
  blueScore * kaspa.mergeSetLimit * BLOCK_TX_CAPACITY + blockIndex * BLOCK_TX_CAPACITY + txIndex

/-- No step overflows exactly when the whole score fits. -/
theorem checkedTxScore_eq (kaspa : Kaspa) (blueScore blockIndex txIndex : ℕ) :
    checkedTxScore kaspa blueScore blockIndex txIndex =
      if exactTxScore kaspa blueScore blockIndex txIndex < 2 ^ 64 then
        some (exactTxScore kaspa blueScore blockIndex txIndex)
      else none := by
  have inner : blueScore * kaspa.mergeSetLimit ≤
      blueScore * kaspa.mergeSetLimit * BLOCK_TX_CAPACITY :=
    Nat.le_mul_of_pos_right _ (by decide)
  unfold checkedTxScore exactTxScore
  by_cases fits : blueScore * kaspa.mergeSetLimit * BLOCK_TX_CAPACITY +
      blockIndex * BLOCK_TX_CAPACITY + txIndex < 2 ^ 64
  · have blocks : blueScore * kaspa.mergeSetLimit < 2 ^ 64 := by omega
    have scores : blueScore * kaspa.mergeSetLimit * BLOCK_TX_CAPACITY < 2 ^ 64 := by omega
    have offset : blockIndex * BLOCK_TX_CAPACITY < 2 ^ 64 := by omega
    have block : blueScore * kaspa.mergeSetLimit * BLOCK_TX_CAPACITY +
        blockIndex * BLOCK_TX_CAPACITY < 2 ^ 64 := by omega
    simp only [checkedMul, checkedAdd, if_pos blocks, if_pos scores, if_pos offset,
      if_pos block, if_pos fits, Option.bind_eq_bind, Option.bind_some]
  · rw [if_neg fits, Option.eq_none_iff_forall_ne_some]
    intro score returned
    simp only [checkedMul, checkedAdd, Option.bind_eq_bind, Option.bind_eq_some_iff,
      Option.ite_none_right_eq_some, Option.some.injEq] at returned
    obtain ⟨_, ⟨_, rfl⟩, _, ⟨_, rfl⟩, _, ⟨_, rfl⟩, _, ⟨_, rfl⟩, whole, _⟩ := returned
    exact fits whole

/-- The release build wraps the same number. -/
theorem calculateTxScore_mod (kaspa : Kaspa) (blueScore blockIndex txIndex : ℕ) :
    calculateTxScore kaspa blueScore blockIndex txIndex =
      exactTxScore kaspa blueScore blockIndex txIndex % 2 ^ 64 := rfl

/-- The score is packed twice: transactions in a block, and blocks in a mergeset. -/
theorem exactTxScore_eq (kaspa : Kaspa) (blueScore blockIndex txIndex : ℕ) :
    exactTxScore kaspa blueScore blockIndex txIndex =
      packed kaspa.blockCapacity blueScore (packed BLOCK_TX_CAPACITY blockIndex txIndex) := by
  unfold exactTxScore packed Kaspa.blockCapacity
  rw [mul_assoc, add_assoc]

/-! Places in the chain. -/

/-- A place for an operation: within the bounds of the network, with a score that fits. -/
structure OpPosition (kaspa : Kaspa) where
  blueScore : ℕ
  blockIndex : ℕ
  txIndex : ℕ
  blockIndex_lt : blockIndex < kaspa.mergeSetLimit
  txIndex_lt : txIndex < BLOCK_TX_CAPACITY
  fits : exactTxScore kaspa blueScore blockIndex txIndex < 2 ^ 64

namespace OpPosition

variable {kaspa : Kaspa}

/-- Blue score first, then the block, then the transaction. -/
def place (position : OpPosition kaspa) : ℕ ×ₗ ℕ ×ₗ ℕ :=
  toLex (position.blueScore, toLex (position.blockIndex, position.txIndex))

theorem place_injective : Function.Injective (@place kaspa) := by
  rintro ⟨blueScore, blockIndex, txIndex, _, _, _⟩ ⟨blueScore', blockIndex', txIndex', _, _, _⟩ same
  simp only [place, toLex_inj, Prod.mk.injEq] at same
  obtain ⟨rfl, rfl, rfl⟩ := same
  rfl

/-- Positions are ordered as the chain orders their operations. -/
instance : LinearOrder (OpPosition kaspa) := LinearOrder.lift' place place_injective

def score (position : OpPosition kaspa) : ℕ :=
  calculateTxScore kaspa position.blueScore position.blockIndex position.txIndex

theorem lt_iff {left right : OpPosition kaspa} : left < right ↔ left.place < right.place :=
  Iff.rfl

variable (position : OpPosition kaspa)

theorem within_block : packed BLOCK_TX_CAPACITY position.blockIndex position.txIndex <
    kaspa.blockCapacity :=
  packed_lt_mul position.blockIndex_lt position.txIndex_lt

theorem score_eq : position.score = packed kaspa.blockCapacity position.blueScore
    (packed BLOCK_TX_CAPACITY position.blockIndex position.txIndex) := by
  rw [score, calculateTxScore_mod, Nat.mod_eq_of_lt position.fits, exactTxScore_eq]

theorem checked_score : checkedTxScore kaspa position.blueScore position.blockIndex
    position.txIndex = some position.score := by
  rw [checkedTxScore_eq, if_pos position.fits, score, calculateTxScore_mod,
    Nat.mod_eq_of_lt position.fits]

theorem score_strictMono : StrictMono (@score kaspa) := by
  intro left right before
  rw [lt_iff, place, place, Prod.Lex.toLex_lt_toLex] at before
  rw [score_eq, score_eq, packed_lt_packed_iff left.within_block right.within_block,
    Prod.Lex.toLex_lt_toLex, packed_lt_packed_iff left.txIndex_lt right.txIndex_lt]
  exact before.imp_right fun same => ⟨same.1, same.2⟩

theorem blueScore_of_score :
    calculateBlueScoreFromTxScore kaspa position.score = position.blueScore := by
  rw [score_eq]
  exact packed_div position.within_block

/-- Every `u64` is the score of a position. -/
theorem exists_score_eq (kaspa : Kaspa) {value : ℕ} (below : value < 2 ^ 64) :
    ∃ position : OpPosition kaspa, position.score = value := by
  have capacity : 0 < kaspa.blockCapacity := Nat.mul_pos kaspa.mergeSetLimit_pos (by decide)
  have whole : exactTxScore kaspa (value / kaspa.blockCapacity)
      (value % kaspa.blockCapacity / BLOCK_TX_CAPACITY)
      (value % kaspa.blockCapacity % BLOCK_TX_CAPACITY) = value := by
    rw [exactTxScore_eq, packed_div_mod, packed_div_mod]
  refine ⟨{
    blueScore := value / kaspa.blockCapacity
    blockIndex := value % kaspa.blockCapacity / BLOCK_TX_CAPACITY
    txIndex := value % kaspa.blockCapacity % BLOCK_TX_CAPACITY
    blockIndex_lt := ?_
    txIndex_lt := Nat.mod_lt _ (by decide)
    fits := whole.symm ▸ below }, ?_⟩
  · rw [Nat.div_lt_iff_lt_mul (by decide)]
    exact Nat.mod_lt _ capacity
  · rw [score, calculateTxScore_mod, whole, Nat.mod_eq_of_lt below]

theorem threshold_eq {blueScore : ℕ} (fits : exactTxScore kaspa blueScore 0 0 < 2 ^ 64) :
    calculateTxScoreFromBlue kaspa blueScore = blueScore * kaspa.blockCapacity := by
  rw [calculateTxScoreFromBlue, calculateTxScore_mod, Nat.mod_eq_of_lt fits, exactTxScore_eq]
  simp [packed]

/-- The threshold of a blue score separates the positions at or above it from the others, if
and only if the threshold itself fits. -/
theorem threshold_iff (kaspa : Kaspa) (blueScore : ℕ) :
    (∀ position : OpPosition kaspa,
      calculateTxScoreFromBlue kaspa blueScore ≤ position.score ↔
        blueScore ≤ position.blueScore) ↔
      exactTxScore kaspa blueScore 0 0 < 2 ^ 64 := by
  constructor
  · intro separates
    have below : calculateTxScoreFromBlue kaspa blueScore < 2 ^ 64 :=
      Nat.mod_lt _ (by decide)
    -- The position whose score is the threshold bounds the blue score.
    obtain ⟨position, same⟩ := exists_score_eq kaspa below
    have reached := (separates position).1 same.ge
    calc exactTxScore kaspa blueScore 0 0
      _ = blueScore * kaspa.blockCapacity := by rw [exactTxScore_eq]; simp [packed]
      _ ≤ position.score := by
          rw [score_eq]
          exact (mul_le_packed_iff position.within_block).2 reached
      _ < 2 ^ 64 := by rw [same]; exact below
  · intro fits position
    rw [threshold_eq fits, score_eq, mul_le_packed_iff position.within_block]

end OpPosition

/-! Positions where scores are given and where they are cut. -/

/-- An operation that is handed to the loop carries the score of its position. -/
theorem Mergeset.Valid.position {kaspa : Kaspa} {mergeset : Mergeset}
    (valid : mergeset.Valid kaspa) {db : Db} {context : ContextOperation}
    (member : context ∈ scoredOperations kaspa db mergeset) :
    ∃ position : OpPosition kaspa,
      position.blueScore = mergeset.blueScore ∧ context.txScore = position.score := by
  obtain ⟨op, inMergeset, _, rfl⟩ := mem_scoredOperations.1 member
  obtain ⟨blockLt, indexLt⟩ := valid.within op inMergeset
  have inBlock : packed BLOCK_TX_CAPACITY op.blockIndexWithinMergeset
      op.indexWithinMergedBlock < kaspa.blockCapacity := packed_lt_mul blockLt indexLt
  have fits : exactTxScore kaspa mergeset.blueScore op.blockIndexWithinMergeset
      op.indexWithinMergedBlock < 2 ^ 64 := by
    rw [exactTxScore_eq]
    exact (packed_lt_mul (Nat.lt_succ_self _) inBlock).trans_le valid.fits
  exact ⟨⟨_, _, _, blockLt, indexLt, fits⟩, rfl, rfl⟩

/-- A removal keeps the operation of a position exactly when its block stays. -/
theorem RolledBack.operation_eq {kaspa : Kaspa} {db db' : Db} {removed : List RpcHash}
    {forced : Option ℕ} {minBlueScore : ℕ} (rolledBack : RolledBack kaspa db removed forced db')
    (found : (db.identifyReorgBlocksAndDelete removed forced).2 = some minBlueScore)
    (fits : exactTxScore kaspa minBlueScore 0 0 < 2 ^ 64) (position : OpPosition kaspa) :
    db'.operationHistory.get position.score =
      if position.blueScore < minBlueScore then db.operationHistory.get position.score
      else none := by
  have extended := rolledBack.extended (calculateTxScoreFromBlue kaspa minBlueScore)
    (by rw [removalThreshold, found, Option.map_some])
  have cut := (OpPosition.threshold_iff kaspa minBlueScore).2 fits position
  rw [← extended.operationHistory, Partition.get_below]
  cases db.operationHistory.get position.score with
  | none => simp
  | some checked =>
      have kept : position.score < calculateTxScoreFromBlue kaspa minBlueScore ↔
          position.blueScore < minBlueScore := by omega
      simp [Option.filter, kept]

/-- Scores embed the order of the chain. `calculate_tx_score` overflows nowhere exactly when
the whole score fits. On the positions with such a score it is strictly monotone and so
injective, and the blue score can be recovered. The threshold of a blue score separates the
positions at or above it exactly when that threshold fits. -/
theorem calculateTxScore_embeds (kaspa : Kaspa) :
    (∀ blueScore blockIndex txIndex,
      (checkedTxScore kaspa blueScore blockIndex txIndex).isSome ↔
        exactTxScore kaspa blueScore blockIndex txIndex < 2 ^ 64) ∧
    (∀ position : OpPosition kaspa, checkedTxScore kaspa position.blueScore
      position.blockIndex position.txIndex = some position.score) ∧
    StrictMono (@OpPosition.score kaspa) ∧ Function.Injective (@OpPosition.score kaspa) ∧
    (∀ position : OpPosition kaspa,
      calculateBlueScoreFromTxScore kaspa position.score = position.blueScore) ∧
    ∀ blueScore, (∀ position : OpPosition kaspa,
      calculateTxScoreFromBlue kaspa blueScore ≤ position.score ↔
        blueScore ≤ position.blueScore) ↔
      exactTxScore kaspa blueScore 0 0 < 2 ^ 64 := by
  refine ⟨?_, OpPosition.checked_score, OpPosition.score_strictMono,
    OpPosition.score_strictMono.injective, OpPosition.blueScore_of_score,
    OpPosition.threshold_iff kaspa⟩
  intro blueScore blockIndex txIndex
  rw [checkedTxScore_eq]
  split
  · exact iff_of_true rfl ‹_›
  · exact iff_of_false (by simp) ‹_›

/-- The network at ten blocks a second: a mergeset holds 248 blocks. -/
def tenBlocksPerSecond : Kaspa where
  mergeSetLimit := 248
  mergeSetLimit_pos := by decide
  payToScriptHashScript := fun script => ⟨0, script⟩

/-- The product of the blue score alone may fit where the score does not, and the threshold
of a large blue score wraps to zero. -/
theorem not_calculateTxScore_embeds_product :
    (¬ ∀ blueScore blockIndex txIndex, blockIndex < tenBlocksPerSecond.mergeSetLimit →
      txIndex < BLOCK_TX_CAPACITY →
      blueScore * tenBlocksPerSecond.mergeSetLimit * BLOCK_TX_CAPACITY < 2 ^ 64 →
      (checkedTxScore tenBlocksPerSecond blueScore blockIndex txIndex).isSome) ∧
    ¬ ∀ (position : OpPosition tenBlocksPerSecond) (blueScore : ℕ), blueScore < 2 ^ 64 →
      (calculateTxScoreFromBlue tenBlocksPerSecond blueScore ≤ position.score ↔
        blueScore ≤ position.blueScore) := by
  constructor
  · intro total
    exact absurd (total 74382032555280 112 0 (by decide) (by decide) (by decide)) (by decide)
  · intro separates
    exact absurd (separates ⟨0, 0, 0, by decide, by decide, by decide⟩ (2 ^ 61) (by decide))
      (by decide)

end Krc721
