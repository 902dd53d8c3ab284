import Mathlib.Data.Prod.Lex
import Mathlib.Tactic.Linarith

/-! Two parts packed into one number, the lower part below a base. Packed numbers compare as
the pairs do, and division takes the parts out again; packing twice gives triples. -/

set_option autoImplicit false

namespace OrderedStore

/-- The number with a higher part and a lower part below `base`. -/
def packed (base high low : ℕ) : ℕ := high * base + low

section Packed

variable {base high low high' low' : ℕ}

theorem packed_div (below : low < base) : packed base high low / base = high := by
  refine Nat.div_eq_of_lt_le (Nat.le_add_right _ _) ?_
  rw [Nat.succ_mul]
  exact Nat.add_lt_add_left below _

/-- Every number is packed from its quotient and its remainder. -/
theorem packed_div_mod (base value : ℕ) : packed base (value / base) (value % base) = value :=
  Nat.div_add_mod' value base

/-- The bound of a packed number is the product of the bounds of its parts. -/
theorem packed_lt_mul {count : ℕ} (highBelow : high < count) (below : low < base) :
    packed base high low < count * base := by
  have room : (high + 1) * base ≤ count * base := Nat.mul_le_mul_right _ highBelow
  rw [Nat.succ_mul] at room
  unfold packed
  omega

/-- A multiple of the base separates the packed numbers by their higher part. -/
theorem mul_le_packed_iff {bound : ℕ} (below : low < base) :
    bound * base ≤ packed base high low ↔ bound ≤ high := by
  rw [← Nat.le_div_iff_mul_le (Nat.zero_lt_of_lt below), packed_div below]

theorem packed_lt_of_high (below : low < base) (less : high < high') :
    packed base high low < packed base high' low' :=
  (packed_lt_mul less below).trans_le (Nat.le_add_right _ _)

/-- Packed numbers compare as the pairs of their parts. -/
theorem packed_lt_packed_iff (below : low < base) (below' : low' < base) :
    packed base high low < packed base high' low' ↔ toLex (high, low) < toLex (high', low') := by
  rw [Prod.Lex.toLex_lt_toLex]
  rcases Nat.lt_trichotomy high high' with less | same | greater
  · exact iff_of_true (packed_lt_of_high below less) (.inl less)
  · subst same
    simp [packed]
  · have reversed : packed base high' low' < packed base high low :=
      packed_lt_of_high below' greater
    refine iff_of_false reversed.not_gt ?_
    simp only
    omega

end Packed

end OrderedStore
