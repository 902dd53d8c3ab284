import Mathlib

/-! Big-endian integers as key bytes, and how byte strings of fixed-width fields compare.
A place holds a natural number, so the leading place of a value that is too wide for its
field keeps the excess: the layout is injective on every natural number and is the usual
one on every value that fits. -/

set_option autoImplicit false

namespace OrderedStore

/-- The big-endian base 256 digits of `value` in `width` places. -/
def toBeBytes : ℕ → ℕ → List ℕ
  | 0, _ => []
  | 1, value => [value]
  | width + 2, value =>
      value / 256 ^ (width + 1) :: toBeBytes (width + 1) (value % 256 ^ (width + 1))

@[simp] theorem length_toBeBytes (width value : ℕ) : (toBeBytes width value).length = width := by
  induction width, value using toBeBytes.induct with
  | case1 => rfl
  | case2 => rfl
  | case3 width value ih => simp [toBeBytes, ih]

/-- Byte strings that begin with equally long fields compare by those fields first. -/
theorem append_lt_append_iff {left left' : List ℕ} (rest rest' : List ℕ)
    (sameLength : left.length = left'.length) :
    left ++ rest < left' ++ rest' ↔ left < left' ∨ left = left' ∧ rest < rest' := by
  induction left generalizing left' with
  | nil =>
      cases left' with
      | nil => simp
      | cons head tail => simp at sameLength
  | cons head tail ih =>
      cases left' with
      | nil => simp at sameLength
      | cons head' tail' =>
          have tails : tail ++ rest < tail' ++ rest' ↔ _ := ih (by simpa using sameLength)
          simp only [List.cons_append, List.cons_lt_cons_iff, tails, List.cons.injEq]
          tauto

/-- A list between two extensions of a prefix has that prefix. -/
theorem prefix_of_between {front list : List ℕ} {low high : List ℕ}
    (above : front ++ low ≤ list) (below : list ≤ front ++ high) : front <+: list := by
  induction front generalizing list with
  | nil => exact List.nil_prefix
  | cons byte front ih =>
      cases list with
      | nil => exact absurd (List.nil_lt_cons _ _) (not_lt.2 above)
      | cons byte' list =>
          rw [← not_lt, List.cons_append, List.cons_lt_cons_iff] at above below
          have same : byte = byte' := by omega
          subst same
          simp only [lt_self_iff_false, true_and, false_or, not_lt] at above below
          exact (List.prefix_cons_inj byte).2 (ih above below)

/-- Between two pairs with the same first part, in the lexicographic order, that part is the
same and the second parts decide. -/
theorem between_same_first {First : Type} [LinearOrder First] {first bound : First}
    {below above : Prop} :
    (¬ (first < bound ∨ first = bound ∧ below) ∧ ¬ (bound < first ∨ bound = first ∧ above)) ↔
      first = bound ∧ ¬ below ∧ ¬ above := by
  constructor
  · rintro ⟨notBelow, notAbove⟩
    simp only [not_or, not_and, not_lt] at notBelow notAbove
    have same : first = bound := le_antisymm notAbove.1 notBelow.1
    exact ⟨same, notBelow.2 same, notAbove.2 same.symm⟩
  · rintro ⟨rfl, notBelow, notAbove⟩
    simp [notBelow, notAbove]

/-- Big-endian digits compare as the numbers they stand for. -/
theorem toBeBytes_lt_toBeBytes_iff {width : ℕ} (positive : 0 < width) (value value' : ℕ) :
    toBeBytes width value < toBeBytes width value' ↔ value < value' := by
  induction width, value using toBeBytes.induct generalizing value' with
  | case1 => simp at positive
  | case2 value => simp [toBeBytes, List.cons_lt_cons_iff]
  | case3 width value ih =>
      simp only [toBeBytes, List.cons_lt_cons_iff, ih (Nat.succ_pos width)]
      have whole := Nat.div_add_mod value (256 ^ (width + 1))
      have whole' := Nat.div_add_mod value' (256 ^ (width + 1))
      have base : 0 < 256 ^ (width + 1) := Nat.pos_of_neZero _
      have rest := Nat.mod_lt value base
      have rest' := Nat.mod_lt value' base
      constructor
      · intro digits
        rcases digits with quotient | ⟨quotient, remainder⟩
        · have scaled := Nat.mul_le_mul_left (256 ^ (width + 1)) quotient
          rw [Nat.succ_eq_add_one, Nat.mul_add, Nat.mul_one] at scaled
          omega
        · rw [quotient] at whole
          omega
      · intro less
        rcases Nat.lt_or_ge (value / 256 ^ (width + 1)) (value' / 256 ^ (width + 1)) with
          quotient | quotient
        · exact .inl quotient
        · have equal : value / 256 ^ (width + 1) = value' / 256 ^ (width + 1) :=
            Nat.le_antisymm (Nat.div_le_div_right less.le) quotient
          refine .inr ⟨equal, ?_⟩
          rw [equal] at whole
          omega

theorem toBeBytes_injective {width : ℕ} (positive : 0 < width) :
    Function.Injective (toBeBytes width) := by
  intro value value' equal
  rcases Nat.lt_trichotomy value value' with less | same | greater
  · have := (toBeBytes_lt_toBeBytes_iff positive value value').2 less
    exact absurd (equal ▸ this) (lt_irrefl _)
  · exact same
  · have := (toBeBytes_lt_toBeBytes_iff positive value' value).2 greater
    exact absurd (equal ▸ this) (lt_irrefl _)

@[simp] theorem toBeBytes_inj {width : ℕ} [NeZero width] {value value' : ℕ} :
    toBeBytes width value = toBeBytes width value' ↔ value = value' :=
  (toBeBytes_injective (Nat.pos_of_neZero width)).eq_iff

/-- A field of fixed width in front of the rest of a key. -/
theorem toBeBytes_append_lt_iff {width : ℕ} [NeZero width] (value value' : ℕ)
    (rest rest' : List ℕ) :
    toBeBytes width value ++ rest < toBeBytes width value' ++ rest' ↔
      value < value' ∨ value = value' ∧ rest < rest' := by
  rw [append_lt_append_iff _ _ (by simp),
    toBeBytes_lt_toBeBytes_iff (Nat.pos_of_neZero width), toBeBytes_inj]

theorem toBeBytes_append_inj {width : ℕ} [NeZero width] {value value' : ℕ}
    {rest rest' : List ℕ} :
    toBeBytes width value ++ rest = toBeBytes width value' ++ rest' ↔
      value = value' ∧ rest = rest' := by
  constructor
  · intro equal
    obtain ⟨front, back⟩ := List.append_inj equal (by simp)
    exact ⟨toBeBytes_inj.1 front, back⟩
  · rintro ⟨rfl, rfl⟩
    rfl

end OrderedStore
