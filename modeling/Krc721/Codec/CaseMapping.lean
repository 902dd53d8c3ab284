import Mathlib.Data.List.Basic
import Mathlib.Order.Basic

/-! The case mappings of strings as the standard library computes them from the tables of the
Unicode Character Database: one character after the other, with one exception for the Greek
capital sigma, whose lower case depends on its place in the word. -/

set_option autoImplicit false

namespace CaseMapping

/-- The tables of one version of the database. -/
structure Tables where
  toUpper : Char → List Char
  toLower : Char → List Char
  isAlphanumeric : Char → Bool
  cased : Char → Bool
  caseIgnorable : Char → Bool

namespace Tables

variable (tables : Tables)

def toUppercase (text : List Char) : List Char := text.flatMap tables.toUpper

def caseIgnorableThenCased (chars : List Char) : Bool :=
  match chars.dropWhile tables.caseIgnorable with
  | [] => false
  | char :: _ => tables.cased char

/-- `map_uppercase_sigma`, with the characters in front of the sigma in reverse. -/
def mapUppercaseSigma (before after : List Char) : Char :=
  if tables.caseIgnorableThenCased before && !tables.caseIgnorableThenCased after then 'ς'
  else 'σ'

/-- The lower case of what follows the characters in reverse. -/
def lowerFrom (before : List Char) : List Char → List Char
  | [] => []
  | char :: after =>
      (if char = 'Σ' then [tables.mapUppercaseSigma before after] else tables.toLower char) ++
        lowerFrom (char :: before) after

def toLowercase (text : List Char) : List Char := tables.lowerFrom [] text

/-- What every version of the database says: characters in upper case stay as they are, nothing
is mapped to the empty text, the sigmas belong together, and no alphanumeric character comes
before the digit `0`. -/
structure Laws : Prop where
  upper_upper : ∀ char, ∀ upper ∈ tables.toUpper char, tables.toUpper upper = [upper]
  upper_ne_nil : ∀ char, tables.toUpper char ≠ []
  lower_ne_nil : ∀ char, tables.toLower char ≠ []
  lower_sigma : tables.toLower 'Σ' = ['σ']
  upper_sigma : tables.toUpper 'σ' = ['Σ']
  upper_finalSigma : tables.toUpper 'ς' = ['Σ']
  zero_le : ∀ char, tables.isAlphanumeric char = true → 48 ≤ char.toNat

/-- The lower case of the character leads back to the upper case of the character. -/
def Returns (char : Char) : Prop :=
  tables.toUppercase (tables.toLower char) = tables.toUpper char

instance (char : Char) : Decidable (tables.Returns char) :=
  inferInstanceAs (Decidable (_ = _))

end Tables

variable {tables : Tables} {text text' before : List Char}

theorem flatMap_eq_self_iff {f : Char → List Char} (nonempty : ∀ char, f char ≠ []) :
    text.flatMap f = text ↔ ∀ char ∈ text, f char = [char] := by
  have length_le : ∀ text : List Char, text.length ≤ (text.flatMap f).length := by
    intro text
    induction text with
    | nil => exact Nat.le_refl _
    | cons char text ih =>
        have positive := List.length_pos_iff.2 (nonempty char)
        rw [List.flatMap_cons, List.length_append, List.length_cons]
        omega
  induction text with
  | nil => simp
  | cons char text ih =>
      rw [List.flatMap_cons, List.forall_mem_cons]
      constructor
      · intro same
        have positive := List.length_pos_iff.2 (nonempty char)
        have whole := congrArg List.length same
        have rest := length_le text
        rw [List.length_append, List.length_cons] at whole
        obtain ⟨first, unchanged⟩ := @List.append_inj _ _ [char] _ _ same
          (by rw [List.length_singleton]; omega)
        exact ⟨first, ih.1 unchanged⟩
      · rintro ⟨first, others⟩
        rw [first, ih.2 others, List.singleton_append]

namespace Tables

theorem toUppercase_append :
    tables.toUppercase (text ++ text') = tables.toUppercase text ++ tables.toUppercase text' :=
  List.flatMap_append

theorem Laws.toUppercase_idem (laws : tables.Laws) :
    tables.toUppercase (tables.toUppercase text) = tables.toUppercase text := by
  refine (flatMap_eq_self_iff laws.upper_ne_nil).2 fun upper member => ?_
  obtain ⟨char, _, inUpper⟩ := List.mem_flatMap.1 member
  exact laws.upper_upper char upper inUpper

/-- In which form a sigma is lower-cased does not matter when it is upper-cased again. -/
theorem Laws.toUppercase_lowerFrom (laws : tables.Laws) :
    tables.toUppercase (tables.lowerFrom before text) =
      text.flatMap fun char => tables.toUppercase (tables.toLower char) := by
  induction text generalizing before with
  | nil => rfl
  | cons char after ih =>
      rw [lowerFrom, toUppercase_append, ih, List.flatMap_cons]
      congr 1
      split
      · rename_i sigma
        rw [sigma, laws.lower_sigma, mapUppercaseSigma]
        split
        · simp only [toUppercase, List.flatMap_cons, List.flatMap_nil, laws.upper_sigma,
            laws.upper_finalSigma]
        · rfl
      · rfl

/-- The upper case survives lower-casing if every character returns. -/
theorem Laws.toUppercase_toLowercase (laws : tables.Laws)
    (returns : ∀ char ∈ text, tables.Returns char) :
    tables.toUppercase (tables.toLowercase text) = tables.toUppercase text := by
  rw [toLowercase, laws.toUppercase_lowerFrom]
  exact List.flatMap_congr returns

/-- A text in upper case survives lower-casing if and only if each of its characters returns. -/
theorem Laws.toUppercase_toLowercase_iff (laws : tables.Laws)
    (upper : tables.toUppercase text = text) :
    tables.toUppercase (tables.toLowercase text) = text ↔
      ∀ char ∈ text, tables.Returns char := by
  have fixed := (flatMap_eq_self_iff laws.upper_ne_nil).1 upper
  have nonempty : ∀ char, tables.toUppercase (tables.toLower char) ≠ [] := by
    intro char empty
    rw [toUppercase, List.flatMap_eq_nil_iff] at empty
    obtain ⟨lower, member⟩ := List.exists_mem_of_ne_nil _ (laws.lower_ne_nil char)
    exact laws.upper_ne_nil lower (empty lower member)
  rw [toLowercase, laws.toUppercase_lowerFrom, flatMap_eq_self_iff nonempty]
  refine forall₂_congr fun char member => ?_
  rw [Returns, fixed char member]

theorem Laws.toUppercase_eq (laws : tables.Laws)
    (same : tables.toLowercase text = tables.toLowercase text')
    (returns : ∀ char ∈ text, tables.Returns char)
    (returns' : ∀ char ∈ text', tables.Returns char) :
    tables.toUppercase text = tables.toUppercase text' := by
  rw [← laws.toUppercase_toLowercase returns, same, laws.toUppercase_toLowercase returns']

end Tables

end CaseMapping
