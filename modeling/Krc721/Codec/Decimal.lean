import Mathlib.Data.Nat.Log
import Mathlib.Data.List.Infix

/-! Numbers as decimal text, and text that is cut at a separator. The numbers are read as the
standard library reads unsigned integers: a plus sign and leading zeros are allowed. -/

set_option autoImplicit false

namespace Decimal

/-- `std::num::IntErrorKind`. -/
inductive ParseIntError where
  | empty
  | invalidDigit
  | posOverflow
deriving DecidableEq

def ParseIntError.message : ParseIntError → String
  | .empty => "cannot parse integer from empty string"
  | .invalidDigit => "invalid digit found in string"
  | .posOverflow => "number too large to fit in target type"

def parseDigits (bound : ℕ) : List Char → ℕ → Except ParseIntError ℕ
  | [], value => .ok value
  | char :: digits, value =>
      if !char.isDigit then .error .invalidDigit
      else if bound ≤ 10 * value + (char.toNat - '0'.toNat) then .error .posOverflow
      else parseDigits bound digits (10 * value + (char.toNat - '0'.toNat))

/-- Read a number below a bound. -/
def parse (bound : ℕ) (text : List Char) : Except ParseIntError ℕ :=
  match text with
  | [] => .error .empty
  | ['+'] => .error .invalidDigit
  | '+' :: digits => parseDigits bound digits 0
  | digits => parseDigits bound digits 0

/-- The text before the first separator and the text behind it. -/
def splitOnce (separator : Char) (text : List Char) : Option (List Char × List Char) :=
  match text.dropWhile (· != separator) with
  | [] => none
  | _ :: back => some (text.takeWhile (· != separator), back)

variable {bound value result : ℕ} {separator : Char} {text digits front back : List Char}

theorem parseDigits_lt (below : value < bound)
    (parsed : parseDigits bound digits value = .ok result) : result < bound := by
  induction digits generalizing value with
  | nil =>
      cases parsed
      exact below
  | cons char digits ih =>
      rw [parseDigits] at parsed
      split at parsed
      · cases parsed
      · split at parsed
        · cases parsed
        · rename_i fits
          exact ih (Nat.not_le.1 fits) parsed

theorem parse_lt (positive : 0 < bound) (parsed : parse bound text = .ok value) :
    value < bound := by
  unfold parse at parsed
  split at parsed
  · cases parsed
  · cases parsed
  · exact parseDigits_lt positive parsed
  · exact parseDigits_lt positive parsed

/-- Digits are read to the end if their value is below the bound: it only grows. -/
theorem parseDigits_eq (isDigit : ∀ char ∈ digits, char.isDigit = true)
    (below : Nat.ofDigitChars 10 digits value < bound) :
    parseDigits bound digits value = .ok (Nat.ofDigitChars 10 digits value) := by
  induction digits generalizing value with
  | nil => rw [parseDigits, Nat.ofDigitChars_nil]
  | cons char digits ih =>
      obtain ⟨first, others⟩ := List.forall_mem_cons.1 isDigit
      rw [Nat.ofDigitChars_cons] at below ⊢
      have grows := @Nat.ofDigitChars_eq_ofDigitChars_zero digits
        (10 * value + (char.toNat - '0'.toNat))
      have positive : 0 < 10 ^ digits.length := Nat.pow_pos (by decide)
      have fits : 10 * value + (char.toNat - '0'.toNat) < bound := by
        refine lt_of_le_of_lt ?_ below
        rw [grows]
        exact (Nat.le_mul_of_pos_left _ positive).trans (Nat.le_add_right _ _)
      rw [parseDigits, if_neg (by rw [first]; decide), if_neg (Nat.not_le.2 fits), ih others below]

theorem notMem_toDigits (notDigit : separator.isDigit = false) :
    separator ∉ Nat.toDigits 10 value := by
  intro member
  have digit := Nat.isDigit_of_mem_toDigits (by decide) le_rfl member
  rw [notDigit] at digit
  cases digit

@[simp] theorem parse_toDigits (below : value < bound) :
    parse bound (Nat.toDigits 10 value) = .ok value := by
  have read := @parseDigits_eq bound 0 (Nat.toDigits 10 value)
    (fun _ member => Nat.isDigit_of_mem_toDigits (by decide) le_rfl member)
    (by rwa [Nat.ofDigitChars_ten_toDigits])
  rw [Nat.ofDigitChars_ten_toDigits] at read
  have signed : '+' ∉ Nat.toDigits 10 value := notMem_toDigits (by decide)
  unfold parse
  split
  · rename_i empty
    exact absurd empty Nat.toDigits_ne_nil
  · rename_i sign
    exact absurd (sign ▸ List.mem_cons_self) signed
  · rename_i sign
    exact absurd (sign ▸ List.mem_cons_self) signed
  · exact read

theorem length_toDigits (positive : value ≠ 0) :
    (Nat.toDigits 10 value).length = Nat.log 10 value + 1 := by
  refine le_antisymm ?_ (Nat.succ_le_of_lt (Nat.not_le.1 fun short => ?_))
  · rw [Nat.length_toDigits_le_iff (by decide) (Nat.succ_pos _)]
    exact Nat.lt_pow_succ_log_self (by decide) value
  · have nonempty : 0 < (Nat.toDigits 10 value).length := Nat.length_toDigits_pos
    have few := (Nat.length_toDigits_le_iff (by decide) (nonempty.trans_le short)).1 short
    exact absurd few (Nat.not_lt.2 (Nat.pow_log_le_self 10 positive))

theorem splitOnce_append (absent : separator ∉ front) :
    splitOnce separator (front ++ separator :: back) = some (front, back) := by
  have inFront : ∀ char ∈ front, (char != separator) = true := fun char member => by
    rw [bne_iff_ne]
    rintro rfl
    exact absent member
  rw [splitOnce, List.dropWhile_append_of_pos inFront, List.takeWhile_append_of_pos inFront]
  simp

end Decimal
