import Mathlib.Data.List.DropRight
import Krc721.Model.Operation

/-! Ticks as text: how a tick is parsed, upper-cased and padded, and how its text is read
back. Case mapping and character classes are those of the standard library. -/

set_option autoImplicit false

namespace Krc721

def utf8 (text : String) : List ℕ :=
  (text.toList.flatMap String.utf8EncodeChar).map UInt8.toNat

/-- `std::str::from_utf8_unchecked`; bytes that are not UTF-8 read as the empty string. -/
def fromUtf8Unchecked (bytes : List ℕ) : String :=
  match (bytes.map UInt8.ofNat).toByteArray.utf8Decode? with
  | some chars => String.ofList chars.toList
  | none => ""

def strFromUtf8 (bytes : List ℕ) : Option String :=
  ((bytes.map UInt8.ofNat).toByteArray.utf8Decode?).map fun chars => String.ofList chars.toList

/-- `trim_end_matches` of NUL. -/
def trimNuls (text : String) : String :=
  String.ofList (text.toList.rdropWhile (· == Char.ofNat 0))

/-- The bytes of the text, padded with NULs. -/
def padded (text : String) (length : ℕ) : List ℕ :=
  utf8 text ++ List.replicate (length - (utf8 text).length) 0

theorem utf8_append (left right : String) : utf8 (left ++ right) = utf8 left ++ utf8 right := by
  simp [utf8]

theorem strFromUtf8_utf8 (text : String) : strFromUtf8 (utf8 text) = some text := by
  have bytes : (utf8 text).map UInt8.ofNat = text.toList.flatMap String.utf8EncodeChar := by
    simp [utf8, Function.comp_def]
  have decoded := @List.utf8Decode?_utf8Encode text.toList
  rw [List.utf8Encode] at decoded
  simp [strFromUtf8, bytes, decoded]

theorem fromUtf8Unchecked_eq {bytes : List ℕ} {text : String}
    (decoded : strFromUtf8 bytes = some text) : fromUtf8Unchecked bytes = text := by
  obtain ⟨chars, found, rfl⟩ := Option.map_eq_some_iff.1 decoded
  rw [fromUtf8Unchecked, found]

theorem fromUtf8Unchecked_utf8 (text : String) : fromUtf8Unchecked (utf8 text) = text :=
  fromUtf8Unchecked_eq (strFromUtf8_utf8 text)

/-- A text that does not end in a NUL is what remains of its padded form. -/
theorem exists_trimNuls_padded {text : String} (length : ℕ)
    (lastNonzero : text.toList.rdropWhile (· == Char.ofNat 0) = text.toList) :
    ∃ whole, strFromUtf8 (padded text length) = some whole ∧ trimNuls whole = text := by
  set count := length - (utf8 text).length with countEq
  have zeros : utf8 (String.ofList (List.replicate count (Char.ofNat 0))) =
      List.replicate count 0 := by
    have zero : String.utf8EncodeChar (Char.ofNat 0) = [0] := by decide
    simp [utf8, List.flatMap_replicate, zero]
  have dropZeros (zeros : ℕ) :
      (text.toList ++ List.replicate zeros (Char.ofNat 0)).rdropWhile (· == Char.ofNat 0) =
        text.toList := by
    induction zeros with
    | zero => simpa using lastNonzero
    | succ zeros ih =>
        rw [List.replicate_succ', ← List.append_assoc, List.rdropWhile_concat_pos _ _ _ (by simp),
          ih]
  refine ⟨text ++ String.ofList (List.replicate count (Char.ofNat 0)), ?_, ?_⟩
  · rw [padded, ← countEq, ← zeros, ← utf8_append, strFromUtf8_utf8]
  · rw [trimNuls, String.toList_append, String.toList_ofList, dropZeros, String.ofList_toList]

/-- The case mappings and the character class of the standard library. No alphanumeric
character comes before the digit `0`. -/
structure Unicode where
  toUppercase : String → String
  toLowercase : String → String
  isAlphanumeric : Char → Bool
  zero_le : ∀ char, isAlphanumeric char = true → 48 ≤ char.toNat

def TICK_MIN_LENGTH : ℕ := 1

inductive TickError where
  | nonAlphabetOrDigit
  | tickLength
  | tickBytesLength
  | utf8Error
deriving DecidableEq, Inhabited

/-- The first byte of a character that is not below the digit `0`. -/
theorem zero_le_head_utf8EncodeChar {char : Char} (zeroLe : 48 ≤ char.toNat) (rest : List UInt8) :
    48 ≤ ((String.utf8EncodeChar char ++ rest).map UInt8.toNat).headD 0 := by
  have value : char.val.toNat = char.toNat := rfl
  simp only [String.utf8EncodeChar, value]
  split
  · simp
    omega
  · split
    · simp
      omega
    · split
      · simp
        omega
      · simp
        omega

namespace Tick

variable (unicode : Unicode)

/-- What the text of a tick has to be once it is upper-cased. -/
structure IsText (text : String) : Prop where
  alphanumeric : ∀ char ∈ text.toList, unicode.isAlphanumeric char = true
  minLength : TICK_MIN_LENGTH ≤ text.toList.length
  maxLength : text.toList.length ≤ TICK_LENGTH
  bytesLength : (utf8 text).length ≤ TICK_LENGTH

variable {unicode}

theorem IsText.head_le {text : String} (isText : IsText unicode text) (padding : List ℕ) :
    48 ≤ (utf8 text ++ padding).headD 0 := by
  cases chars : text.toList with
  | nil => simpa [chars, TICK_MIN_LENGTH] using isText.minLength
  | cons char rest =>
      have zeroLe := unicode.zero_le char (isText.alphanumeric char (by simp [chars]))
      have head := zero_le_head_utf8EncodeChar zeroLe (rest.flatMap String.utf8EncodeChar)
      rw [utf8, chars, List.flatMap_cons]
      cases bytes : (String.utf8EncodeChar char ++ rest.flatMap String.utf8EncodeChar) with
      | nil => simp [bytes] at head
      | cons byte others => simpa [bytes] using head

/-- Copy the bytes of the text into the ten bytes of a tick. -/
def ofText (text : String) (isText : IsText unicode text) : Tick where
  bytes := utf8 text ++ List.replicate (TICK_LENGTH - (utf8 text).length) 0
  length_eq := by
    have bound := isText.bytesLength
    simp
    omega
  head_le := isText.head_le _

variable (unicode)

/-- The characters of a text are tried, not those of the type. -/
local instance (priority := 2000) decidableAll (text : List Char) :
    Decidable (∀ char ∈ text, unicode.isAlphanumeric char = true) :=
  List.decidableBAll _ _

def fromStr (text : String) : Except TickError Tick :=
  let text := unicode.toUppercase text
  if alphanumeric : ¬ ∀ char ∈ text.toList, unicode.isAlphanumeric char = true then
    .error .nonAlphabetOrDigit
  else if length :
      ¬ (TICK_MIN_LENGTH ≤ text.toList.length ∧ text.toList.length ≤ TICK_LENGTH) then
    .error .tickLength
  else if bytesLength : TICK_LENGTH < (utf8 text).length then
    .error .tickBytesLength
  else
    .ok (ofText text ⟨not_not.1 alphanumeric, (not_not.1 length).1, (not_not.1 length).2,
      not_lt.1 bytesLength⟩)

/-- The `Deserialize` instance of a tick; an error is its message. -/
def deserialize (text : String) : Except String Tick :=
  let text := unicode.toUppercase text
  if maxLength : TICK_LENGTH < text.toList.length then .error "tick string too long"
  else if minLength : text.toList.length < TICK_MIN_LENGTH then .error "tick string too short"
  else if bytesLength : TICK_LENGTH < (utf8 text).length then
    .error "tick string bytes size too big"
  else if alphanumeric : ¬ ∀ char ∈ text.toList, unicode.isAlphanumeric char = true then
    .error "tick contains not allowed chars"
  else
    .ok (ofText text ⟨not_not.1 alphanumeric, not_lt.1 minLength, not_lt.1 maxLength,
      not_lt.1 bytesLength⟩)

def new (bytes : List ℕ) : Except TickError Tick :=
  match strFromUtf8 bytes with
  | none => .error .utf8Error
  | some text =>
      let text := unicode.toUppercase (trimNuls text)
      if alphanumeric : ¬ ∀ char ∈ text.toList, unicode.isAlphanumeric char = true then
        .error .nonAlphabetOrDigit
      else if length :
          ¬ (TICK_MIN_LENGTH ≤ text.toList.length ∧ text.toList.length ≤ TICK_LENGTH) then
        .error .tickLength
      else if bytesLength : TICK_LENGTH < (utf8 text).length then
        .error .tickBytesLength
      else
        .ok (ofText text ⟨not_not.1 alphanumeric, (not_not.1 length).1, (not_not.1 length).2,
          not_lt.1 bytesLength⟩)

def asStr (tick : Tick) : String :=
  String.ofList ((fromUtf8Unchecked tick.bytes).toList.rdropWhile (· == Char.ofNat 0))

variable {unicode}

/-- Parsing succeeds exactly on what upper-cases to the text of a tick. -/
theorem fromStr_eq_ok_iff {text : String} {tick : Tick} :
    fromStr unicode text = .ok tick ↔
      ∃ isText : IsText unicode (unicode.toUppercase text), tick = ofText _ isText := by
  constructor
  · intro parsed
    unfold fromStr at parsed
    simp only at parsed
    split at parsed
    · cases parsed
    · split at parsed
      · cases parsed
      · split at parsed
        · cases parsed
        · cases parsed
          exact ⟨_, rfl⟩
  · rintro ⟨isText, rfl⟩
    have bytesLength := isText.bytesLength
    simp only [fromStr, isText.minLength, isText.maxLength, not_true_eq_false, and_self,
      dite_false, dif_neg (not_not.2 isText.alphanumeric), dif_neg (not_lt.2 bytesLength)]

theorem deserialize_eq_ok_iff {text : String} {tick : Tick} :
    deserialize unicode text = .ok tick ↔
      ∃ isText : IsText unicode (unicode.toUppercase text), tick = ofText _ isText := by
  constructor
  · intro parsed
    unfold deserialize at parsed
    simp only at parsed
    split at parsed
    · cases parsed
    · split at parsed
      · cases parsed
      · split at parsed
        · cases parsed
        · split at parsed
          · cases parsed
          · cases parsed
            exact ⟨_, rfl⟩
  · rintro ⟨isText, rfl⟩
    simp only [deserialize, dif_neg (not_lt.2 isText.maxLength),
      dif_neg (not_lt.2 isText.minLength), dif_neg (not_lt.2 isText.bytesLength),
      dif_neg (not_not.2 isText.alphanumeric)]

/-- A text without NULs is parsed from its padded bytes as it is by itself. -/
theorem new_padded {text : String} (noNul : Char.ofNat 0 ∉ text.toList) (length : ℕ) :
    new unicode (padded text length) = fromStr unicode text := by
  have lastNonzero : text.toList.rdropWhile (· == Char.ofNat 0) = text.toList := by
    rw [List.rdropWhile_eq_self_iff]
    intro nonempty isNul
    exact noNul (beq_iff_eq.1 isNul ▸ List.getLast_mem nonempty)
  obtain ⟨whole, decoded, trimmed⟩ := exists_trimNuls_padded length lastNonzero
  subst trimmed
  rw [new, decoded]
  rfl

@[simp] theorem asStr_ofText (text : String) (isText : IsText unicode text) :
    (ofText text isText).asStr = text := by
  have lastNonzero : text.toList.rdropWhile (· == Char.ofNat 0) = text.toList := by
    rw [List.rdropWhile_eq_self_iff]
    intro nonempty isNul
    have alphanumeric := isText.alphanumeric _ (List.getLast_mem nonempty)
    rw [beq_iff_eq.1 isNul] at alphanumeric
    simpa using unicode.zero_le _ alphanumeric
  obtain ⟨whole, decoded, trimmed⟩ := exists_trimNuls_padded TICK_LENGTH lastNonzero
  rw [asStr, show (ofText text isText).bytes = padded text TICK_LENGTH from rfl,
    fromUtf8Unchecked_eq decoded]
  exact trimmed

/-- Once a tick was parsed, it is parsed from the texts that upper-case to its text. -/
theorem fromStr_eq_ok_iff_of_parsed {text text' : String} {tick : Tick}
    (parsed : fromStr unicode text = .ok tick) :
    fromStr unicode text' = .ok tick ↔ unicode.toUppercase text' = tick.asStr := by
  obtain ⟨isText, rfl⟩ := fromStr_eq_ok_iff.1 parsed
  rw [fromStr_eq_ok_iff, asStr_ofText]
  constructor
  · rintro ⟨isText', same⟩
    rw [← asStr_ofText _ isText', ← same, asStr_ofText]
  · intro upper
    simp only [upper]
    exact ⟨isText, trivial⟩

theorem deserialize_eq_ok_iff_fromStr {text : String} {tick : Tick} :
    deserialize unicode text = .ok tick ↔ fromStr unicode text = .ok tick := by
  rw [deserialize_eq_ok_iff, fromStr_eq_ok_iff]

end Tick

end Krc721
