import Krc721.Analyzer.TickText
import Krc721.Codec.CaseMapping
import Krc721.Codec.Decimal
import Krc721.View.Listings

/-! Whether a tick has one text only. Everything that parses a tick upper-cases first, so a tick is
parsed again from its own text; but a letter whose lower case belongs to another capital letter
does not survive the lower-casing of the listing inscriptions. -/

set_option autoImplicit false

namespace Krc721

open CaseMapping

/-- The standard library over the tables of a version of Unicode. -/
def stdUnicode (tables : Tables) (laws : tables.Laws) : Unicode where
  toUppercase text := String.ofList (tables.toUppercase text.toList)
  toLowercase text := String.ofList (tables.toLowercase text.toList)
  isAlphanumeric := tables.isAlphanumeric
  zero_le := laws.zero_le

namespace TickTokenOffset

/-- The `Serialize` instance. -/
def serialize (offset : TickTokenOffset) : String :=
  offset.tick.asStr ++ "-" ++ toString offset.tokenId

/-- The `Deserialize` instance; an error is its message. -/
def deserialize (unicode : Unicode) (value : String) : Except String TickTokenOffset :=
  match Decimal.splitOnce '-' value.toList with
  | none => .error "expected format: tick-token_idx"
  | some (tick, id) =>
      match Tick.fromStr unicode (String.ofList tick) with
      | .error _ => .error "invalid tick"
      | .ok tick =>
          match Decimal.parse (2 ^ 64) id with
          | .error _ => .error "invalid token_id"
          | .ok tokenId => .ok ⟨tick, tokenId⟩

end TickTokenOffset

section

variable (unicode : Unicode)

/-- The texts have the same upper case or the same lower case. -/
def DifferByCase (text text' : String) : Prop :=
  unicode.toUppercase text = unicode.toUppercase text' ∨
    unicode.toLowercase text = unicode.toLowercase text'

/-- The text stands for one tick, whoever parses it and whichever way it is written. -/
structure CanonicalTick (text text' : String) (tokenId : ℕ) : Prop where
  deserialize : ∀ tick, Tick.deserialize unicode text = .ok tick ↔
    Tick.fromStr unicode text = .ok tick
  new : Char.ofNat 0 ∉ text.toList → (utf8 text).length ≤ TICK_LENGTH → ∀ tick,
    Tick.new unicode (padded text TICK_LENGTH) = .ok tick ↔ Tick.fromStr unicode text = .ok tick
  caseless : DifferByCase unicode text text' → ∀ tick,
    Tick.fromStr unicode text = .ok tick ↔ Tick.fromStr unicode text' = .ok tick
  display : ∀ tick, Tick.fromStr unicode text = .ok tick →
    Tick.fromStr unicode tick.asStr = .ok tick
  lowercase : ∀ tick, Tick.fromStr unicode text = .ok tick →
    Tick.fromStr unicode (unicode.toLowercase tick.asStr) = .ok tick
  offset : ∀ tick, Tick.fromStr unicode text = .ok tick → tokenId < 2 ^ 64 →
    TickTokenOffset.deserialize unicode (TickTokenOffset.serialize ⟨tick, tokenId⟩) =
      .ok ⟨tick, tokenId⟩

end

variable {unicode : Unicode} {text text' : String} {tick : Tick}

namespace Tick

/-- The text that was parsed upper-cases to the text of the tick. -/
theorem asStr_of_parsed (parsed : fromStr unicode text = .ok tick) :
    unicode.toUppercase text = tick.asStr :=
  (fromStr_eq_ok_iff_of_parsed parsed).1 parsed

theorem exists_fromStr_iff :
    (∃ tick, fromStr unicode text = .ok tick) ↔ IsText unicode (unicode.toUppercase text) := by
  constructor
  · rintro ⟨tick, parsed⟩
    exact (fromStr_eq_ok_iff.1 parsed).1
  · intro isText
    exact ⟨_, fromStr_eq_ok_iff.2 ⟨isText, rfl⟩⟩

/-- Two texts are parsed alike if and only if they have one upper case or are no ticks. -/
theorem fromStr_alike_iff :
    (∀ tick, fromStr unicode text = .ok tick ↔ fromStr unicode text' = .ok tick) ↔
      (IsText unicode (unicode.toUppercase text) ∨ IsText unicode (unicode.toUppercase text') →
        unicode.toUppercase text = unicode.toUppercase text') := by
  constructor
  · intro alike isText
    rw [← exists_fromStr_iff, ← exists_fromStr_iff, exists_congr alike, or_self] at isText
    obtain ⟨tick, parsed⟩ := isText
    rw [asStr_of_parsed parsed, asStr_of_parsed ((alike tick).2 parsed)]
  · intro same tick
    constructor
    · intro parsed
      rw [fromStr_eq_ok_iff_of_parsed parsed,
        ← same (.inl (exists_fromStr_iff.1 ⟨tick, parsed⟩)), asStr_of_parsed parsed]
    · intro parsed
      rw [fromStr_eq_ok_iff_of_parsed parsed,
        same (.inr (exists_fromStr_iff.1 ⟨tick, parsed⟩)), asStr_of_parsed parsed]

theorem hyphen_notMem_asStr (parsed : fromStr unicode text = .ok tick) :
    '-' ∉ tick.asStr.toList := by
  intro member
  have isText := exists_fromStr_iff.1 ⟨tick, parsed⟩
  rw [asStr_of_parsed parsed] at isText
  exact absurd (unicode.zero_le _ (isText.alphanumeric _ member)) (by decide)

end Tick

/-- An offset is read back if its tick is parsed from its own text. -/
theorem TickTokenOffset.deserialize_serialize {tokenId : ℕ}
    (hyphen : '-' ∉ tick.asStr.toList) (again : Tick.fromStr unicode tick.asStr = .ok tick)
    (fits : tokenId < 2 ^ 64) :
    deserialize unicode (serialize ⟨tick, tokenId⟩) = .ok ⟨tick, tokenId⟩ := by
  have written : (serialize ⟨tick, tokenId⟩).toList =
      tick.asStr.toList ++ '-' :: Nat.toDigits 10 tokenId := by
    simp [serialize]
  have digits := @Decimal.parse_toDigits (2 ^ 64) tokenId fits
  simp only [deserialize, written, Decimal.splitOnce_append hyphen, String.ofList_toList, again,
    digits]

/-- Which texts stand for one tick in every way of writing it: texts with the same lower case have
the same upper case if one of them is a tick, and the lower case of each letter of the tick leads
back to it. -/
structure CaseReturns (tables : Tables) (laws : tables.Laws) (text text' : String) : Prop where
  variants : tables.toLowercase text.toList = tables.toLowercase text'.toList →
    Tick.IsText (stdUnicode tables laws) ((stdUnicode tables laws).toUppercase text) ∨
      Tick.IsText (stdUnicode tables laws) ((stdUnicode tables laws).toUppercase text') →
        tables.toUppercase text.toList = tables.toUppercase text'.toList
  letters : Tick.IsText (stdUnicode tables laws) ((stdUnicode tables laws).toUppercase text) →
    ∀ char ∈ tables.toUppercase text.toList, tables.Returns char

section

variable {tables : Tables} {laws : tables.Laws}

/-- Texts of letters that return have the same upper case if they have the same lower case. -/
theorem caseReturns_of_returns (returns : ∀ char ∈ text.toList, tables.Returns char)
    (returns' : ∀ char ∈ text'.toList, tables.Returns char)
    (upper : ∀ char ∈ tables.toUppercase text.toList, tables.Returns char) :
    CaseReturns tables laws text text' where
  variants same _ := laws.toUppercase_eq same returns returns'
  letters _ := upper

theorem toUppercase_idem_stdUnicode (text : String) :
    (stdUnicode tables laws).toUppercase ((stdUnicode tables laws).toUppercase text) =
      (stdUnicode tables laws).toUppercase text := by
  simp only [stdUnicode, String.toList_ofList]
  rw [laws.toUppercase_idem]

/-- The lower case of the text of a tick is parsed to the tick if and only if the lower case of
each of its letters leads back to it. -/
theorem Tick.fromStr_toLowercase_iff
    (parsed : fromStr (stdUnicode tables laws) text = .ok tick) :
    fromStr (stdUnicode tables laws) ((stdUnicode tables laws).toLowercase tick.asStr) =
        .ok tick ↔
      ∀ char ∈ tables.toUppercase text.toList, tables.Returns char := by
  have upper := @Tables.Laws.toUppercase_idem tables text.toList laws
  rw [fromStr_eq_ok_iff_of_parsed parsed, ← asStr_of_parsed parsed,
    ← laws.toUppercase_toLowercase_iff upper]
  simp only [stdUnicode, String.toList_ofList, String.ofList_inj]

end

/-- A text stands for one tick in every way of writing it if and only if the case mappings lead
back from lower case. -/
theorem canonicalTick_iff (tables : Tables) (laws : tables.Laws) (text text' : String)
    (tokenId : ℕ) :
    CanonicalTick (stdUnicode tables laws) text text' tokenId ↔
      CaseReturns tables laws text text' := by
  have alike := @Tick.fromStr_alike_iff (stdUnicode tables laws) text text'
  have sameUpper : (stdUnicode tables laws).toUppercase text =
      (stdUnicode tables laws).toUppercase text' ↔
        tables.toUppercase text.toList = tables.toUppercase text'.toList := String.ofList_inj
  have sameLower : (stdUnicode tables laws).toLowercase text =
      (stdUnicode tables laws).toLowercase text' ↔
        tables.toLowercase text.toList = tables.toLowercase text'.toList := String.ofList_inj
  constructor
  · intro canonical
    constructor
    case variants =>
      intro same isText
      exact sameUpper.1 (alike.1 (canonical.caseless (.inr (sameLower.2 same))) isText)
    case letters =>
      intro isText
      obtain ⟨tick, parsed⟩ := Tick.exists_fromStr_iff.2 isText
      exact (Tick.fromStr_toLowercase_iff parsed).1 (canonical.lowercase tick parsed)
  · intro returns
    have display : ∀ tick, Tick.fromStr (stdUnicode tables laws) text = .ok tick →
        Tick.fromStr (stdUnicode tables laws) tick.asStr = .ok tick := by
      intro tick parsed
      rw [Tick.fromStr_eq_ok_iff_of_parsed parsed, ← Tick.asStr_of_parsed parsed]
      exact toUppercase_idem_stdUnicode text
    constructor
    case deserialize => exact fun tick => Tick.deserialize_eq_ok_iff_fromStr
    case new =>
      intro noNul _ tick
      rw [Tick.new_padded noNul]
    case caseless =>
      intro differ
      refine alike.2 fun isText => ?_
      cases differ with
      | inl upper => exact upper
      | inr lower => exact sameUpper.2 (returns.variants (sameLower.1 lower) isText)
    case display => exact display
    case lowercase =>
      intro tick parsed
      exact (Tick.fromStr_toLowercase_iff parsed).2
        (returns.letters (Tick.exists_fromStr_iff.1 ⟨tick, parsed⟩))
    case offset =>
      intro tick parsed fits
      exact TickTokenOffset.deserialize_serialize (Tick.hyphen_notMem_asStr parsed)
        (display tick parsed) fits

/-! The letters of ASCII, the Greek sigma and the Kelvin sign, whose lower case is that of `K`. -/

namespace CaseSample

def kelvin : Char := Char.ofNat 0x212a

def greek : List Char := ['Σ', 'σ', 'ς']

def tables : Tables where
  toUpper char := if char ∈ greek then ['Σ'] else [char.toUpper]
  toLower char :=
    if char = kelvin then ['k'] else if char = 'Σ' then ['σ'] else [char.toLower]
  isAlphanumeric char := char.isAlphanum || char = kelvin || greek.contains char
  cased char := char.isAlpha || char = kelvin || greek.contains char
  caseIgnorable char := ['\'', '.', ':', '^'].contains char

theorem toUpper_notMem {char : Char} (latin : char ∉ greek) : char.toUpper ∉ greek := by
  intro member
  have letter : char.toUpper.isAlpha = false := by
    revert member
    generalize char.toUpper = upper
    intro member
    fin_cases member <;> decide
  rw [Char.isAlpha_toUpper_eq_isAlpha, Char.isAlpha, Bool.or_eq_false_iff] at letter
  rw [Char.toUpper_eq_of_not_isLower (by rw [letter.2]; decide)] at member
  exact latin member

theorem laws : tables.Laws where
  upper_upper char upper member := by
    simp only [tables] at member ⊢
    split at member
    · rw [List.mem_singleton.1 member]
      decide
    · rename_i latin
      rw [List.mem_singleton.1 member, if_neg (toUpper_notMem latin),
        Char.toUpper_toUpper_eq_toUpper]
  upper_ne_nil char := by
    simp only [tables]
    split <;> exact List.cons_ne_nil _ _
  lower_ne_nil char := by
    simp only [tables]
    split
    · exact List.cons_ne_nil _ _
    · split <;> exact List.cons_ne_nil _ _
  lower_sigma := by decide
  upper_sigma := by decide
  upper_finalSigma := by decide
  zero_le char alphanumeric := by
    simp only [tables, Bool.or_eq_true, decide_eq_true_eq, List.contains_iff_mem] at alphanumeric
    rcases alphanumeric with (ascii | rfl) | member
    · simp only [Char.isAlphanum, Char.isAlpha, Char.isUpper, Char.isLower, Char.isDigit,
        UInt32.le_iff_toNat_le, Bool.or_eq_true, Bool.and_eq_true, decide_eq_true_eq] at ascii
      change 48 ≤ char.val.toNat
      have bounds := UInt32.toNat_lt char.val
      grind
    · decide
    · fin_cases member <;> decide

def std : Unicode := stdUnicode tables laws

/-- The tick of the Kelvin sign alone. -/
def sign : String := String.ofList [kelvin]

end CaseSample

section

/-- The characters of a text are tried, not those of the type. -/
local instance (priority := 2000) decidableMembers (text : List Char) (p : Char → Prop)
    [DecidablePred p] : Decidable (∀ char ∈ text, p char) :=
  List.decidableBAll p text

/-- `nacho` and `NACHO` are one tick. -/
theorem canonicalTick_iff_nacho :
    CanonicalTick CaseSample.std "nacho" "NACHO" 7 := by
  refine (canonicalTick_iff CaseSample.tables CaseSample.laws "nacho" "NACHO" 7).2 ?_
  exact caseReturns_of_returns (by decide) (by decide) (by decide)

/-- The Kelvin sign is a tick, and its lower case is the one of the tick `K`. -/
theorem not_canonicalTick_kelvin :
    ¬ CanonicalTick CaseSample.std CaseSample.sign "K" 7 := by
  intro canonical
  have isText : Tick.IsText CaseSample.std (CaseSample.std.toUppercase CaseSample.sign) :=
    ⟨by decide, by decide, by decide, by decide⟩
  obtain ⟨tick, parsed⟩ := Tick.exists_fromStr_iff.2 isText
  have returns := (Tick.fromStr_toLowercase_iff parsed).1 (canonical.lowercase tick parsed)
  exact absurd (returns CaseSample.kelvin (by decide)) (by decide)

end

end Krc721
