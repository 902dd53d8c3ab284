import Krc721.View.AvailableRanges
import Krc721.Codec.Decimal

/-! The text of the available ranges: numbers with commas between them, two for a range. The empty
text stands for a collection that is fully minted, and a field without a partner is ignored. -/

set_option autoImplicit false

namespace Krc721

namespace AvailableRanges

/-- The capacity that the text is given before it is written. -/
def capacityHint (ranges : List AvailableRange) : Except Fault ℕ :=
  match capacity ranges with
  | .error fault => .error fault
  | .ok digits => .ok (digits - 1)

def fields (text : String) : List (List Char) := text.toList.splitOn ','

/-- The ranges of the fields, two by two; an error is its message. -/
def parseRanges : List (List Char) → Except String (List AvailableRange)
  | start :: size :: fields =>
      match Decimal.parse (2 ^ 64) start with
      | .error error => .error error.message
      | .ok start =>
          match Decimal.parse (2 ^ 64) size with
          | .error error => .error error.message
          | .ok size =>
              match parseRanges fields with
              | .error message => .error message
              | .ok ranges => .ok (⟨start, size⟩ :: ranges)
  | _ => .ok []

def deserialize (text : String) : Except String AvailableRanges :=
  if text = "" then .ok .fullyMinted
  else
    match parseRanges (fields text) with
    | .error message => .error message
    | .ok ranges => .ok (.available ranges)

/-- The numbers of a text, whatever is read of them. -/
def numbers (text : String) : List (Except Decimal.ParseIntError ℕ) :=
  (fields text).map (Decimal.parse (2 ^ 64))

def numbersOf (ranges : List AvailableRange) : List (Except Decimal.ParseIntError ℕ) :=
  ranges.flatMap fun range => [.ok range.startTokenId, .ok range.size]

/-- The ranges that a collection can have. -/
def Valid (value : AvailableRanges) : Prop :=
  ∀ ranges, value = .available ranges → ∀ range ∈ ranges,
    (1 ≤ range.startTokenId ∧ range.startTokenId < 2 ^ 64) ∧
      (1 ≤ range.size ∧ range.size < 2 ^ 64)

/-- The value is written down and read back, in the capacity that was summed up for it. -/
def RoundTrips (value : AvailableRanges) : Prop :=
  ∃ text, value.serialize = .ok text ∧ deserialize text = .ok value ∧
    ∀ ranges, value = .available ranges → capacityHint ranges = .ok text.utf8ByteSize

/-- What is read of the text is written down with the same numbers, and no field is left over. -/
structure KeepsInput (text : String) : Prop where
  again : ∀ value, deserialize text = .ok value → ∃ text', value.serialize = .ok text' ∧
    deserialize text' = .ok value ∧ numbers text' = numbers text
  odd : text ≠ "" → ¬ Even (fields text).length → ∃ message, deserialize text = .error message

/-- The fields that have a partner. -/
def paired (others : List (List Char)) : List (List Char) :=
  others.take (2 * (others.length / 2))

/-- If the fields that have a partner are numbers, then every field has one, and none is zero. -/
def ReadsWhole (text : String) : Prop :=
  text ≠ "" →
    (∀ field ∈ paired (fields text), ∃ number, Decimal.parse (2 ^ 64) field = .ok number) →
    Even (fields text).length ∧ .ok 0 ∉ numbers text

def fieldsOf (ranges : List AvailableRange) : List (List Char) :=
  ranges.flatMap fun range =>
    [Nat.toDigits 10 range.startTokenId, Nat.toDigits 10 range.size]

variable {text : String} {ranges : List AvailableRange} {range : AvailableRange}
  {others : List (List Char)}

/-! Reading. -/

@[simp] theorem numbersOf_nil : numbersOf [] = [] := rfl

@[simp] theorem numbersOf_cons : numbersOf (range :: ranges) =
    .ok range.startTokenId :: .ok range.size :: numbersOf ranges := rfl

theorem length_numbersOf : (numbersOf ranges).length = 2 * ranges.length := by
  induction ranges with
  | nil => rfl
  | cons range ranges ih =>
      rw [numbersOf_cons, List.length_cons, List.length_cons, ih, List.length_cons]
      omega

theorem mem_numbersOf {number : ℕ} : .ok number ∈ numbersOf ranges ↔
    ∃ range ∈ ranges, range.startTokenId = number ∨ range.size = number := by
  induction ranges with
  | nil => simp
  | cons range ranges ih => simp [ih, eq_comm, or_assoc]

theorem numbersOf_injective : Function.Injective numbersOf := by
  intro left right same
  induction left generalizing right with
  | nil =>
      cases right with
      | nil => rfl
      | cons range right => cases same
  | cons range left ih =>
      obtain ⟨start, size⟩ := range
      cases right with
      | nil => cases same
      | cons range' right =>
          obtain ⟨start', size'⟩ := range'
          rw [numbersOf_cons, numbersOf_cons] at same
          obtain ⟨sameStart, behind⟩ := List.cons.inj same
          obtain ⟨sameSize, tails⟩ := List.cons.inj behind
          have starts : start = start' := Except.ok.inj sameStart
          have sizes : size = size' := Except.ok.inj sameSize
          rw [ih tails, starts, sizes]

@[simp] theorem paired_cons_cons {start size : List Char} :
    paired (start :: size :: others) = start :: size :: paired others := by
  rw [paired, List.length_cons, List.length_cons,
    show 2 * ((others.length + 1 + 1) / 2) = 2 * (others.length / 2) + 2 by omega]
  rfl

theorem paired_of_even (even : Even others.length) : paired others = others := by
  rw [paired, Nat.two_mul_div_two_of_even even, List.take_length]

/-- The fields with a partner are read, and no others. -/
theorem parseRanges_eq_ok_iff : parseRanges others = .ok ranges ↔
    (paired others).map (Decimal.parse (2 ^ 64)) = numbersOf ranges := by
  fun_induction parseRanges others generalizing ranges with
  | case1 start size fields error read =>
      refine iff_of_false nofun fun same => ?_
      rw [paired_cons_cons, List.map_cons, read] at same
      cases ranges with
      | nil => cases same
      | cons range ranges => cases (List.cons.inj same).1
  | case2 start size fields start' read error read' =>
      refine iff_of_false nofun fun same => ?_
      rw [paired_cons_cons, List.map_cons, List.map_cons, read'] at same
      cases ranges with
      | nil => cases same
      | cons range ranges => cases (List.cons.inj (List.cons.inj same).2).1
  | case3 start size fields start' read size' read' message failed ih =>
      refine iff_of_false nofun fun same => ?_
      rw [paired_cons_cons, List.map_cons, List.map_cons] at same
      cases ranges with
      | nil => cases same
      | cons range ranges =>
          have parsed := ih.2 (List.cons.inj (List.cons.inj same).2).2
          rw [failed] at parsed
          cases parsed
  | case4 start size fields start' read size' read' parsed read'' ih =>
      rw [paired_cons_cons, List.map_cons, List.map_cons, read, read', ih.1 read'',
        ← @numbersOf_cons _ ⟨start', size'⟩, numbersOf_injective.eq_iff, Except.ok.injEq]
  | case5 fields short =>
      have none : paired fields = [] := by
        match fields, short with
        | [], _ => rfl
        | [_], _ => simp [paired]
        | start :: size :: fields, short => exact absurd rfl (short start size fields)
      rw [none, List.map_nil, ← numbersOf_nil, numbersOf_injective.eq_iff, Except.ok.injEq]

/-- The fields are read if those with a partner are numbers. -/
theorem exists_parseRanges_iff : (∃ ranges, parseRanges others = .ok ranges) ↔
    ∀ field ∈ paired others, ∃ number, Decimal.parse (2 ^ 64) field = .ok number := by
  constructor
  · rintro ⟨ranges, parsed⟩ field member
    have inside := List.mem_map_of_mem (f := Decimal.parse (2 ^ 64)) member
    rw [parseRanges_eq_ok_iff.1 parsed, numbersOf, List.mem_flatMap] at inside
    obtain ⟨range, _, inRange⟩ := inside
    rcases List.mem_cons.1 inRange with start | size
    · exact ⟨_, start⟩
    · exact ⟨_, List.mem_singleton.1 size⟩
  · intro numbers
    fun_induction parseRanges others with
    | case1 start size fields error read =>
        obtain ⟨number, parsed⟩ := numbers start (by simp)
        rw [read] at parsed
        cases parsed
    | case2 start size fields start' read error read' =>
        obtain ⟨number, parsed⟩ := numbers size (by simp)
        rw [read'] at parsed
        cases parsed
    | case3 start size fields start' read size' read' message failed ih =>
        obtain ⟨ranges, parsed⟩ := ih fun field member => numbers field (by simp [member])
        rw [failed] at parsed
        cases parsed
    | case4 start size fields start' read size' read' parsed read'' ih => exact ⟨_, rfl⟩
    | case5 fields short => exact ⟨[], rfl⟩

/-! Writing. -/

def written (ranges : List AvailableRange) : String :=
  ",".intercalate (ranges.map fun range =>
    toString range.startTokenId ++ "," ++ toString range.size)

theorem fieldsOf_cons : fieldsOf (range :: ranges) =
    Nat.toDigits 10 range.startTokenId :: Nat.toDigits 10 range.size :: fieldsOf ranges := rfl

theorem toList_written : (written ranges).toList = [','].intercalate (fieldsOf ranges) := by
  rw [written, String.toList_intercalate, List.map_map]
  induction ranges with
  | nil => rfl
  | cons range ranges ih =>
      have first : (toString range.startTokenId ++ "," ++ toString range.size).toList =
          Nat.toDigits 10 range.startTokenId ++ ',' :: Nat.toDigits 10 range.size := by simp
      rw [List.map_cons, fieldsOf_cons, List.intercalate_cons_cons, Function.comp_apply, first]
      cases ranges with
      | nil => simp [fieldsOf]
      | cons next ranges =>
          rw [List.intercalate_cons_of_ne_nil (by simp), ih,
            List.intercalate_cons_of_ne_nil (l := Nat.toDigits 10 range.size) (by
              rw [fieldsOf_cons]
              exact List.cons_ne_nil _ _)]
          simp

theorem length_intercalate (separator : Char) (parts : List (List Char)) :
    ([separator].intercalate parts).length = (parts.map fun part => part.length + 1).sum - 1 := by
  induction parts with
  | nil => rfl
  | cons part parts ih =>
      cases parts with
      | nil => simp
      | cons next parts =>
          rw [List.intercalate_cons_cons, List.length_append, List.length_append, ih]
          simp
          omega

/-- Text of ASCII characters has a byte for each of them. -/
theorem utf8ByteSize_eq_length {text : String}
    (ascii : ∀ char ∈ text.toList, char.utf8Size = 1) : text.utf8ByteSize = text.toList.length := by
  rw [← @String.ofList_toList text] at ascii ⊢
  simp only [String.toList_ofList] at ascii ⊢
  generalize text.toList = chars at ascii ⊢
  induction chars with
  | nil => rfl
  | cons char chars ih =>
      obtain ⟨first, others⟩ := List.forall_mem_cons.1 ascii
      rw [String.ofList_cons, String.utf8ByteSize_append, String.utf8ByteSize_singleton, first,
        ih others, List.length_cons, Nat.add_comm]

theorem eq_or_mem_of_mem_intercalate {char separator : Char} {parts : List (List Char)}
    (member : char ∈ [separator].intercalate parts) :
    char = separator ∨ ∃ part ∈ parts, char ∈ part := by
  induction parts with
  | nil => cases member
  | cons part parts ih =>
      by_cases last : parts = []
      · subst last
        rw [List.intercalate_singleton] at member
        exact .inr ⟨part, List.mem_cons_self, member⟩
      · rw [List.intercalate_cons_of_ne_nil last, List.mem_append, List.mem_append,
          List.mem_singleton] at member
        rcases member with (inPart | isSeparator) | later
        · exact .inr ⟨part, List.mem_cons_self, inPart⟩
        · exact .inl isSeparator
        · rcases ih later with isSeparator | ⟨other, inParts, inOther⟩
          · exact .inl isSeparator
          · exact .inr ⟨other, List.mem_cons_of_mem _ inParts, inOther⟩

theorem isDigit_of_mem_fieldsOf {field : List Char} (member : field ∈ fieldsOf ranges) :
    ∀ char ∈ field, char.isDigit = true := by
  obtain ⟨range, _, inRange⟩ := List.mem_flatMap.1 member
  intro char inField
  rcases List.mem_cons.1 inRange with rfl | size
  · exact Nat.isDigit_of_mem_toDigits (by decide) le_rfl inField
  · rw [List.mem_singleton.1 size] at inField
    exact Nat.isDigit_of_mem_toDigits (by decide) le_rfl inField

theorem utf8Size_of_mem_written {char : Char} (member : char ∈ (written ranges).toList) :
    char.utf8Size = 1 := by
  rw [toList_written] at member
  rcases eq_or_mem_of_mem_intercalate member with rfl | ⟨field, inFields, inField⟩
  · decide
  · have digit := isDigit_of_mem_fieldsOf inFields char inField
    rw [Char.utf8Size_eq_one_iff]
    simp only [Char.isDigit, Bool.and_eq_true, decide_eq_true_eq,
      UInt32.le_iff_toNat_le] at digit ⊢
    exact digit.2.trans (by decide)

/-- The capacity is summed up if no number is zero: a place for each digit and each comma, and one
for a comma at the end. -/
theorem capacity_eq_ok_iff {digits : ℕ} : capacity ranges = .ok digits ↔
    (∀ range ∈ ranges, range.startTokenId ≠ 0 ∧ range.size ≠ 0) ∧
      digits = ((fieldsOf ranges).map fun field => field.length + 1).sum := by
  induction ranges generalizing digits with
  | nil => simp [capacity, fieldsOf, eq_comm]
  | cons range ranges ih =>
      rw [capacity, List.forall_mem_cons]
      by_cases zero : range.startTokenId = 0 ∨ range.size = 0
      · refine iff_of_false ?_ fun whole => ?_
        · rcases zero with start | size
          · simp [ilog10, start]
          · by_cases start : range.startTokenId = 0
            · simp [ilog10, start]
            · simp [ilog10, start, size]
        · have nonzero := whole.1.1
          omega
      · push Not at zero
        obtain ⟨start, size⟩ := zero
        simp only [ilog10, if_neg start, if_neg size]
        rw [fieldsOf_cons, List.map_cons, List.map_cons, List.sum_cons, List.sum_cons,
          Decimal.length_toDigits start, Decimal.length_toDigits size]
        cases counted : capacity ranges with
        | error fault =>
            refine iff_of_false (by simp) fun whole => ?_
            have summed := ih.2 ⟨whole.1.2, rfl⟩
            rw [counted] at summed
            cases summed
        | ok rest =>
            obtain ⟨others, rfl⟩ := ih.1 counted
            simp only [Except.ok.injEq, ne_eq, start, size, not_false_eq_true, true_and]
            rw [and_iff_right others]
            omega

/-- Ranges are written down if no number is zero. -/
theorem serialize_eq_ok_iff {text : String} : (available ranges).serialize = .ok text ↔
    (∀ range ∈ ranges, range.startTokenId ≠ 0 ∧ range.size ≠ 0) ∧ text = written ranges := by
  rw [serialize]
  cases counted : capacity ranges with
  | error fault =>
      refine iff_of_false (by simp) fun whole => ?_
      have summed := capacity_eq_ok_iff.2 ⟨whole.1, rfl⟩
      rw [counted] at summed
      cases summed
  | ok digits =>
      dsimp only
      rw [and_iff_right (capacity_eq_ok_iff.1 counted).1, Except.ok.injEq, eq_comm]
      rfl

/-- The capacity is the length of the text. -/
theorem capacityHint_eq (nonzero : ∀ range ∈ ranges, range.startTokenId ≠ 0 ∧ range.size ≠ 0) :
    capacityHint ranges = .ok (written ranges).utf8ByteSize := by
  have ascii := @utf8ByteSize_eq_length (written ranges) fun char member =>
    utf8Size_of_mem_written member
  rw [capacityHint, capacity_eq_ok_iff.2 ⟨nonzero, rfl⟩, ascii, toList_written,
    length_intercalate]

/-! Reading what was written. -/

/-- The fields of the text of ranges are the written ones. -/
theorem fields_written (nonempty : ranges ≠ []) : fields (written ranges) = fieldsOf ranges := by
  rw [fields, toList_written]
  refine List.splitOn_intercalate ',' ?_ ?_
  · intro field member comma
    exact absurd (isDigit_of_mem_fieldsOf member _ comma) (by decide)
  · obtain ⟨range, others, rfl⟩ := List.exists_cons_of_ne_nil nonempty
    exact List.cons_ne_nil _ _

theorem numbers_written (nonempty : ranges ≠ [])
    (fits : ∀ range ∈ ranges, range.startTokenId < 2 ^ 64 ∧ range.size < 2 ^ 64) :
    numbers (written ranges) = numbersOf ranges := by
  rw [numbers, fields_written nonempty]
  clear nonempty
  induction ranges with
  | nil => rfl
  | cons range ranges ih =>
      obtain ⟨⟨start, size⟩, others⟩ := List.forall_mem_cons.1 fits
      rw [fieldsOf_cons, List.map_cons, List.map_cons, Decimal.parse_toDigits start,
        Decimal.parse_toDigits size, ih others, numbersOf_cons]

theorem even_of_numbers {text : String} (same : numbers text = numbersOf ranges) :
    Even (fields text).length := by
  have length := congrArg List.length same
  rw [numbers, List.length_map, length_numbersOf] at length
  rw [length]
  exact even_two_mul _

theorem ne_empty_of_numbers {text : String} (same : numbers text = numbersOf ranges) :
    text ≠ "" := by
  rintro rfl
  cases ranges with
  | nil => exact absurd (even_of_numbers same) (by decide)
  | cons range ranges => cases (List.cons.inj same).1

/-- A text is read as ranges if it has their numbers. -/
theorem deserialize_of_numbers {text : String} (same : numbers text = numbersOf ranges) :
    deserialize text = .ok (.available ranges) := by
  rw [deserialize, if_neg (ne_empty_of_numbers same), parseRanges_eq_ok_iff.2]
  rw [paired_of_even (even_of_numbers same)]
  exact same

/-- A number that was read fits its type. -/
theorem fits_of_numbers {text : String} (same : (paired (fields text)).map
      (Decimal.parse (2 ^ 64)) = numbersOf ranges) :
    ∀ range ∈ ranges, range.startTokenId < 2 ^ 64 ∧ range.size < 2 ^ 64 := by
  have bounded : ∀ number, .ok number ∈ numbersOf ranges → number < 2 ^ 64 := by
    intro number member
    rw [← same] at member
    obtain ⟨field, _, parsed⟩ := List.mem_map.1 member
    exact Decimal.parse_lt (by decide) parsed
  intro range member
  exact ⟨bounded _ (mem_numbersOf.2 ⟨range, member, .inl rfl⟩),
    bounded _ (mem_numbersOf.2 ⟨range, member, .inr rfl⟩)⟩

/-- A value comes back unless it is the empty list, whose text means fully minted. -/
theorem rangesReturn_iff {value : AvailableRanges} (valid : value.Valid) :
    value.RoundTrips ↔ value ≠ .available [] := by
  constructor
  · rintro ⟨text, serialized, read, -⟩ rfl
    obtain ⟨_, rfl⟩ := serialize_eq_ok_iff.1 serialized
    cases read
  · intro nonempty
    cases value with
    | fullyMinted => exact ⟨"", rfl, rfl, nofun⟩
    | available ranges =>
        have bounds := valid ranges rfl
        have listed : ranges ≠ [] := fun empty => nonempty (by rw [empty])
        have nonzero : ∀ range ∈ ranges, range.startTokenId ≠ 0 ∧ range.size ≠ 0 :=
          fun range member => by
            have bound := bounds range member
            omega
        refine ⟨written ranges, serialize_eq_ok_iff.2 ⟨nonzero, rfl⟩,
          deserialize_of_numbers (numbers_written listed fun range member =>
            ⟨(bounds range member).1.2, (bounds range member).2.2⟩), ?_⟩
        intro ranges' same
        cases same
        exact capacityHint_eq nonzero

/-- A text keeps its input if and only if it is read as a whole. -/
theorem keepsInput_iff {text : String} : KeepsInput text ↔ ReadsWhole text := by
  constructor
  · intro keeps nonempty accepted
    obtain ⟨ranges, parsed⟩ := exists_parseRanges_iff.2 accepted
    have read : deserialize text = .ok (.available ranges) := by
      rw [deserialize, if_neg nonempty, parsed]
    obtain ⟨text', serialized, _, same⟩ := keeps.again _ read
    obtain ⟨nonzero, rfl⟩ := serialize_eq_ok_iff.1 serialized
    have even : Even (fields text).length := by
      by_contra odd
      obtain ⟨message, rejected⟩ := keeps.odd nonempty odd
      rw [read] at rejected
      cases rejected
    refine ⟨even, fun zero => ?_⟩
    have numbered := parseRanges_eq_ok_iff.1 parsed
    rw [paired_of_even even] at numbered
    rw [numbers, numbered, mem_numbersOf] at zero
    obtain ⟨range, member, start | size⟩ := zero
    · exact (nonzero range member).1 start
    · exact (nonzero range member).2 size
  · intro whole
    constructor
    case again =>
      intro value read
      by_cases empty : text = ""
      · subst empty
        cases read
        exact ⟨"", rfl, rfl, rfl⟩
      · rw [deserialize, if_neg empty] at read
        split at read
        · cases read
        · rename_i ranges parsed
          cases read
          obtain ⟨even, nonzero⟩ := whole empty (exists_parseRanges_iff.1 ⟨ranges, parsed⟩)
          have paired := parseRanges_eq_ok_iff.1 parsed
          have same := paired
          rw [paired_of_even even] at same
          have listed : ranges ≠ [] := by
            rintro rfl
            exact List.splitOn_ne_nil _ _ (List.map_eq_nil_iff.1 same)
          have positive : ∀ range ∈ ranges, range.startTokenId ≠ 0 ∧ range.size ≠ 0 := by
            intro range member
            rw [numbers, same] at nonzero
            exact ⟨fun start => nonzero (mem_numbersOf.2 ⟨range, member, .inl start⟩),
              fun size => nonzero (mem_numbersOf.2 ⟨range, member, .inr size⟩)⟩
          have again := numbers_written listed (fits_of_numbers paired)
          exact ⟨written ranges, serialize_eq_ok_iff.2 ⟨positive, rfl⟩,
            deserialize_of_numbers again, again.trans same.symm⟩
    case odd =>
      intro nonempty odd
      cases read : deserialize text with
      | error message => exact ⟨message, rfl⟩
      | ok value =>
          rw [deserialize, if_neg nonempty] at read
          split at read
          · cases read
          · rename_i ranges parsed
            exact absurd (whole nonempty (exists_parseRanges_iff.1 ⟨ranges, parsed⟩)).1 odd

end AvailableRanges

/-- Values and texts are kept if and only if the value is not the empty list and the text is read as
a whole. -/
theorem AvailableRanges.codec_iff (value : AvailableRanges) (text : String)
    (valid : value.Valid) :
    value.RoundTrips ∧ KeepsInput text ↔ value ≠ .available [] ∧ ReadsWhole text :=
  and_congr (rangesReturn_iff valid) keepsInput_iff

/-- Three ranges, and a text with a plus sign and a leading zero. -/
theorem AvailableRanges.codec_iff_ranges :
    (available [⟨100, 50⟩, ⟨200, 20⟩, ⟨5000, 99990⟩]).RoundTrips ∧ KeepsInput "+1,02" := by
  refine (AvailableRanges.codec_iff _ "+1,02" ?_).2 ⟨by decide, fun _ _ => by decide⟩
  intro ranges same
  cases same
  decide

/-- The empty list does not come back, the third field of a text is lost, and a zero that is read
cannot be written. -/
theorem AvailableRanges.not_codec_odd : ¬ (available []).RoundTrips ∧ ¬ KeepsInput "1,2,3" ∧
    ¬ KeepsInput "1,0" := by
  have valid : (available []).Valid := by
    intro ranges same range member
    cases same
    cases member
  refine ⟨?_, ?_, ?_⟩
  · rw [rangesReturn_iff valid]
    exact fun different => different rfl
  · rw [keepsInput_iff]
    intro whole
    have accepted := exists_parseRanges_iff.1 ⟨[⟨1, 2⟩], (by decide :
      parseRanges (fields "1,2,3") = .ok [⟨1, 2⟩])⟩
    exact absurd (whole (by decide) accepted).1 (by decide)
  · rw [keepsInput_iff]
    intro whole
    have accepted := exists_parseRanges_iff.1 ⟨[⟨1, 0⟩], (by decide :
      parseRanges (fields "1,0") = .ok [⟨1, 0⟩])⟩
    exact (whole (by decide) accepted).2 (by decide)

end Krc721
