import Mathlib.Data.Fin.Basic
import Mathlib.Data.Nat.Digits.Defs
import Mathlib.Order.Fin.Basic
import Mathlib.Tactic.Common

/-! The Borsh format: little-endian numbers, and lists behind a length of four bytes. A codec
carries the proof that it reads back what it writes. -/

set_option autoImplicit false

namespace Borsh

abbrev Byte : Type := Fin 256

instance byteNeZero : NeZero 256 := ⟨by decide⟩

abbrev Bytes : Type := List Byte

variable {Value Left Right : Type}

/-- How values are written and read. Writing may be refused; reading leaves what follows. -/
structure Codec (Value : Type) where
  write : Value → Option Bytes
  read : Bytes → Option (Value × Bytes)
  read_write : ∀ {value : Value} {bytes : Bytes} (rest : Bytes), write value = some bytes →
    read (bytes ++ rest) = some (value, rest)

/-- Reads a value that takes all bytes. -/
def Codec.fromSlice (codec : Codec Value) (bytes : Bytes) : Option Value :=
  match codec.read bytes with
  | some (value, []) => some value
  | _ => none

theorem Codec.fromSlice_write (codec : Codec Value) {value : Value} {bytes : Bytes}
    (written : codec.write value = some bytes) : codec.fromSlice bytes = some value := by
  have reads := codec.read_write [] written
  rw [List.append_nil] at reads
  rw [fromSlice, reads]

/-! Numbers. -/

def toLeBytes : ℕ → ℕ → Bytes
  | 0, _ => []
  | width + 1, value => Fin.ofNat 256 value :: toLeBytes width (value / 256)

def ofLeBytes : Bytes → ℕ
  | [] => 0
  | byte :: bytes => byte + 256 * ofLeBytes bytes

@[simp] theorem length_toLeBytes (width value : ℕ) : (toLeBytes width value).length = width := by
  induction width generalizing value with
  | zero => rfl
  | succ width ih => rw [toLeBytes, List.length_cons, ih]

theorem ofLeBytes_toLeBytes (width value : ℕ) :
    ofLeBytes (toLeBytes width value) = value % 256 ^ width := by
  induction width generalizing value with
  | zero => rw [pow_zero, Nat.mod_one, toLeBytes, ofLeBytes]
  | succ width ih => rw [toLeBytes, ofLeBytes, ih, Fin.val_ofNat, pow_succ', Nat.mod_mul]

abbrev UInt (width : ℕ) : Type := Fin (256 ^ width)

/-- The first bytes, if there are that many. -/
def splitBytes (length : ℕ) (bytes : Bytes) : Option (Bytes × Bytes) :=
  if length ≤ bytes.length then some (bytes.splitAt length) else none

theorem splitBytes_append {length : ℕ} {front : Bytes} (rest : Bytes)
    (exact : front.length = length) : splitBytes length (front ++ rest) = some (front, rest) := by
  subst exact
  rw [splitBytes, if_pos (by simp), List.splitAt_eq, List.take_left, List.drop_left]

def uint (width : ℕ) : Codec (UInt width) where
  write value := some (toLeBytes width value)
  read bytes := (splitBytes width bytes).map fun split =>
    (Fin.ofNat _ (ofLeBytes split.1), split.2)
  read_write := by
    rintro value bytes rest written
    cases written
    rw [splitBytes_append rest (length_toLeBytes width value), Option.map_some,
      ofLeBytes_toLeBytes, Nat.mod_eq_of_lt value.isLt]
    simp

/-! Bytes and texts. -/

/-- A fixed number of bytes. -/
def array (length : ℕ) : Codec { bytes : Bytes // bytes.length = length } where
  write value := some value.1
  read bytes :=
    if enough : length ≤ bytes.length then
      some (⟨bytes.take length, by rw [List.length_take, min_eq_left enough]⟩, bytes.drop length)
    else none
  read_write := by
    rintro ⟨value, rfl⟩ bytes rest written
    cases written
    simp

/-- Bytes behind their length. -/
def blob : Codec Bytes where
  write value := if value.length < 256 ^ 4 then some (toLeBytes 4 value.length ++ value) else none
  read bytes := (splitBytes 4 bytes).bind fun split => splitBytes (ofLeBytes split.1) split.2
  read_write := by
    intro value bytes rest written
    split at written
    · rename_i fits
      cases written
      rw [List.append_assoc, splitBytes_append _ (length_toLeBytes 4 value.length),
        Option.bind_some, ofLeBytes_toLeBytes, Nat.mod_eq_of_lt fits, splitBytes_append rest rfl]
    · cases written

def utf8Bytes (text : String) : Bytes := text.toUTF8.data.toList.map UInt8.toFin

def fromUtf8 (bytes : Bytes) : Option String :=
  String.fromUTF8? ⟨(bytes.map UInt8.ofFin).toArray⟩

theorem fromUtf8_utf8Bytes (text : String) : fromUtf8 (utf8Bytes text) = some text := by
  have same : (⟨((utf8Bytes text).map UInt8.ofFin).toArray⟩ : ByteArray) = text.toByteArray := by
    simp [utf8Bytes, Function.comp_def]
  rw [fromUtf8, same, String.fromUTF8?, dif_pos text.isValidUTF8]
  rfl

theorem length_utf8Bytes (text : String) : (utf8Bytes text).length = text.utf8ByteSize := by
  simp [utf8Bytes]

theorem length_utf8Bytes_le (text : String) : (utf8Bytes text).length ≤ 4 * text.length := by
  rw [length_utf8Bytes, ← @String.ofList_toList text]
  induction text.toList with
  | nil => simp
  | cons char chars ih =>
      have width := char.utf8Size_le_four
      rw [String.ofList_cons, String.utf8ByteSize_append, String.utf8ByteSize_singleton,
        String.length_append, String.length_singleton]
      omega

/-- A text behind its length. -/
def string : Codec String where
  write text := blob.write (utf8Bytes text)
  read bytes := (blob.read bytes).bind fun split => (fromUtf8 split.1).map fun text =>
    (text, split.2)
  read_write := by
    intro text bytes rest written
    rw [blob.read_write rest written, Option.bind_some, fromUtf8_utf8Bytes, Option.map_some]

/-! Fields and lists. -/

/-- One value behind the other. -/
def pair (left : Codec Left) (right : Codec Right) : Codec (Left × Right) where
  write value := (left.write value.1).bind fun front => (right.write value.2).map (front ++ ·)
  read bytes := (left.read bytes).bind fun first => (right.read first.2).map fun second =>
    ((first.1, second.1), second.2)
  read_write := by
    rintro ⟨first, second⟩ bytes rest written
    obtain ⟨front, writtenFirst, written⟩ := Option.bind_eq_some_iff.1 written
    obtain ⟨back, writtenSecond, rfl⟩ := Option.map_eq_some_iff.1 written
    rw [List.append_assoc, left.read_write _ writtenFirst, Option.bind_some,
      right.read_write _ writtenSecond, Option.map_some]

/-- The fields of a structure, as nested pairs. -/
def struct (codec : Codec Left) (fields : Value → Left) (build : Left → Value)
    (build_fields : ∀ value, build (fields value) = value) : Codec Value where
  write value := codec.write (fields value)
  read bytes := (codec.read bytes).map fun read => (build read.1, read.2)
  read_write := by
    intro value bytes rest written
    rw [codec.read_write rest written, Option.map_some, build_fields]

/-- A value whose fields need not be writable, and that is not built of all fields. -/
def refine (codec : Codec Left) (fields : Value → Option Left) (build : Left → Option Value)
    (build_fields : ∀ {value parts}, fields value = some parts → build parts = some value) :
    Codec Value where
  write value := (fields value).bind codec.write
  read bytes := (codec.read bytes).bind fun read => (build read.1).map fun value => (value, read.2)
  read_write := by
    intro value bytes rest written
    obtain ⟨parts, split, written⟩ := Option.bind_eq_some_iff.1 written
    rw [codec.read_write rest written, Option.bind_some, build_fields split, Option.map_some]

def unit : Codec Unit where
  write _ := some []
  read bytes := some ((), bytes)
  read_write := by
    intro value bytes rest written
    cases written
    rfl

def bool : Codec Bool where
  write value := some [if value then 1 else 0]
  read
    | [] => none
    | byte :: bytes =>
        if byte = 0 then some (false, bytes)
        else if byte = 1 then some (true, bytes)
        else none
  read_write := by
    intro value bytes rest written
    cases written
    cases value <;> rfl

/-! Numbers and bytes that are natural numbers. Those that do not fit are refused. -/

def nat (width : ℕ) : Codec ℕ where
  write value := if value < 256 ^ width then some (toLeBytes width value) else none
  read bytes := (splitBytes width bytes).map fun split => (ofLeBytes split.1, split.2)
  read_write := by
    intro value bytes rest written
    split at written
    · rename_i fits
      cases written
      rw [splitBytes_append rest (length_toLeBytes width value), Option.map_some,
        ofLeBytes_toLeBytes, Nat.mod_eq_of_lt fits]
    · cases written

/-- The bytes of a number with the leading one first. -/
def natBe (width : ℕ) : Codec ℕ where
  write value := if value < 256 ^ width then some (toLeBytes width value).reverse else none
  read bytes := (splitBytes width bytes).map fun split => (ofLeBytes split.1.reverse, split.2)
  read_write := by
    intro value bytes rest written
    split at written
    · rename_i fits
      cases written
      have length : (toLeBytes width value).reverse.length = width := by simp
      rw [splitBytes_append rest length, Option.map_some, List.reverse_reverse,
        ofLeBytes_toLeBytes, Nat.mod_eq_of_lt fits]
    · cases written

def toBytes (values : List ℕ) : Option Bytes :=
  if values.all fun value => value < 256 then some (values.map (Fin.ofNat 256)) else none

def ofBytes (bytes : Bytes) : List ℕ := bytes.map Fin.val

theorem ofBytes_of_toBytes {values : List ℕ} {bytes : Bytes}
    (converted : toBytes values = some bytes) : ofBytes bytes = values := by
  unfold toBytes at converted
  split at converted
  · rename_i fits
    cases converted
    rw [ofBytes, List.map_map]
    refine (List.map_congr_left fun value member => ?_).trans (List.map_id values)
    have small := of_decide_eq_true (List.all_eq_true.1 fits value member)
    rw [Function.comp_apply, Fin.val_ofNat, Nat.mod_eq_of_lt small, id]
  · cases converted

/-- Bytes behind their length. -/
def numbers : Codec (List ℕ) :=
  refine blob toBytes (fun bytes => some (ofBytes bytes))
    fun converted => congrArg some (ofBytes_of_toBytes converted)

/-- A fixed number of bytes. -/
def raw (length : ℕ) : Codec (List ℕ) :=
  refine (array length)
    (fun values => (toBytes values).bind fun bytes =>
      if exact : bytes.length = length then some ⟨bytes, exact⟩ else none)
    (fun bytes => some (ofBytes bytes.1)) (by
      intro values parts split
      obtain ⟨bytes, converted, sized⟩ := Option.bind_eq_some_iff.1 split
      split at sized
      · cases sized
        rw [ofBytes_of_toBytes converted]
      · cases sized)

/-! Enumerations. -/

def option (item : Codec Value) : Codec (Option Value) where
  write
    | none => some [0]
    | some value => (item.write value).map (1 :: ·)
  read
    | [] => none
    | tag :: bytes =>
        if tag = 0 then some (none, bytes)
        else if tag = 1 then (item.read bytes).map fun read => (some read.1, read.2)
        else none
  read_write := by
    intro value bytes rest written
    cases value with
    | none =>
        cases written
        rfl
    | some value =>
        obtain ⟨payload, writtenItem, rfl⟩ := Option.map_eq_some_iff.1 written
        have read := item.read_write rest writtenItem
        simp [read]

/-- A constructor of an enumeration with its payload. -/
structure Variant (Value : Type) where
  Payload : Type
  codec : Codec Payload
  project : Value → Option Payload
  inject : Payload → Value
  inject_project : ∀ {value payload}, project value = some payload → inject payload = value

def Variant.write (variant : Variant Value) (tag : ℕ) (value : Value) : Option Bytes :=
  (variant.project value).bind fun payload =>
    (variant.codec.write payload).map (Fin.ofNat 256 tag :: ·)

/-- An enumeration: the position of the constructor, and then its payload. -/
def enum (variants : List (Variant Value)) (few : variants.length ≤ 256) : Codec Value where
  write value := variants.zipIdx.findSome? fun (variant, tag) => variant.write tag value
  read
    | [] => none
    | tag :: bytes =>
        match variants[tag.val]? with
        | none => none
        | some variant => (variant.codec.read bytes).map fun read => (variant.inject read.1, read.2)
  read_write := by
    intro value bytes rest written
    obtain ⟨⟨variant, tag⟩, member, writtenVariant⟩ := List.exists_of_findSome?_eq_some written
    obtain ⟨payload, projected, tagged⟩ := Option.bind_eq_some_iff.1 writtenVariant
    obtain ⟨back, writtenPayload, rfl⟩ := Option.map_eq_some_iff.1 tagged
    have found : variants[tag]? = some variant := List.mk_mem_zipIdx_iff_getElem?.1 member
    have small : tag < 256 := by
      have bound := (List.getElem?_eq_some_iff.1 found).1
      omega
    have read := variant.codec.read_write rest writtenPayload
    have sameTag : (Fin.ofNat 256 tag).val = tag := by
      rw [Fin.val_ofNat, Nat.mod_eq_of_lt small]
    simp only [List.cons_append, sameTag, found, read, Option.map_some,
      variant.inject_project projected]

def writeItems (item : Codec Value) : List Value → Option Bytes
  | [] => some []
  | value :: values =>
      (item.write value).bind fun front => (writeItems item values).map (front ++ ·)

def readItems (item : Codec Value) : ℕ → Bytes → Option (List Value × Bytes)
  | 0, bytes => some ([], bytes)
  | count + 1, bytes =>
      (item.read bytes).bind fun first => (readItems item count first.2).map fun others =>
        (first.1 :: others.1, others.2)

theorem readItems_writeItems (item : Codec Value) {values : List Value} {bytes : Bytes}
    (written : writeItems item values = some bytes) (rest : Bytes) :
    readItems item values.length (bytes ++ rest) = some (values, rest) := by
  induction values generalizing bytes with
  | nil =>
      cases written
      rfl
  | cons value values ih =>
      obtain ⟨front, writtenFirst, written⟩ := Option.bind_eq_some_iff.1 written
      obtain ⟨back, writtenRest, rfl⟩ := Option.map_eq_some_iff.1 written
      rw [List.append_assoc, List.length_cons, readItems, item.read_write _ writtenFirst,
        Option.bind_some, ih writtenRest, Option.map_some]

theorem writeItems_append (item : Codec Value) (values values' : List Value) :
    writeItems item (values ++ values') =
      (writeItems item values).bind fun front => (writeItems item values').map (front ++ ·) := by
  induction values with
  | nil => simp [writeItems]
  | cons value values ih =>
      rw [List.cons_append, writeItems, writeItems, ih]
      cases item.write value with
      | none => rfl
      | some front =>
          cases writeItems item values with
          | none => rfl
          | some back =>
              cases writeItems item values' with
              | none => rfl
              | some last => simp

theorem isSome_writeItems_iff {item : Codec Value} {values : List Value} :
    (writeItems item values).isSome ↔ ∀ value ∈ values, (item.write value).isSome := by
  induction values with
  | nil => simp [writeItems]
  | cons value values ih =>
      rw [List.forall_mem_cons, ← ih, writeItems]
      cases item.write value with
      | none => simp
      | some front => simp

/-- A list behind the number of its items. -/
def vec (item : Codec Value) : Codec (List Value) where
  write values :=
    if values.length < 256 ^ 4 then (writeItems item values).map (toLeBytes 4 values.length ++ ·)
    else none
  read bytes := (splitBytes 4 bytes).bind fun split => readItems item (ofLeBytes split.1) split.2
  read_write := by
    intro values bytes rest written
    split at written
    · rename_i fits
      obtain ⟨back, writtenItems, rfl⟩ := Option.map_eq_some_iff.1 written
      rw [List.append_assoc, splitBytes_append _ (length_toLeBytes 4 values.length),
        Option.bind_some, ofLeBytes_toLeBytes, Nat.mod_eq_of_lt fits,
        readItems_writeItems item writtenItems]
    · cases written

/-! Which values are written. -/

variable {left : Codec Left} {right : Codec Right} {item : Codec Value}

@[simp] theorem isSome_write_uint (width : ℕ) (value : UInt width) :
    ((uint width).write value).isSome := rfl

@[simp] theorem isSome_write_blob_iff {value : Bytes} :
    (blob.write value).isSome ↔ value.length < 256 ^ 4 := by
  simp only [blob]
  by_cases fits : value.length < 256 ^ 4
  · rw [if_pos fits]
    exact ⟨fun _ => fits, fun _ => rfl⟩
  · rw [if_neg fits]
    exact ⟨nofun, fun more => absurd more fits⟩

@[simp] theorem isSome_write_string_iff {text : String} :
    (string.write text).isSome ↔ (utf8Bytes text).length < 256 ^ 4 := isSome_write_blob_iff

@[simp] theorem isSome_write_pair_iff {value : Left × Right} :
    ((pair left right).write value).isSome ↔
      (left.write value.1).isSome ∧ (right.write value.2).isSome := by
  simp only [pair]
  cases left.write value.1 with
  | none => simp
  | some front => simp

@[simp] theorem isSome_write_struct_iff {codec : Codec Left} {fields : Value → Left}
    {build : Left → Value} {build_fields : ∀ value, build (fields value) = value} {value : Value} :
    ((struct codec fields build build_fields).write value).isSome ↔
      (codec.write (fields value)).isSome := Iff.rfl

@[simp] theorem isSome_write_vec_iff {values : List Value} :
    ((vec item).write values).isSome ↔
      values.length < 256 ^ 4 ∧ ∀ value ∈ values, (item.write value).isSome := by
  rw [← isSome_writeItems_iff]
  simp only [vec]
  split
  · simp_all
  · simp_all

end Borsh
