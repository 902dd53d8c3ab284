import Krc721.Store.KeyList

/-! Partitions whose rows are kept in another form. What is kept is read back, and the order of
the keys is that of their kept forms, so a partition and its kept form iterate alike. -/

set_option autoImplicit false

namespace OrderedStore

/-- How rows are written and read. Writing a value may be refused. -/
structure RowFormat (Key Value RawKey RawValue : Type) [LinearOrder Key] [LinearOrder RawKey] where
  writeKey : Key → RawKey
  readKey : RawKey → Option Key
  readKey_writeKey : ∀ key, readKey (writeKey key) = some key
  lt_iff : ∀ {left right : Key}, writeKey left < writeKey right ↔ left < right
  writeValue : Value → Option RawValue
  readValue : RawValue → Option Value
  readValue_of_writeValue : ∀ {value : Value} {written : RawValue},
    writeValue value = some written → readValue written = some value

namespace RowFormat

variable {Key Value RawKey RawValue : Type} [LinearOrder Key] [LinearOrder RawKey]
variable {format : RowFormat Key Value RawKey RawValue}

theorem writeKey_inj {left right : Key} :
    format.writeKey left = format.writeKey right ↔ left = right := by
  constructor
  · intro same
    have read := format.readKey_writeKey left
    rw [same, format.readKey_writeKey] at read
    exact (Option.some.inj read).symm
  · exact congrArg _

/-- The key is read first. -/
def readRow (format : RowFormat Key Value RawKey RawValue) (raw : RawKey × RawValue) :
    Option (Key × Value) := do
  let key ← format.readKey raw.1
  let value ← format.readValue raw.2
  some (key, value)

/-- A row and a form in which it is kept. There may be more than the one that is written. -/
def Keeps (format : RowFormat Key Value RawKey RawValue) (raw : RawKey × RawValue)
    (row : Key × Value) : Prop :=
  format.writeKey row.1 = raw.1 ∧ format.readValue raw.2 = some row.2

theorem Keeps.readRow {kept : RawKey × RawValue} {row : Key × Value}
    (keeps : format.Keeps kept row) : format.readRow kept = some row := by
  rw [RowFormat.readRow, ← keeps.1, format.readKey_writeKey, keeps.2]
  rfl

/-- A partition that keeps the rows of another. -/
structure Encodes (format : RowFormat Key Value RawKey RawValue)
    (raw : Partition RawKey RawValue) (rows : Partition Key Value) : Prop where
  stored : ∀ key,
    (raw.get (format.writeKey key)).map format.readValue = (rows.get key).map some
  covered : ∀ rawKey, (raw.get rawKey).isSome → ∃ key, format.writeKey key = rawKey

namespace Encodes

variable {raw : Partition RawKey RawValue} {rows : Partition Key Value}

theorem empty : format.Encodes ∅ ∅ where
  stored key := by simp
  covered rawKey present := by simp at present

theorem insert (encodes : format.Encodes raw rows) (key : Key) {value : Value}
    {bytes : RawValue} (read : format.readValue bytes = some value) :
    format.Encodes (raw.insert (format.writeKey key) bytes) (rows.insert key value) := by
  constructor
  case stored =>
    intro other
    rw [Partition.get_insert, Partition.get_insert]
    by_cases same : key = other
    · rw [if_pos (congrArg _ same), if_pos same, Option.map_some, Option.map_some, read]
    · rw [if_neg (writeKey_inj.not.2 same), if_neg same, encodes.stored]
  case covered =>
    intro rawKey present
    rw [Partition.get_insert] at present
    split at present
    · rename_i same
      exact ⟨key, same⟩
    · exact encodes.covered rawKey present

theorem erase (encodes : format.Encodes raw rows) (key : Key) :
    format.Encodes (raw.erase (format.writeKey key)) (rows.erase key) := by
  constructor
  case stored =>
    intro other
    rw [Partition.get_erase, Partition.get_erase]
    by_cases same : key = other
    · rw [if_pos (congrArg _ same), if_pos same, Option.map_none, Option.map_none]
    · rw [if_neg (writeKey_inj.not.2 same), if_neg same, encodes.stored]
  case covered =>
    intro rawKey present
    rw [Partition.get_erase] at present
    split at present
    · cases present
    · exact encodes.covered rawKey present

theorem isSome_get (encodes : format.Encodes raw rows) (key : Key) :
    (raw.get (format.writeKey key)).isSome = (rows.get key).isSome := by
  rw [← @Option.isSome_map _ _ format.readValue, encodes.stored, Option.isSome_map]

/-! Rows in their order. -/

theorem keeps_of_mem (encodes : format.Encodes raw rows) {kept : RawKey × RawValue}
    (member : kept ∈ raw.entries) : ∃ row, format.Keeps kept row ∧ row ∈ rows.entries := by
  have found := Partition.mem_entries.1 member
  obtain ⟨key, same⟩ := encodes.covered kept.1 (by rw [found]; rfl)
  have stored := encodes.stored key
  rw [same, found, Option.map_some] at stored
  obtain ⟨value, present, read⟩ := Option.map_eq_some_iff.1 stored.symm
  exact ⟨(key, value), ⟨same, read.symm⟩, Partition.mem_entries.2 present⟩

theorem mem_of_mem (encodes : format.Encodes raw rows) {row : Key × Value}
    (member : row ∈ rows.entries) : ∃ kept ∈ raw.entries, format.Keeps kept row := by
  have stored := encodes.stored row.1
  rw [Partition.mem_entries.1 member, Option.map_some] at stored
  obtain ⟨bytes, found, read⟩ := Option.map_eq_some_iff.1 stored
  exact ⟨(format.writeKey row.1, bytes), Partition.mem_entries.2 found, rfl, read⟩

/-- Both partitions iterate over corresponding rows. -/
theorem entries (encodes : format.Encodes raw rows) :
    List.Forall₂ format.Keeps raw.entries rows.entries := by
  have kept : ∀ list : List (RawKey × RawValue), (∀ raw ∈ list, ∃ row, format.Keeps raw row) →
      List.Forall₂ format.Keeps list (list.filterMap format.readRow) := by
    intro list all
    induction list with
    | nil => exact .nil
    | cons raw list ih =>
        obtain ⟨first, others⟩ := List.forall_mem_cons.1 all
        obtain ⟨row, keeps⟩ := first
        rw [List.filterMap_cons_some keeps.readRow]
        exact .cons keeps (ih others)
  have same : rows.entries = raw.entries.filterMap format.readRow := by
    apply (Partition.entries_ordered rows).eq_of_mem_iff
    · apply List.pairwise_filterMap.2
      apply (Partition.entries_ordered raw).imp_of_mem
      intro left right inLeft inRight ordered readLeft fromLeft readRight fromRight
      obtain ⟨row, keeps, _⟩ := encodes.keeps_of_mem inLeft
      obtain ⟨row', keeps', _⟩ := encodes.keeps_of_mem inRight
      rw [keeps.readRow] at fromLeft
      rw [keeps'.readRow] at fromRight
      cases fromLeft
      cases fromRight
      rw [← keeps.1, ← keeps'.1] at ordered
      exact format.lt_iff.1 ordered
    · intro row
      rw [List.mem_filterMap]
      constructor
      · intro member
        obtain ⟨kept, inRaw, keeps⟩ := encodes.mem_of_mem member
        exact ⟨kept, inRaw, keeps.readRow⟩
      · intro existing
        obtain ⟨kept, inRaw, read⟩ := existing
        obtain ⟨row', keeps, member⟩ := encodes.keeps_of_mem inRaw
        rw [keeps.readRow] at read
        cases read
        exact member
  rw [same]
  exact kept raw.entries fun kept member => by
    obtain ⟨row, keeps, _⟩ := encodes.keeps_of_mem member
    exact ⟨row, keeps⟩

/-- The rows whose keys pass a test are kept as the rows whose kept keys pass it. -/
theorem filter (encodes : format.Encodes raw rows) (test : RawKey → Bool) (test' : Key → Bool)
    (same : ∀ key, test (format.writeKey key) = test' key) :
    List.Forall₂ format.Keeps (raw.entries.filter fun row => test row.1)
      (rows.entries.filter fun row => test' row.1) := by
  apply List.rel_filter _ encodes.entries
  intro kept row keeps
  simp only [← keeps.1, same]

end Encodes

/-! Reading lists of rows. -/

variable {kept : List (RawKey × RawValue)} {list : List (Key × Value)}

/-- What is computed alike from a row and its kept form agrees on all rows. -/
theorem map_eq_of_keeps {Item : Type} {ofRaw : RawKey × RawValue → Item}
    {ofRow : Key × Value → Item} (keeps : List.Forall₂ format.Keeps kept list)
    (same : ∀ {raw row}, format.Keeps raw row → ofRaw raw = ofRow row) :
    kept.map ofRaw = list.map ofRow := by
  induction keeps with
  | nil => rfl
  | cons first rest ih => rw [List.map_cons, List.map_cons, ih, same first]

end RowFormat

end OrderedStore
