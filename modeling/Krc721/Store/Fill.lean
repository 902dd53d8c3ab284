import Krc721.Store.Partition

/-! Partitions that are filled from a list of rows, of which a later one replaces an earlier one
with its key. -/

set_option autoImplicit false

namespace OrderedStore.Partition

variable {Key Value : Type} [LinearOrder Key]

def insertAll (partition : Partition Key Value) (rows : List (Key × Value)) :
    Partition Key Value :=
  rows.foldl (fun partition row => partition.insert row.1 row.2) partition

variable {partition : Partition Key Value} {rows rows' : List (Key × Value)} {key : Key}

@[simp] theorem insertAll_nil : partition.insertAll [] = partition := rfl

@[simp] theorem insertAll_cons (row : Key × Value) :
    partition.insertAll (row :: rows) = (partition.insert row.1 row.2).insertAll rows := rfl

theorem insertAll_append :
    partition.insertAll (rows ++ rows') = (partition.insertAll rows).insertAll rows' :=
  List.foldl_append

/-- A key is found if a row has it. -/
theorem isSome_get_insertAll_iff :
    ((partition.insertAll rows).get key).isSome ↔
      (∃ row ∈ rows, row.1 = key) ∨ (partition.get key).isSome := by
  induction rows generalizing partition with
  | nil => simp
  | cons row rows ih =>
      rw [insertAll_cons, ih, get_insert]
      by_cases same : row.1 = key
      · simp [same]
      · simp [same]

/-- What is found is the last row of its key. -/
theorem get_insertAll_eq_some_iff {value : Value} :
    ((∅ : Partition Key Value).insertAll rows).get key = some value ↔
      ∃ index, rows[index]? = some (key, value) ∧
        ∀ (later : ℕ) (row : Key × Value), index < later → rows[later]? = some row →
          row.1 ≠ key := by
  induction rows using List.reverseRecOn with
  | nil => simp
  | append_singleton rows row ih =>
      obtain ⟨rowKey, rowValue⟩ := row
      rw [insertAll_append, insertAll_cons, insertAll_nil, get_insert]
      by_cases same : rowKey = key
      · subst same
        rw [if_pos rfl]
        constructor
        · intro found
          cases found
          refine ⟨rows.length, List.getElem?_concat_length, fun later row after found => ?_⟩
          rw [List.getElem?_eq_none (by simpa using after)] at found
          cases found
        · rintro ⟨index, found, last⟩
          have inside := (List.getElem?_eq_some_iff.1 found).1
          rw [List.length_append, List.length_singleton] at inside
          rcases Nat.lt_or_eq_of_le (Nat.le_of_lt_succ inside) with before | rfl
          · exact absurd rfl (last _ _ before List.getElem?_concat_length)
          · rw [List.getElem?_concat_length] at found
            cases found
            rfl
      · rw [if_neg same, ih]
        constructor
        · rintro ⟨index, found, last⟩
          have inside := (List.getElem?_eq_some_iff.1 found).1
          refine ⟨index, by rw [List.getElem?_append_left inside, found], ?_⟩
          intro later row after found
          rw [List.getElem?_append] at found
          split at found
          · exact last later row after found
          · rw [List.getElem?_singleton] at found
            split at found
            · cases found
              exact same
            · cases found
        · rintro ⟨index, found, last⟩
          have inside : index < rows.length := by
            by_contra outside
            rw [List.getElem?_append_right (Nat.le_of_not_lt outside),
              List.getElem?_singleton] at found
            split at found
            · cases found
              exact same rfl
            · cases found
          rw [List.getElem?_append_left inside] at found
          refine ⟨index, found, fun later row after found => last later row after ?_⟩
          rw [List.getElem?_append_left (List.getElem?_eq_some_iff.1 found).1, found]

/-- The entries of a partition fill an empty one with the same rows. -/
theorem insertAll_entries (source : Partition Key Value) :
    (∅ : Partition Key Value).insertAll source.entries = source := by
  ext key value
  rw [get_insertAll_eq_some_iff, ← mem_entries, List.mem_iff_getElem?]
  refine ⟨fun ⟨index, found, _⟩ => ⟨index, found⟩, fun ⟨index, found⟩ => ⟨index, found, ?_⟩⟩
  intro later row after foundLater
  obtain ⟨inside, same⟩ := List.getElem?_eq_some_iff.1 found
  obtain ⟨insideLater, rfl⟩ := List.getElem?_eq_some_iff.1 foundLater
  have ordered := List.pairwise_iff_getElem.1 (entries_ordered source) index later inside
    insideLater after
  rw [same] at ordered
  exact ordered.ne'

end OrderedStore.Partition
