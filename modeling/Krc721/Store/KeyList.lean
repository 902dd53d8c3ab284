import Krc721.Store.Threshold
import Mathlib.Data.List.Sort

/-! The keys of a partition as an ascending list: appending a key above all others appends it to
the list, and a cut at a score splits the list. -/

set_option autoImplicit false

namespace OrderedStore

namespace Partition

variable {Key Value : Type} [LinearOrder Key]

/-- All keys, in ascending order. -/
def keys (partition : Partition Key Value) : List Key :=
  partition.entries.map Prod.fst

variable {partition : Partition Key Value} {key : Key}

@[simp] theorem mem_keys : key ∈ partition.keys ↔ (partition.get key).isSome := by
  simp only [keys, List.mem_map, Prod.exists, exists_and_right, exists_eq_right, mem_entries,
    Option.isSome_iff_exists]

theorem keys_ordered (partition : Partition Key Value) : partition.keys.Pairwise (· < ·) :=
  List.pairwise_map.2 (entries_ordered partition)

/-- An ascending list of the stored keys is the list of the keys. -/
theorem keys_eq {list : List Key} (ordered : list.Pairwise (· < ·))
    (members : ∀ key, (partition.get key).isSome ↔ key ∈ list) : partition.keys = list :=
  (keys_ordered partition).eq_of_mem_iff ordered fun key => mem_keys.trans (members key)

@[simp] theorem keys_empty : (∅ : Partition Key Value).keys = [] :=
  keys_eq .nil (by simp)

/-- An entry above all others comes last. -/
theorem entries_insert (value : Value)
    (greatest : ∀ stored, (partition.get stored).isSome → stored < key) :
    (partition.insert key value).entries = partition.entries ++ [(key, value)] := by
  apply (entries_ordered _).eq_of_mem_iff (r := fun left right => left.1 < right.1)
  · apply List.pairwise_append.2
    refine ⟨entries_ordered partition, List.pairwise_singleton _ _,
      fun stored member last inLast => ?_⟩
    rw [List.mem_singleton.1 inLast]
    exact greatest stored.1 (isSome_get_of_mem_entries member)
  · intro entry
    obtain ⟨stored, row⟩ := entry
    rw [mem_entries, get_insert, List.mem_append, List.mem_singleton, mem_entries, Prod.mk.injEq]
    by_cases same : key = stored
    · subst same
      have absent : partition.get key = none := by
        rw [← Option.not_isSome_iff_eq_none]
        exact fun present => lt_irrefl _ (greatest key present)
      simp [absent, eq_comm]
    · simp [same, Ne.symm same]

theorem keys_insert (value : Value)
    (greatest : ∀ stored, (partition.get stored).isSome → stored < key) :
    (partition.insert key value).keys = partition.keys ++ [key] := by
  rw [keys, entries_insert value greatest, List.map_append, List.map_singleton, keys]

/-- A partition without values is the set of its keys. -/
theorem ext_keys {left right : Partition Key Unit}
    (same : ∀ key, (left.get key).isSome ↔ (right.get key).isSome) : left = right := by
  ext key : 1
  have stored := same key
  cases found : left.get key with
  | none =>
      rw [found] at stored
      exact (Option.not_isSome_iff_eq_none.1 fun present => by cases stored.2 present).symm
  | some row =>
      rw [found] at stored
      obtain ⟨row', found'⟩ := Option.isSome_iff_exists.1 (stored.1 rfl)
      exact found'.symm

/-- Cutting a partition at a score that ascends with the keys keeps a prefix of them. -/
theorem keys_below (partition : Partition Key Value) (score : Key → Value → ℕ) (threshold : ℕ)
    (rowScore : Key → ℕ)
    (same : ∀ key value, score key value = rowScore key)
    (monotone : ∀ {left right}, left ≤ right → rowScore left ≤ rowScore right) :
    ∃ later, partition.keys = (partition.below score threshold).keys ++ later ∧
      ∀ key ∈ later, threshold ≤ rowScore key := by
  refine ⟨partition.keys.filter fun key => decide (threshold ≤ rowScore key), ?_, ?_⟩
  · apply keys_eq
    · apply List.pairwise_append.2
      refine ⟨keys_ordered _, (keys_ordered partition).filter _, fun left low right high => ?_⟩
      rw [mem_keys, isSome_get_below (rowScore left) (same left)] at low
      have reached := of_decide_eq_true (List.mem_filter.1 high).2
      apply lt_of_not_ge
      intro below
      have ordered := monotone below
      omega
    · intro key
      rw [List.mem_append, List.mem_filter, mem_keys, mem_keys,
        isSome_get_below (rowScore key) (same key), decide_eq_true_iff]
      have split := lt_or_ge (rowScore key) threshold
      tauto
  · intro key member
    exact of_decide_eq_true (List.mem_filter.1 member).2

/-! Scans for the first entry that passes a test. -/

variable {test test' : Key → Bool}

/-- A scan only asks about the stored keys. -/
theorem firstWhere_congr (test test' : Key → Bool)
    (same : ∀ key, (partition.get key).isSome → test key = test' key) :
    partition.firstWhere test = partition.firstWhere test' := by
  apply List.find?_congr
  intro entry member
  exact same entry.1 (isSome_get_of_mem_entries member)

theorem firstWhere_insert_self (value : Value) (matched : test key = true)
    (least : ∀ stored, (partition.get stored).isSome → test stored = true → key < stored) :
    (partition.insert key value).firstWhere test = some (key, value) := by
  rw [firstWhere_eq_some_iff]
  refine ⟨get_insert_self _ _ _, matched, fun stored row found passes => ?_⟩
  rw [get_insert] at found
  split at found
  · rename_i same
    exact same.le
  · exact (least stored (Option.isSome_iff_exists.2 ⟨row, found⟩) passes).le

theorem firstWhere_insert_of_not (value : Value) (fails : test key = false) :
    (partition.insert key value).firstWhere test = partition.firstWhere test := by
  have other : ∀ stored, test stored = true →
      (partition.insert key value).get stored = partition.get stored := by
    intro stored passes
    apply get_insert_of_ne
    intro same
    rw [same, passes] at fails
    cases fails
  cases found : partition.firstWhere test with
  | none =>
      rw [firstWhere_eq_none_iff] at found ⊢
      intro stored row inserted
      by_contra passes
      rw [Bool.not_eq_false] at passes
      rw [other stored passes] at inserted
      rw [found stored row inserted] at passes
      cases passes
  | some entry =>
      obtain ⟨stored, row⟩ := entry
      rw [firstWhere_eq_some_iff] at found ⊢
      obtain ⟨present, passes, least⟩ := found
      refine ⟨(other stored passes).trans present, passes, fun next nextRow inserted matched => ?_⟩
      rw [other next matched] at inserted
      exact least next nextRow inserted matched

end Partition

end OrderedStore
