import Krc721.Store.Bytes

/-! Ordered key-value partitions: finite maps that iterate in ascending key order. Two
partitions with the same lookups are equal, so "the same contents" is equality. -/

set_option autoImplicit false

namespace OrderedStore

/-- A finite map that iterates in the order of its keys. -/
def Partition (Key Value : Type) [LinearOrder Key] : Type :=
  Std.ExtTreeMap Key Value compare

namespace Partition

variable {Key Value : Type} [LinearOrder Key]

def empty : Partition Key Value := (∅ : Std.ExtTreeMap Key Value compare)

instance : EmptyCollection (Partition Key Value) := ⟨empty⟩

instance : Inhabited (Partition Key Value) := ⟨empty⟩

/-- The value stored under a key. -/
def get (partition : Partition Key Value) (key : Key) : Option Value :=
  Std.ExtTreeMap.get? partition key

/-- Store a value under a key, replacing the one that was there. -/
def insert (partition : Partition Key Value) (key : Key) (value : Value) :
    Partition Key Value :=
  Std.ExtTreeMap.insert partition key value

/-- Remove a key; nothing happens when it is absent. -/
def erase (partition : Partition Key Value) (key : Key) : Partition Key Value :=
  Std.ExtTreeMap.erase partition key

/-- All entries in ascending key order. -/
def entries (partition : Partition Key Value) : List (Key × Value) :=
  Std.ExtTreeMap.toList partition

/-- The entries at or above a key, in ascending key order. -/
def entriesFrom (partition : Partition Key Value) (low : Key) : List (Key × Value) :=
  partition.entries.filter fun entry => low ≤ entry.1

/-- The keys at or above a key, in ascending order. -/
def keysFrom (partition : Partition Key Value) (low : Key) : List Key :=
  (partition.entriesFrom low).map Prod.fst

/-- The keys between two bounds, in ascending order. -/
def keysBetween (partition : Partition Key Value) (low high : Key) : List Key :=
  (partition.keysFrom low).filter fun key => key ≤ high

/-- The first entry, in key order, whose key satisfies a test. -/
def firstWhere (partition : Partition Key Value) (test : Key → Bool) :
    Option (Key × Value) :=
  partition.entries.find? fun entry => test entry.1

def lastKey (partition : Partition Key Value) : Option Key :=
  partition.entries.getLast?.map Prod.fst

/-! Lookups determine a partition. -/

@[ext] theorem ext {left right : Partition Key Value}
    (same : ∀ key, left.get key = right.get key) : left = right :=
  Std.ExtTreeMap.ext_getElem? fun key => same key

@[simp] theorem get_empty (key : Key) : (∅ : Partition Key Value).get key = none :=
  Std.ExtTreeMap.getElem?_empty

@[grind =] theorem get_insert (partition : Partition Key Value) (key key' : Key)
    (value : Value) :
    (partition.insert key value).get key' =
      if key = key' then some value else partition.get key' := by
  have stored := Std.ExtTreeMap.getElem?_insert
    (t := (partition : Std.ExtTreeMap Key Value compare)) (k := key) (a := key') (v := value)
  simp only [compare_eq_iff_eq] at stored
  exact stored

@[simp] theorem get_insert_self (partition : Partition Key Value) (key : Key)
    (value : Value) : (partition.insert key value).get key = some value := by
  simp [get_insert]

theorem get_insert_of_ne (partition : Partition Key Value) {key key' : Key}
    (value : Value) (different : key ≠ key') :
    (partition.insert key value).get key' = partition.get key' := by
  simp [get_insert, different]

@[grind =] theorem get_erase (partition : Partition Key Value) (key key' : Key) :
    (partition.erase key).get key' = if key = key' then none else partition.get key' := by
  have erased := Std.ExtTreeMap.getElem?_erase
    (t := (partition : Std.ExtTreeMap Key Value compare)) (k := key) (a := key')
  simp only [compare_eq_iff_eq] at erased
  exact erased

@[simp] theorem get_erase_self (partition : Partition Key Value) (key : Key) :
    (partition.erase key).get key = none := by
  simp [get_erase]

theorem get_erase_of_ne (partition : Partition Key Value) {key key' : Key}
    (different : key ≠ key') : (partition.erase key).get key' = partition.get key' := by
  simp [get_erase, different]

/-- Removing an absent key changes nothing. -/
theorem erase_of_get_eq_none {partition : Partition Key Value} {key : Key}
    (absent : partition.get key = none) : partition.erase key = partition := by
  ext key'
  rw [get_erase]
  split
  · subst key'
    rw [absent]
  · rfl

/-- Removing a freshly inserted key undoes the insertion. -/
theorem erase_insert {partition : Partition Key Value} {key : Key} (value : Value)
    (absent : partition.get key = none) :
    (partition.insert key value).erase key = partition := by
  ext key'
  rw [get_erase, get_insert]
  split
  · subst key'
    rw [absent]
  · rfl

/-! Iteration lists exactly the stored entries, in strictly ascending key order. -/

theorem mem_entries {partition : Partition Key Value} {key : Key} {value : Value} :
    (key, value) ∈ partition.entries ↔ partition.get key = some value :=
  Std.ExtTreeMap.mem_toList_iff_getElem?_eq_some

theorem entries_ordered (partition : Partition Key Value) :
    partition.entries.Pairwise fun left right => left.1 < right.1 := by
  have ordered := Std.ExtTreeMap.ordered_keys_toList
    (t := (partition : Std.ExtTreeMap Key Value compare))
  exact ordered.imp fun less => compare_lt_iff_lt.1 less

theorem mem_entriesFrom {partition : Partition Key Value} {low key : Key} {value : Value} :
    (key, value) ∈ partition.entriesFrom low ↔
      partition.get key = some value ∧ low ≤ key := by
  simp [entriesFrom, List.mem_filter, mem_entries]

theorem entriesFrom_ordered (partition : Partition Key Value) (low : Key) :
    (partition.entriesFrom low).Pairwise fun left right => left.1 < right.1 :=
  (entries_ordered partition).filter _

theorem mem_keysFrom {partition : Partition Key Value} {low key : Key} :
    key ∈ partition.keysFrom low ↔ (partition.get key).isSome ∧ low ≤ key := by
  simp only [keysFrom, List.mem_map, Prod.exists, exists_and_right, exists_eq_right,
    mem_entriesFrom, Option.isSome_iff_exists]

theorem mem_keysBetween {partition : Partition Key Value} {low high key : Key} :
    key ∈ partition.keysBetween low high ↔
      (partition.get key).isSome ∧ low ≤ key ∧ key ≤ high := by
  simp [keysBetween, List.mem_filter, mem_keysFrom, and_assoc]

theorem keysFrom_ordered (partition : Partition Key Value) (low : Key) :
    (partition.keysFrom low).Pairwise (· < ·) :=
  List.pairwise_map.2 (entriesFrom_ordered partition low)

/-! The first match of a test is the match with the least key. -/

theorem firstWhere_eq_some_iff {partition : Partition Key Value} {test : Key → Bool}
    {key : Key} {value : Value} :
    partition.firstWhere test = some (key, value) ↔
      partition.get key = some value ∧ test key = true ∧
        ∀ key' value', partition.get key' = some value' → test key' = true → key ≤ key' := by
  constructor
  · intro found
    obtain ⟨matched, before, after, split, rejected⟩ := List.find?_eq_some_iff_append.1 found
    have member : (key, value) ∈ partition.entries := by simp [split]
    refine ⟨mem_entries.1 member, matched, ?_⟩
    intro key' value' stored matched'
    have member' := mem_entries.2 stored
    rw [split, List.mem_append, List.mem_cons] at member'
    have ordered := entries_ordered partition
    rw [split, List.pairwise_append, List.pairwise_cons] at ordered
    rcases member' with early | same | late
    · simpa [matched'] using rejected _ early
    · cases same
      exact le_rfl
    · exact (ordered.2.1.1 _ late).le
  · rintro ⟨stored, matched, least⟩
    cases found : partition.firstWhere test with
    | none =>
        have rejected := List.find?_eq_none.1 found _ (mem_entries.2 stored)
        exact absurd matched rejected
    | some entry =>
        obtain ⟨key', value'⟩ := entry
        obtain ⟨matched', before, after, split, rejected⟩ :=
          List.find?_eq_some_iff_append.1 found
        have stored' : partition.get key' = some value' :=
          mem_entries.1 (by simp [split])
        have low := least key' value' stored' matched'
        have member := mem_entries.2 stored
        rw [split, List.mem_append, List.mem_cons] at member
        have ordered := entries_ordered partition
        rw [split, List.pairwise_append, List.pairwise_cons] at ordered
        rcases member with early | same | late
        · simpa [matched] using rejected _ early
        · rw [same]
        · exact absurd (ordered.2.1.1 _ late) (not_lt.2 low)

theorem firstWhere_eq_none_iff {partition : Partition Key Value} {test : Key → Bool} :
    partition.firstWhere test = none ↔
      ∀ key value, partition.get key = some value → test key = false := by
  simp only [firstWhere, List.find?_eq_none, Prod.forall, mem_entries, Bool.not_eq_true]

theorem isSome_get_of_mem_entries {partition : Partition Key Value} {entry : Key × Value}
    (member : entry ∈ partition.entries) : (partition.get entry.1).isSome :=
  Option.isSome_iff_exists.2 ⟨entry.2, mem_entries.1 member⟩

/-- The first entry that matches is at or before every matching row. -/
theorem exists_firstWhere {partition : Partition Key Value} {test : Key → Bool} {key : Key}
    (present : (partition.get key).isSome) (matched : test key = true) :
    ∃ first value, partition.firstWhere test = some (first, value) ∧ test first = true ∧
      first ≤ key := by
  obtain ⟨row, stored⟩ := Option.isSome_iff_exists.1 present
  cases found : partition.firstWhere test with
  | none =>
      rw [firstWhere_eq_none_iff.1 found key row stored] at matched
      cases matched
  | some entry =>
      obtain ⟨_, matches', least⟩ := firstWhere_eq_some_iff.1 found
      exact ⟨entry.1, entry.2, rfl, matches', least key row stored matched⟩

theorem lastKey_eq_some_iff {partition : Partition Key Value} {key : Key} :
    partition.lastKey = some key ↔
      (partition.get key).isSome ∧
        ∀ key', (partition.get key').isSome → key' ≤ key := by
  have ordered := entries_ordered partition
  constructor
  · intro last
    obtain ⟨entry, found, rfl⟩ := Option.map_eq_some_iff.1 last
    obtain ⟨before, split⟩ := List.getLast?_eq_some_iff.1 found
    have member : (entry.1, entry.2) ∈ partition.entries := by simp [split]
    refine ⟨by simp [mem_entries.1 member], fun key' present => ?_⟩
    obtain ⟨value', stored⟩ := Option.isSome_iff_exists.1 present
    have member' := mem_entries.2 stored
    rw [split, List.mem_append, List.mem_singleton] at member'
    rw [split, List.pairwise_append] at ordered
    rcases member' with early | same
    · exact (ordered.2.2 _ early _ (List.mem_singleton_self _)).le
    · rw [← same]
  · rintro ⟨present, greatest⟩
    obtain ⟨value, stored⟩ := Option.isSome_iff_exists.1 present
    have member := mem_entries.2 stored
    cases found : partition.entries.getLast? with
    | none =>
        rw [List.getLast?_eq_none_iff.1 found] at member
        cases member
    | some entry =>
        obtain ⟨before, split⟩ := List.getLast?_eq_some_iff.1 found
        have entryMember : (entry.1, entry.2) ∈ partition.entries := by simp [split]
        have below := greatest entry.1 (by simp [mem_entries.1 entryMember])
        rw [split, List.mem_append, List.mem_singleton] at member
        rw [split, List.pairwise_append] at ordered
        simp only [lastKey, found, Option.map_some, Option.some.injEq]
        rcases member with early | same
        · exact absurd (ordered.2.2 _ early _ (List.mem_singleton_self _)) (not_lt.2 below)
        · rw [← same]

/-! Loops that remove keys. -/

theorem get_foldl_erase {Item : Type} (keyOf : Item → Key) (items : List Item)
    (partition : Partition Key Value) (key : Key) :
    (items.foldl (fun partition item => partition.erase (keyOf item)) partition).get key =
      if ∃ item ∈ items, keyOf item = key then none else partition.get key := by
  induction items generalizing partition with
  | nil => simp
  | cons item items ih =>
      rw [List.foldl_cons, ih, get_erase]
      by_cases here : keyOf item = key
      · simp [here]
      · simp [here]

end Partition

end OrderedStore
