import Krc721.Store.Partition

/-! Partitions cut at a threshold. Rows carry a score; the rows below a threshold are what a
rollback to it leaves, and rows at or above it are what came later. -/

set_option autoImplicit false

namespace OrderedStore

namespace Partition

variable {Key Value : Type} [LinearOrder Key]

/-- The rows with a score below the threshold. -/
def below (partition : Partition Key Value) (score : Key → Value → ℕ) (threshold : ℕ) :
    Partition Key Value :=
  Std.ExtTreeMap.filter (fun key value => score key value < threshold) partition

/-- Every row has a score below the bound. -/
def Under (partition : Partition Key Value) (score : Key → Value → ℕ) (bound : ℕ) : Prop :=
  ∀ key value, partition.get key = some value → score key value < bound

variable {partition : Partition Key Value} {score : Key → Value → ℕ} {threshold bound : ℕ}

@[grind =] theorem get_below (partition : Partition Key Value) (score : Key → Value → ℕ)
    (threshold : ℕ) (key : Key) :
    (partition.below score threshold).get key =
      (partition.get key).filter fun value => decide (score key value < threshold) :=
  Std.ExtTreeMap.getElem?_filter'

theorem get_below_eq_some_iff {key : Key} {value : Value} :
    (partition.below score threshold).get key = some value ↔
      partition.get key = some value ∧ score key value < threshold := by
  simp [get_below, Option.filter_eq_some_iff]

/-- Presence below the threshold, where the score is read off the key. -/
theorem isSome_get_below {key : Key} (rowScore : ℕ)
    (same : ∀ value, score key value = rowScore) :
    ((partition.below score threshold).get key).isSome ↔
      (partition.get key).isSome ∧ rowScore < threshold := by
  rw [get_below]
  cases stored : partition.get key with
  | none => simp
  | some value =>
      rw [Option.filter_some, same]
      split
      · rename_i low
        simpa using low
      · rename_i high
        simpa using high

/-- A row inserted at or above the threshold does not show below it. -/
theorem below_insert {key : Key} {value : Value} (reached : threshold ≤ score key value)
    (fresh : partition.get key = none) :
    (partition.insert key value).below score threshold = partition.below score threshold := by
  ext key' : 1
  rw [get_below, get_below, get_insert]
  split
  · subst key'
    simp [fresh, reached]
  · rfl

/-- The same when the score is read off the key, whatever was stored there. -/
theorem below_insert_of_key {key : Key} (value : Value)
    (reached : ∀ stored, threshold ≤ score key stored) :
    (partition.insert key value).below score threshold = partition.below score threshold := by
  ext key' : 1
  rw [get_below, get_below, get_insert]
  split
  · subst key'
    have cut : ∀ value, (some value).filter
        (fun value => decide (score key value < threshold)) = none := fun value => by
      rw [Option.filter_some, if_neg (by simpa using reached value)]
    rw [cut]
    cases partition.get key with
    | none => rfl
    | some old => rw [cut]
  · rfl

/-- Nothing is cut off when every row is below the threshold. -/
theorem below_eq_self (under : partition.Under score threshold) :
    partition.below score threshold = partition := by
  ext key : 1
  rw [get_below]
  cases stored : partition.get key with
  | none => rfl
  | some value => simp [under key value stored]

/-- A partition without exactly the rows at or above the threshold is the part below it. -/
theorem eq_below {rest : Partition Key Value}
    (kept : ∀ key value, partition.get key = some value → score key value < threshold →
      rest.get key = some value)
    (removed : ∀ key value, partition.get key = some value → threshold ≤ score key value →
      rest.get key = none)
    (absent : ∀ key, partition.get key = none → rest.get key = none) :
    rest = partition.below score threshold := by
  ext key : 1
  rw [get_below]
  cases stored : partition.get key with
  | none => exact absent key stored
  | some value =>
      by_cases low : score key value < threshold
      · rw [kept key value stored low, Option.filter_some, if_pos (by simpa using low)]
      · rw [removed key value stored (not_lt.1 low), Option.filter_some,
          if_neg (by simpa using low)]

theorem under_below : (partition.below score threshold).Under score threshold := by
  intro key value stored
  exact (get_below_eq_some_iff.1 stored).2

theorem Under.mono {higher : ℕ} (under : partition.Under score bound) (le : bound ≤ higher) :
    partition.Under score higher :=
  fun key value stored => (under key value stored).trans_le le

theorem Under.insert {key : Key} {value : Value} (under : partition.Under score bound)
    (low : score key value < bound) : (partition.insert key value).Under score bound := by
  intro key' value' stored
  rw [get_insert] at stored
  split at stored
  · cases stored
    subst key'
    exact low
  · exact under key' value' stored

theorem Under.erase {key : Key} (under : partition.Under score bound) :
    (partition.erase key).Under score bound := by
  intro key' value' stored
  rw [get_erase] at stored
  split at stored
  · cases stored
  · exact under key' value' stored

theorem under_empty : (∅ : Partition Key Value).Under score bound := by
  intro key value stored
  rw [get_empty] at stored
  cases stored

/-- Erasing the keys of every row at or above the threshold leaves the part below it. -/
theorem foldl_erase_eq_below {Item : Type} (keyOf : Item → Key) (items : List Item)
    (reaches : ∀ key value, partition.get key = some value → threshold ≤ score key value →
      ∃ item ∈ items, keyOf item = key)
    (spares : ∀ item ∈ items, ∀ value, partition.get (keyOf item) = some value →
      threshold ≤ score (keyOf item) value) :
    items.foldl (fun partition item => partition.erase (keyOf item)) partition =
      partition.below score threshold := by
  refine eq_below ?_ ?_ ?_
  · intro key value stored low
    rw [get_foldl_erase, if_neg, stored]
    rintro ⟨item, member, rfl⟩
    exact absurd (spares item member value stored) (not_le.2 low)
  · intro key value stored high
    rw [get_foldl_erase, if_pos (reaches key value stored high)]
  · intro key absent
    rw [get_foldl_erase, absent, ite_self]

end Partition

end OrderedStore
