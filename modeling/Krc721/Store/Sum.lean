import Krc721.Store.Threshold

/-! Sums over the rows of a partition. A new row adds its weight, and a threshold on the key
cuts a sum into the rows below it and the rows from it on. -/

set_option autoImplicit false

namespace OrderedStore

namespace Partition

variable {Key Value : Type} [LinearOrder Key]

def sum (partition : Partition Key Value) (weight : Value → ℕ) : ℕ :=
  (partition.entries.map fun entry => weight entry.2).sum

/-- The sum of the weights of the rows at or above a key. -/
def sumFrom (partition : Partition Key Value) (low : Key) (weight : Value → ℕ) : ℕ :=
  ((partition.entriesFrom low).map fun entry => weight entry.2).sum

variable {partition : Partition Key Value} {weight : Value → ℕ}

theorem entries_nodup (partition : Partition Key Value) : partition.entries.Nodup :=
  (entries_ordered partition).imp fun less same => less.ne (congrArg Prod.fst same)

theorem entries_insert_perm {key : Key} (value : Value) (fresh : partition.get key = none) :
    (partition.insert key value).entries.Perm ((key, value) :: partition.entries) := by
  have absent : (key, value) ∉ partition.entries := by
    rw [mem_entries, fresh]
    exact nofun
  rw [List.perm_ext_iff_of_nodup (entries_nodup _)
    (List.nodup_cons.2 ⟨absent, entries_nodup _⟩)]
  intro entry
  obtain ⟨key', value'⟩ := entry
  rw [List.mem_cons, mem_entries, mem_entries, get_insert, Prod.mk.injEq]
  grind

theorem sum_insert {key : Key} (value : Value) (fresh : partition.get key = none) :
    (partition.insert key value).sum weight = partition.sum weight + weight value := by
  have permuted := ((entries_insert_perm value fresh).map fun entry => weight entry.2).sum_nat
  rw [List.map_cons, List.sum_cons] at permuted
  rw [sum, sum, permuted, Nat.add_comm]

theorem sum_empty : (∅ : Partition Key Value).sum weight = 0 := by
  have none : (∅ : Partition Key Value).entries = [] := by
    rw [List.eq_nil_iff_forall_not_mem]
    intro entry member
    obtain ⟨key, value⟩ := entry
    rw [mem_entries, get_empty] at member
    cases member
  rw [sum, none, List.map_nil, List.sum_nil]

/-- A threshold cuts the sum in two. -/
theorem sum_eq_below_add_sumFrom {partition : Partition ℕ Value} (threshold : ℕ) :
    partition.sum weight = (partition.below (fun key _ => key) threshold).sum weight +
      partition.sumFrom threshold weight := by
  have permuted : partition.entries.Perm
      ((partition.below (fun key _ => key) threshold).entries ++
        partition.entriesFrom threshold) := by
    refine (List.perm_ext_iff_of_nodup (entries_nodup _) ?_).2 ?_
    · refine List.nodup_append.2 ⟨entries_nodup _, (entries_nodup _).filter _, ?_⟩
      intro left low right high same
      subst same
      obtain ⟨key, value⟩ := left
      rw [mem_entries, get_below_eq_some_iff] at low
      rw [mem_entriesFrom] at high
      exact absurd low.2 (not_lt.2 high.2)
    · intro entry
      obtain ⟨key, value⟩ := entry
      rw [List.mem_append, mem_entries, mem_entries, mem_entriesFrom, get_below_eq_some_iff]
      have cases := lt_or_ge key threshold
      tauto
  have sums := (permuted.map fun entry => weight entry.2).sum_nat
  rw [List.map_append, List.sum_append] at sums
  exact sums

theorem sumFrom_add {low : Key} (left right : Value → ℕ) :
    partition.sumFrom low (fun value => left value + right value) =
      partition.sumFrom low left + partition.sumFrom low right := by
  unfold sumFrom
  rw [← List.sum_map_add]

theorem sumFrom_eq_zero_iff {low : Key} : partition.sumFrom low weight = 0 ↔
    ∀ key value, partition.get key = some value → low ≤ key → weight value = 0 := by
  unfold sumFrom
  rw [List.sum_eq_zero_iff]
  constructor
  · intro zeros key value stored reached
    exact zeros _ (List.mem_map.2 ⟨(key, value), mem_entriesFrom.2 ⟨stored, reached⟩, rfl⟩)
  · intro zeros row member
    obtain ⟨⟨key, value⟩, inside, same⟩ := List.mem_map.1 member
    obtain ⟨stored, reached⟩ := mem_entriesFrom.1 inside
    rw [← same]
    exact zeros key value stored reached

end Partition

end OrderedStore
