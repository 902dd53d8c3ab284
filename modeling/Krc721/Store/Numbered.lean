import Krc721.Store.Partition

/-! A queue in a partition: its items stand under consecutive numbers, new ones behind the last key
and old ones taken from the first. -/

set_option autoImplicit false

namespace OrderedStore.Partition

/-! The first and the last key depend on the keys only. -/

section

variable {Key Left Right : Type} [LinearOrder Key]
variable {left : Partition Key Left} {right : Partition Key Right}

theorem firstKey_eq_some_iff {key : Key} :
    (left.firstWhere fun _ => true).map Prod.fst = some key ↔
      (left.get key).isSome ∧ ∀ key', (left.get key').isSome → key ≤ key' := by
  constructor
  · intro found
    obtain ⟨⟨_, value⟩, first, rfl⟩ := Option.map_eq_some_iff.1 found
    obtain ⟨stored, _, least⟩ := firstWhere_eq_some_iff.1 first
    refine ⟨by rw [stored, Option.isSome_some], fun key' present => ?_⟩
    obtain ⟨value', stored'⟩ := Option.isSome_iff_exists.1 present
    exact least key' value' stored' rfl
  · rintro ⟨present, least⟩
    obtain ⟨value, stored⟩ := Option.isSome_iff_exists.1 present
    have found : left.firstWhere (fun _ => true) = some (key, value) := by
      rw [firstWhere_eq_some_iff]
      refine ⟨stored, rfl, fun key' value' stored' _ => least key' ?_⟩
      rw [stored', Option.isSome_some]
    rw [found, Option.map_some]

theorem lastKey_congr (same : ∀ key, (left.get key).isSome = (right.get key).isSome) :
    left.lastKey = right.lastKey := by
  refine Option.ext fun key => ?_
  rw [lastKey_eq_some_iff, lastKey_eq_some_iff]
  simp only [same]

theorem firstKey_congr (same : ∀ key, (left.get key).isSome = (right.get key).isSome) :
    (left.firstWhere fun _ => true).map Prod.fst =
      (right.firstWhere fun _ => true).map Prod.fst := by
  refine Option.ext fun key => ?_
  rw [firstKey_eq_some_iff, firstKey_eq_some_iff]
  simp only [same]

end

/-! The numbers. -/

variable {Item : Type} {first : ℕ} {item : Item} {items : List Item} {rows : Partition ℕ Item}

/-- The rows are the items under the numbers from `first` on. -/
def Numbered (first : ℕ) (items : List Item) (rows : Partition ℕ Item) : Prop :=
  ∀ key, rows.get key = if key < first then none else items[key - first]?

theorem numbered_empty : Numbered first ([] : List Item) ∅ := by
  intro key
  simp

namespace Numbered

theorem eq_empty (numbered : Numbered first ([] : List Item) rows) : rows = ∅ := by
  ext key
  rw [numbered key]
  simp

theorem isSome_get_iff (numbered : Numbered first items rows) (key : ℕ) :
    (rows.get key).isSome ↔ first ≤ key ∧ key < first + items.length := by
  rw [numbered key]
  split
  · simp
    omega
  · rw [isSome_getElem?]
    omega

theorem lastKey (numbered : Numbered first items rows) (nonempty : items ≠ []) :
    rows.lastKey = some (first + items.length - 1) := by
  have positive := List.length_pos_iff.2 nonempty
  rw [lastKey_eq_some_iff, numbered.isSome_get_iff]
  refine ⟨by omega, fun key stored => ?_⟩
  have bounds := (numbered.isSome_get_iff key).1 stored
  omega

theorem firstKey (numbered : Numbered first (item :: items) rows) :
    (rows.firstWhere fun _ => true).map Prod.fst = some first := by
  rw [firstKey_eq_some_iff, numbered.isSome_get_iff, List.length_cons]
  refine ⟨by omega, fun key stored => ?_⟩
  exact ((numbered.isSome_get_iff key).1 stored).1

theorem push (numbered : Numbered first items rows) :
    Numbered first (items ++ [item]) (rows.insert (first + items.length) item) := by
  intro key
  rw [get_insert, numbered key]
  split
  · rename_i same
    subst same
    simp
  · rename_i different
    split
    · rfl
    · rw [List.getElem?_append]
      split
      · rfl
      · rename_i beyond
        rw [List.getElem?_eq_none (by omega), List.getElem?_eq_none (by simp; omega)]

theorem get_first (numbered : Numbered first (item :: items) rows) :
    rows.get first = some item := by
  rw [numbered first]
  simp

theorem pop (numbered : Numbered first (item :: items) rows) :
    Numbered (first + 1) items (rows.erase first) := by
  intro key
  rw [get_erase, numbered key]
  split
  · rename_i same
    rw [if_pos (by omega)]
  · rename_i different
    by_cases before : key < first
    · rw [if_pos before, if_pos (by omega)]
    · rw [if_neg before, if_neg (by omega)]
      obtain ⟨offset, rfl⟩ : ∃ offset, key = first + 1 + offset := ⟨key - (first + 1), by omega⟩
      rw [Nat.add_sub_cancel_left, Nat.add_assoc, Nat.add_sub_cancel_left, Nat.add_comm 1,
        List.getElem?_cons_succ]

end Numbered

end OrderedStore.Partition
