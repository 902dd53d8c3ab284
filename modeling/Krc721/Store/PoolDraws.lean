import Krc721.Store.IntervalPool
import Mathlib.Data.Nat.ModEq

/-! Drawing from an interval pool by a number: its residue by the number of intervals is the index
of one, and its residue by the size of that one is the offset. The two residues are of one number,
so they have to agree modulo what the two moduli share. -/

set_option autoImplicit false

namespace OrderedStore

namespace IntervalPool

/-- The value that a number draws. -/
def draw (pool : IntervalPool) (number : ℕ) : Option ℕ :=
  (pool[number % pool.length]?).map fun interval => interval.1 + number % interval.2

variable {pool : IntervalPool} {index start size offset number : ℕ}

theorem Separated.getElem?_unique (separated : Separated pool) {start' size' index' value : ℕ}
    (found : pool[index]? = some (start, size)) (inside : start ≤ value ∧ value < start + size)
    (found' : pool[index']? = some (start', size'))
    (inside' : start' ≤ value ∧ value < start' + size') : index = index' := by
  have apart {first second : ℕ} {left right : ℕ × ℕ} (before : first < second)
      (atFirst : pool[first]? = some left) (atSecond : pool[second]? = some right) :
      left.1 + left.2 ≤ right.1 ∨ right.1 + right.2 ≤ left.1 := by
    obtain ⟨firstBound, rfl⟩ := List.getElem?_eq_some_iff.1 atFirst
    obtain ⟨secondBound, rfl⟩ := List.getElem?_eq_some_iff.1 atSecond
    exact List.pairwise_iff_getElem.1 separated.apart _ _ firstBound secondBound before
  rcases lt_trichotomy index index' with before | same | after
  · have disjoint := apart before found found'
    simp only at disjoint
    omega
  · exact same
  · have disjoint := apart after found' found
    simp only at disjoint
    omega

theorem Separated.draw_eq_some_iff (separated : Separated pool)
    (found : pool[index]? = some (start, size)) (inside : offset < size) :
    pool.draw number = some (start + offset) ↔
      number % pool.length = index ∧ number % size = offset := by
  rw [draw, Option.map_eq_some_iff]
  constructor
  · intro drawn
    obtain ⟨⟨start', size'⟩, found', same⟩ := drawn
    have positive := separated.nonempty _ (List.mem_of_getElem? found')
    have below := Nat.mod_lt number positive
    simp only at same below
    have isInside : start ≤ start + offset ∧ start + offset < start + size := by omega
    have sameIndex := separated.getElem?_unique found isInside found' (by omega)
    rw [← sameIndex, found, Option.some_inj, Prod.mk.injEq] at found'
    obtain ⟨rfl, rfl⟩ := found'
    exact ⟨sameIndex.symm, by omega⟩
  · intro residues
    obtain ⟨rfl, rfl⟩ := residues
    exact ⟨_, found, rfl⟩

/-- The index and the offset of a drawn value agree modulo what the length of the list and the size
of the interval share. -/
theorem Separated.modEq_of_draw (separated : Separated pool)
    (found : pool[index]? = some (start, size)) (inside : offset < size)
    (drawn : pool.draw number = some (start + offset)) :
    index ≡ offset [MOD Nat.gcd pool.length size] := by
  obtain ⟨atIndex, atOffset⟩ := (separated.draw_eq_some_iff found inside).1 drawn
  calc index ≡ number [MOD Nat.gcd pool.length size] := by
        rw [← atIndex]
        exact (Nat.mod_modEq number pool.length).of_dvd (Nat.gcd_dvd_left _ _)
    _ ≡ offset [MOD Nat.gcd pool.length size] := by
        rw [← atOffset]
        exact (Nat.mod_modEq number size).symm.of_dvd (Nat.gcd_dvd_right _ _)

/-- If they agree, a number below the least common multiple draws the value. -/
theorem Separated.exists_draw (separated : Separated pool)
    (found : pool[index]? = some (start, size)) (inside : offset < size)
    (agree : index ≡ offset [MOD Nat.gcd pool.length size]) :
    ∃ number, number < Nat.lcm pool.length size ∧ pool.draw number = some (start + offset) := by
  have bound : index < pool.length := (List.getElem?_eq_some_iff.1 found).1
  obtain ⟨atIndex, atOffset⟩ := (Nat.chineseRemainder' agree).2
  refine ⟨_, Nat.chineseRemainder'_lt_lcm agree (by omega) (by omega), ?_⟩
  rw [separated.draw_eq_some_iff found inside]
  exact ⟨Eq.trans atIndex (Nat.mod_eq_of_lt bound), Eq.trans atOffset (Nat.mod_eq_of_lt inside)⟩

/-- Of two intervals of two values each, a number draws the first value of one or the second value
of the other. -/
example : ∀ number < 2, draw [(1, 2), (4, 2)] number ≠ some 2 := by decide

/-- What some number draws, a number below the least common multiple draws too. -/
theorem Separated.draw_mod (separated : Separated pool)
    (found : pool[index]? = some (start, size)) (inside : offset < size)
    (drawn : pool.draw number = some (start + offset)) :
    pool.draw (number % Nat.lcm pool.length size) = some (start + offset) := by
  rw [separated.draw_eq_some_iff found inside] at drawn ⊢
  rwa [Nat.mod_mod_of_dvd _ (Nat.dvd_lcm_left _ _), Nat.mod_mod_of_dvd _ (Nat.dvd_lcm_right _ _)]

end IntervalPool

end OrderedStore
