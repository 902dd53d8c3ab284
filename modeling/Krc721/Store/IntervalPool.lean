import Krc721.Store.Bytes

/-! A pool of free values kept as a list of disjoint intervals. Taking a value shrinks,
splits or removes one interval; a removed interval leaves its place to the last one of the
list. The list is compared up to permutation, since only positions depend on its order. -/

set_option autoImplicit false

namespace OrderedStore

/-- Intervals as `(start, size)`. -/
abbrev IntervalPool := List (ℕ × ℕ)

namespace IntervalPool

/-- A value lies in some interval of the pool. -/
def Covers (pool : IntervalPool) (value : ℕ) : Prop :=
  ∃ interval ∈ pool, interval.1 ≤ value ∧ value < interval.1 + interval.2

/-- Intervals are non-empty and pairwise disjoint. -/
structure Separated (pool : IntervalPool) : Prop where
  nonempty : ∀ interval ∈ pool, 0 < interval.2
  apart : pool.Pairwise fun left right =>
    left.1 + left.2 ≤ right.1 ∨ right.1 + right.2 ≤ left.1

/-- The number of values in a separated pool. -/
def total (pool : IntervalPool) : ℕ := (pool.map Prod.snd).sum

/-- Remove an interval; the last one of the list takes its place. -/
def swapRemove (pool : IntervalPool) (index : ℕ) : IntervalPool :=
  (pool.set index (pool.getLastD (0, 0))).dropLast

/-- What remains of an interval without the value at `offset`. -/
def pieces (start size offset : ℕ) : IntervalPool :=
  if offset = 0 then
    if size = 1 then [] else [(start + 1, size - 1)]
  else if offset = size - 1 then [(start, size - 1)]
  else [(start, offset), (start + offset + 1, size - offset - 1)]

/-- Take the value at `offset` from the interval `(start, size)` at `index`. -/
def takeAt (pool : IntervalPool) (index start size offset : ℕ) : IntervalPool :=
  if offset = 0 then
    if size = 1 then pool.swapRemove index else pool.set index (start + 1, size - 1)
  else if offset = size - 1 then pool.set index (start, size - 1)
  else pool.set index (start, offset) ++ [(start + offset + 1, size - offset - 1)]

@[simp] theorem covers_nil (value : ℕ) : ¬ Covers [] value := by
  rintro ⟨interval, member, _⟩
  cases member

theorem covers_append {left right : IntervalPool} {value : ℕ} :
    Covers (left ++ right) value ↔ Covers left value ∨ Covers right value := by
  simp only [Covers, List.mem_append]
  constructor
  · rintro ⟨interval, inLeft | inRight, bounds⟩
    · exact .inl ⟨interval, inLeft, bounds⟩
    · exact .inr ⟨interval, inRight, bounds⟩
  · intro covered
    rcases covered with ⟨interval, member, bounds⟩ | ⟨interval, member, bounds⟩
    · exact ⟨interval, .inl member, bounds⟩
    · exact ⟨interval, .inr member, bounds⟩

theorem covers_cons {interval : ℕ × ℕ} {pool : IntervalPool} {value : ℕ} :
    Covers (interval :: pool) value ↔
      interval.1 ≤ value ∧ value < interval.1 + interval.2 ∨ Covers pool value := by
  simp [Covers]

theorem Covers.perm {left right : IntervalPool} (permuted : left.Perm right) {value : ℕ} :
    Covers left value ↔ Covers right value := by
  simp only [Covers, permuted.mem_iff]

theorem Separated.perm {left right : IntervalPool} (permuted : left.Perm right)
    (separated : Separated left) : Separated right where
  nonempty := fun interval member => separated.nonempty interval (permuted.mem_iff.2 member)
  apart := separated.apart.perm permuted fun apart => apart.symm

theorem total_perm {left right : IntervalPool} (permuted : left.Perm right) :
    total left = total right :=
  (permuted.map Prod.snd).sum_eq

@[simp] theorem total_nil : total [] = 0 := rfl

@[simp] theorem total_cons (interval : ℕ × ℕ) (pool : IntervalPool) :
    total (interval :: pool) = interval.2 + total pool := by
  simp [total]

@[simp] theorem total_append (left right : IntervalPool) :
    total (left ++ right) = total left + total right := by
  simp [total]

theorem separated_singleton {start size : ℕ} (positive : 0 < size) :
    Separated [(start, size)] where
  nonempty := by simpa using positive
  apart := List.pairwise_singleton _ _

/-! The interval at an index against the rest of the list. -/

theorem perm_cons_eraseIdx {pool : IntervalPool} {index : ℕ} {interval : ℕ × ℕ}
    (found : pool[index]? = some interval) :
    pool.Perm (interval :: pool.eraseIdx index) := by
  obtain ⟨bound, rfl⟩ := List.getElem?_eq_some_iff.1 found
  exact (List.getElem_cons_eraseIdx_perm bound).symm

theorem swapRemove_perm {pool : IntervalPool} {index : ℕ} (bound : index < pool.length) :
    (pool.swapRemove index).Perm (pool.eraseIdx index) := by
  have present : pool ≠ [] := List.ne_nil_of_length_pos (by omega)
  obtain ⟨front, last, rfl⟩ := (List.eq_nil_or_concat' pool).resolve_left present
  rw [List.length_append, List.length_singleton] at bound
  rcases Nat.lt_succ_iff_lt_or_eq.1 bound with inside | atEnd
  · have erased : (front ++ [last]).eraseIdx index = front.eraseIdx index ++ [last] :=
      List.eraseIdx_append_of_lt_length inside _
    have moved : swapRemove (front ++ [last]) index = front.set index last := by
      simp [swapRemove, List.set_append_left _ _ inside]
    rw [erased, moved]
    exact (List.set_perm_cons_eraseIdx inside last).trans
      (List.perm_append_singleton last _).symm
  · subst index
    have erased : (front ++ [last]).eraseIdx front.length = front := by
      rw [List.eraseIdx_append_of_length_le le_rfl]
      simp
    have moved : swapRemove (front ++ [last]) front.length = front := by
      simp [swapRemove, List.set_append_right]
    rw [erased, moved]

theorem length_swapRemove (pool : IntervalPool) (index : ℕ) :
    (pool.swapRemove index).length = pool.length - 1 := by
  simp [swapRemove]

/-- Position by position, the last interval of the list stands at the removed one. -/
theorem getElem?_swapRemove (pool : IntervalPool) (index other : ℕ) :
    (pool.swapRemove index)[other]? =
      if other + 1 < pool.length then
        if other = index then some (pool.getLastD (0, 0)) else pool[other]?
      else none := by
  simp only [swapRemove, List.getElem?_dropLast, List.length_set, List.getElem?_set]
  grind

/-- Taking a value replaces the interval by its pieces, up to the order of the list. -/
theorem takeAt_perm {pool : IntervalPool} {index start size : ℕ} (offset : ℕ)
    (found : pool[index]? = some (start, size)) :
    (pool.takeAt index start size offset).Perm
      (pieces start size offset ++ pool.eraseIdx index) := by
  obtain ⟨bound, _⟩ := List.getElem?_eq_some_iff.1 found
  unfold takeAt pieces
  split
  · split
    · exact swapRemove_perm bound
    · exact List.set_perm_cons_eraseIdx bound _
  · split
    · exact List.set_perm_cons_eraseIdx bound _
    · refine ((List.set_perm_cons_eraseIdx bound _).append_right _).trans ?_
      exact (List.perm_append_singleton _ _).cons _

theorem covers_pieces {start size offset value : ℕ} (inside : offset < size) :
    Covers (pieces start size offset) value ↔
      start ≤ value ∧ value < start + size ∧ value ≠ start + offset := by
  unfold pieces
  split
  · split
    · simp only [covers_nil, false_iff]
      omega
    · simp only [covers_cons, covers_nil, or_false]
      omega
  · split
    · simp only [covers_cons, covers_nil, or_false]
      omega
    · simp only [covers_cons, covers_nil, or_false]
      omega

theorem total_pieces (start : ℕ) {size offset : ℕ} (inside : offset < size) :
    total (pieces start size offset) + 1 = size := by
  unfold pieces
  split
  · split
    · simp only [total_nil]
      omega
    · simp only [total_cons, total_nil]
      omega
  · split
    · simp only [total_cons, total_nil]
      omega
    · simp only [total_cons, total_nil]
      omega

/-- Every piece is a non-empty part of the interval, and pieces do not meet. -/
theorem separated_pieces (start : ℕ) {size offset : ℕ} (inside : offset < size) :
    Separated (pieces start size offset) ∧
      ∀ piece ∈ pieces start size offset,
        start ≤ piece.1 ∧ piece.1 + piece.2 ≤ start + size := by
  unfold pieces
  split
  · split
    · exact ⟨⟨by simp, List.Pairwise.nil⟩, by simp⟩
    · refine ⟨separated_singleton (by omega), ?_⟩
      simp only [List.mem_singleton, forall_eq]
      omega
  · split
    · refine ⟨separated_singleton (by omega), ?_⟩
      simp only [List.mem_singleton, forall_eq]
      omega
    · refine ⟨⟨?_, ?_⟩, ?_⟩
      · simp only [List.mem_cons, List.not_mem_nil, or_false, forall_eq_or_imp, forall_eq]
        omega
      · simp only [List.pairwise_cons, List.mem_singleton, forall_eq, List.not_mem_nil,
          false_implies, implies_true, List.Pairwise.nil, and_true]
        omega
      · simp only [List.mem_cons, List.not_mem_nil, or_false, forall_eq_or_imp, forall_eq]
        omega

variable {pool : IntervalPool} {index start size offset : ℕ}

/-- Taking a value keeps the intervals non-empty and disjoint. -/
theorem Separated.takeAt (separated : Separated pool)
    (found : pool[index]? = some (start, size)) (inside : offset < size) :
    Separated (pool.takeAt index start size offset) := by
  refine Separated.perm (takeAt_perm offset found).symm ?_
  have whole := separated.perm (perm_cons_eraseIdx found)
  obtain ⟨parts, within⟩ := separated_pieces start inside
  have rest := List.pairwise_cons.1 whole.apart
  refine ⟨?_, ?_⟩
  · intro interval member
    rcases List.mem_append.1 member with piece | other
    · exact parts.nonempty interval piece
    · exact whole.nonempty interval (List.mem_cons_of_mem _ other)
  · rw [List.pairwise_append]
    refine ⟨parts.apart, rest.2, ?_⟩
    intro piece pieceMember other otherMember
    have bounds := within piece pieceMember
    have apart := rest.1 other otherMember
    omega

/-- Taking a value removes exactly that value from the pool. -/
theorem Separated.covers_takeAt (separated : Separated pool)
    (found : pool[index]? = some (start, size)) (inside : offset < size) {value : ℕ} :
    Covers (pool.takeAt index start size offset) value ↔
      Covers pool value ∧ value ≠ start + offset := by
  rw [Covers.perm (takeAt_perm offset found), Covers.perm (perm_cons_eraseIdx found),
    covers_append, covers_cons, covers_pieces inside]
  have whole := separated.perm (perm_cons_eraseIdx found)
  have rest := (List.pairwise_cons.1 whole.apart).1
  have missing : Covers (pool.eraseIdx index) value → value ≠ start + offset := by
    rintro ⟨interval, member, bounds⟩
    have apart := rest interval member
    simp only at apart
    omega
  tauto

theorem total_takeAt (found : pool[index]? = some (start, size)) (inside : offset < size) :
    total (pool.takeAt index start size offset) + 1 = total pool := by
  rw [total_perm (takeAt_perm offset found), total_perm (perm_cons_eraseIdx found),
    total_append, total_cons]
  have parts := total_pieces start inside
  simp only
  omega

/-- The value taken is one of the pool. -/
theorem covers_of_getElem? (found : pool[index]? = some (start, size))
    (inside : offset < size) : Covers pool (start + offset) :=
  ⟨(start, size), List.mem_of_getElem? found, by simp, by simpa using inside⟩

/-- There are no more intervals than values. -/
theorem Separated.length_le_total (separated : pool.Separated) : pool.length ≤ pool.total := by
  have summed := List.length_le_sum_of_one_le (pool.map Prod.snd) (by
    intro size member
    obtain ⟨interval, inPool, same⟩ := List.mem_map.1 member
    exact same ▸ separated.nonempty interval inPool)
  rwa [List.length_map] at summed

end IntervalPool

end OrderedStore
