import Krc721.Store.IntervalPool
import Krc721.Processor.TokenId

/-! The range rows of a tick are an interval pool. A mint takes a value from the pool, and
rolling the newest mint back restores the rows exactly. -/

set_option autoImplicit false

namespace Krc721

open OrderedStore

namespace RangeStore

/-- The rows of a tick hold a pool at the indices below its length, and nothing else. -/
structure Holds (store : RangeStore) (tick : Tick) (pool : IntervalPool) : Prop where
  length : store.rangeLengths.get tick = some pool.length
  ranges : ∀ index, store.availableRanges.get ⟨tick, index⟩ = pool[index]?

/-- A tick without range rows. -/
structure Vacant (store : RangeStore) (tick : Tick) : Prop where
  length : store.rangeLengths.get tick = none
  ranges : ∀ index, store.availableRanges.get ⟨tick, index⟩ = none

/-- The rows of a tick: none before the first random mint, a pool afterwards. -/
def Represents (store : RangeStore) (tick : Tick) : Option IntervalPool → Prop
  | none => store.Vacant tick
  | some pool => store.Holds tick pool

/-- Two stores agree on the range rows of a tick. -/
structure SameTick (left right : RangeStore) (tick : Tick) : Prop where
  length : left.rangeLengths.get tick = right.rangeLengths.get tick
  ranges : ∀ index, left.availableRanges.get ⟨tick, index⟩ =
    right.availableRanges.get ⟨tick, index⟩

theorem Represents.congr {left right : RangeStore} {tick : Tick}
    (same : left.SameTick right tick) {pool : Option IntervalPool}
    (represents : left.Represents tick pool) : right.Represents tick pool := by
  cases pool with
  | none =>
      exact ⟨same.length ▸ represents.length, fun index => same.ranges index ▸
        represents.ranges index⟩
  | some pool =>
      exact ⟨same.length ▸ represents.length, fun index => same.ranges index ▸
        represents.ranges index⟩

/-- The pool a mint draws from: the stored one, or all ids above the preminted ones. -/
def drawPool (maxSupply premint : ℕ) (pool : Option IntervalPool) : IntervalPool :=
  pool.getD [(1 + premint, maxSupply - premint)]

/-- What `selectRange` hands to the rest of a mint: the drawn index of the pool, and rows
that hold the pool everywhere but there. -/
structure Drawn (selection : Selection) (store : RangeStore) (tick : Tick)
    (pool : IntervalPool) (index : ℕ) : Prop where
  rangesLen : selection.rangesLen = pool.length
  rangeIndex : selection.rangeIndex = index
  range : selection.range = pool[index]?
  rows : ∀ other, other ≠ index →
    selection.store.availableRanges.get ⟨tick, other⟩ = pool[other]?
  length : selection.store.rangeLengths.get tick = some pool.length
  tokenIdMeta : selection.store.tokenIdMeta = store.tokenIdMeta
  frame : ∀ other, other ≠ tick → selection.store.SameTick store other

theorem selectRange_drawn {store : RangeStore} {tick : Tick} {pool : Option IntervalPool}
    (represents : store.Represents tick pool) (present : pool ≠ some [])
    (entropy maxSupply premint : ℕ) :
    Drawn (store.selectRange tick entropy maxSupply premint) store tick
      (drawPool maxSupply premint pool)
      (entropy % (drawPool maxSupply premint pool).length) := by
  cases pool with
  | none =>
      obtain ⟨length, ranges⟩ := represents
      have same : store.selectRange tick entropy maxSupply premint =
          { store := { store with rangeLengths := store.rangeLengths.insert tick 1 }
            rangesLen := 1
            rangeIndex := 0
            range := some (1 + premint, maxSupply - premint)
            isInitial := true } := by
        simp [selectRange, length]
      rw [same]
      refine ⟨rfl, (Nat.mod_one entropy).symm, by simp [drawPool, Nat.mod_one], ?_,
        by simp [drawPool], rfl, ?_⟩
      · intro other different
        simp only [drawPool, Option.getD_none, List.length_singleton, Nat.mod_one] at different
        rw [ranges other]
        simp only [drawPool, Option.getD_none]
        rw [List.getElem?_eq_none (by simp; omega)]
      · intro other different
        exact ⟨Partition.get_insert_of_ne _ _ (Ne.symm different), fun _ => rfl⟩
  | some pool =>
      obtain ⟨length, ranges⟩ := represents
      have nonzero : pool.length ≠ 0 := by simpa using present
      have same : store.selectRange tick entropy maxSupply premint =
          { store
            rangesLen := pool.length
            rangeIndex := entropy % pool.length
            range := pool[entropy % pool.length]?
            isInitial := false } := by
        simp [selectRange, length, nonzero, ranges]
      rw [same]
      exact ⟨rfl, rfl, rfl, fun other _ => ranges other, length, rfl,
        fun _ _ => ⟨rfl, fun _ => rfl⟩⟩

/-- The metadata a mint leaves behind for its rollback. -/
def preModRange (index start size offset : ℕ) (isInitial : Bool) : PreModRange where
  rangeIndex := index
  start := start
  size := size
  removed := decide (offset = 0 ∧ size = 1)
  split := decide (offset ≠ 0 ∧ offset ≠ size - 1)
  isInitial := isInitial

theorem selectRange_isInitial {store : RangeStore} {tick : Tick} {pool : Option IntervalPool}
    (represents : store.Represents tick pool) (present : pool ≠ some [])
    (entropy maxSupply premint : ℕ) :
    (store.selectRange tick entropy maxSupply premint).isInitial = pool.isNone := by
  cases pool with
  | none => simp [selectRange, represents.length]
  | some pool =>
      have nonzero : pool.length ≠ 0 := by simpa using present
      simp [selectRange, represents.length, nonzero]

section Take

variable {selection : Selection} {store : RangeStore} {tick : Tick} {pool : IntervalPool}
variable {index start size offset valueId : ℕ} {isInitial : Bool}

/-- The outcome of taking an id: the rows of the tick hold `rest`, the metadata records the
rollback, and the other ticks keep their rows. -/
structure Taken (taken store : RangeStore) (tick : Tick) (rest : IntervalPool) (valueId : ℕ)
    (rollback : PreModRange) : Prop where
  holds : taken.Holds tick rest
  tokenIdMeta : taken.tokenIdMeta = store.tokenIdMeta.insert ⟨tick, valueId⟩ rollback
  frame : ∀ other, other ≠ tick → taken.SameTick store other

theorem Drawn.removeRange (drawn : Drawn selection store tick pool index)
    (bound : index < pool.length) :
    ∃ taken, selection.store.removeRange tick selection.rangeIndex valueId start size
        selection.rangesLen isInitial = .ok taken ∧
      Taken taken store tick (pool.swapRemove index) valueId
        ⟨index, start, size, true, false, isInitial⟩ := by
  obtain ⟨rangesLen, rangeIndex, range, rows, length, tokenIdMeta, frame⟩ := drawn
  unfold RangeStore.removeRange
  rw [rangesLen, rangeIndex, u64Pred_of_pos (Nat.zero_lt_of_lt bound)]
  by_cases moves : index < pool.length - 1
  · have last : selection.store.availableRanges.get ⟨tick, pool.length - 1⟩ =
        some (pool.getLastD (0, 0)) := by
      rw [rows _ (by omega), ← List.getLast?_eq_getElem?, List.getLastD_eq_getLast?]
      have present : pool ≠ [] := List.ne_nil_of_length_pos (by omega)
      rw [List.getLast?_eq_some_getLast present]
      rfl
    simp only [if_pos moves, last]
    refine ⟨_, rfl, ⟨?_, ?_⟩, ?_, ?_⟩
    · simp [IntervalPool.length_swapRemove]
    · intro other
      rw [IntervalPool.getElem?_swapRemove]
      simp only [Partition.get_erase, Partition.get_insert, RangeKey.mk.injEq, true_and]
      have row := rows other
      grind
    · rw [tokenIdMeta]
    · intro other different
      obtain ⟨sameLength, sameRanges⟩ := frame other different
      exact ⟨by grind, fun index => by grind⟩
  · simp only [if_neg moves]
    refine ⟨_, rfl, ⟨?_, ?_⟩, ?_, ?_⟩
    · simp [IntervalPool.length_swapRemove]
    · intro other
      rw [IntervalPool.getElem?_swapRemove]
      simp only [Partition.get_erase, RangeKey.mk.injEq, true_and]
      have row := rows other
      grind
    · rw [tokenIdMeta]
    · intro other different
      obtain ⟨sameLength, sameRanges⟩ := frame other different
      exact ⟨by grind, fun index => by grind⟩

theorem Drawn.shrinkRange (fromStart : Bool) (drawn : Drawn selection store tick pool index)
    (bound : index < pool.length) :
    Taken (selection.store.shrinkRange tick selection.rangeIndex start size valueId fromStart
        isInitial) store tick
      (pool.set index (if fromStart then (start + 1, size - 1) else (start, size - 1))) valueId
      ⟨index, start, size, false, false, isInitial⟩ := by
  obtain ⟨rangesLen, rangeIndex, range, rows, length, tokenIdMeta, frame⟩ := drawn
  unfold RangeStore.shrinkRange
  rw [rangeIndex]
  refine ⟨⟨?_, ?_⟩, ?_, ?_⟩
  · rw [List.length_set]
    exact length
  · intro other
    simp only [Partition.get_insert, RangeKey.mk.injEq, true_and, List.getElem?_set]
    have row := rows other
    grind
  · rw [tokenIdMeta]
  · intro other different
    obtain ⟨sameLength, sameRanges⟩ := frame other different
    exact ⟨by grind, fun index => by grind⟩

theorem Drawn.splitRange (drawn : Drawn selection store tick pool index)
    (bound : index < pool.length) :
    Taken (selection.store.splitRange tick selection.rangeIndex valueId start size offset
        selection.rangesLen isInitial) store tick
      (pool.set index (start, offset) ++ [(valueId + 1, size - offset - 1)]) valueId
      ⟨index, start, size, false, true, isInitial⟩ := by
  obtain ⟨rangesLen, rangeIndex, range, rows, length, tokenIdMeta, frame⟩ := drawn
  unfold RangeStore.splitRange
  rw [rangesLen, rangeIndex]
  refine ⟨⟨?_, ?_⟩, ?_, ?_⟩
  · simp
  · intro other
    simp only [Partition.get_insert, RangeKey.mk.injEq, true_and, List.getElem?_append,
      List.length_set, List.getElem?_set]
    have row := rows other
    grind
  · rw [tokenIdMeta]
  · intro other different
    obtain ⟨sameLength, sameRanges⟩ := frame other different
    exact ⟨by grind, fun index => by grind⟩

/-- Taking a value updates the pool and the metadata of the taken id, and no other tick. -/
theorem Drawn.takeValue (offset : ℕ) (drawn : Drawn selection store tick pool index)
    (found : pool[index]? = some (start, size)) :
    ∃ taken, takeValue selection tick start size (start + offset) = .ok taken ∧
      Taken taken store tick (pool.takeAt index start size offset) (start + offset)
        (preModRange index start size offset selection.isInitial) := by
  obtain ⟨bound, _⟩ := List.getElem?_eq_some_iff.1 found
  have offset_eq : start + offset - start = offset := by omega
  unfold RangeStore.takeValue IntervalPool.takeAt preModRange
  simp only [offset_eq]
  by_cases atStart : offset = 0
  · by_cases single : size = 1
    · simp only [atStart, single, if_true]
      exact drawn.removeRange bound
    · simp only [atStart, single, if_true, if_false]
      exact ⟨_, rfl, by simpa using drawn.shrinkRange true bound⟩
  · by_cases atEnd : offset = size - 1
    · simp only [atStart, if_neg, if_pos atEnd, not_false_eq_true]
      refine ⟨_, rfl, ?_⟩
      simpa [atStart, atEnd] using drawn.shrinkRange false bound
    · simp only [if_neg atStart, if_neg atEnd]
      refine ⟨_, rfl, ?_⟩
      simpa [atStart, atEnd] using drawn.splitRange bound

end Take

/-- A mint draws some interval of the pool and takes a value from it. None of the
assertions of `generate_token_id` can fail. -/
theorem generateTokenId_taken {store : RangeStore} {tick : Tick} {pool : Option IntervalPool}
    {maxSupply premint : ℕ} (represents : store.Represents tick pool)
    (separated : (drawPool maxSupply premint pool).Separated)
    (present : drawPool maxSupply premint pool ≠ [])
    (within : ∀ id, (drawPool maxSupply premint pool).Covers id → 1 ≤ id ∧ id ≤ maxSupply)
    (entropy : ℕ) :
    ∃ taken index start size offset,
      (drawPool maxSupply premint pool)[index]? = some (start, size) ∧ offset < size ∧
      store.generateTokenId tick entropy maxSupply premint = .ok (taken, start + offset) ∧
      Taken taken store tick
        ((drawPool maxSupply premint pool).takeAt index start size offset) (start + offset)
        (preModRange index start size offset pool.isNone) := by
  have nonempty : pool ≠ some [] := by
    rintro rfl
    exact present rfl
  have drawn := selectRange_drawn represents nonempty entropy maxSupply premint
  have initial := selectRange_isInitial represents nonempty entropy maxSupply premint
  generalize drawPool maxSupply premint pool = drawn_pool at *
  have bound : entropy % drawn_pool.length < drawn_pool.length :=
    Nat.mod_lt _ (List.length_pos_iff.2 present)
  generalize entropy % drawn_pool.length = index at *
  obtain ⟨⟨start, size⟩, found⟩ : ∃ interval, drawn_pool[index]? = some interval :=
    ⟨_, List.getElem?_eq_getElem bound⟩
  have positive : 0 < size := separated.nonempty _ (List.mem_of_getElem? found)
  have inside : entropy % size < size := Nat.mod_lt _ positive
  obtain ⟨taken, success, outcome⟩ := drawn.takeValue (entropy % size) found
  rw [initial] at outcome
  have limits := within _ (IntervalPool.covers_of_getElem? found inside)
  refine ⟨taken, index, start, size, entropy % size, found, inside, ?_, outcome⟩
  have range := drawn.range
  unfold generateTokenId
  simp only [range, found, if_neg (Nat.ne_of_gt positive), if_neg (not_lt.2 limits.2), success,
    if_neg (Nat.ne_of_gt limits.1)]

/-! Rolling a token generation back. -/

theorem eq_of_represents {left right : RangeStore} (tick : Tick) (pool : Option IntervalPool)
    (leftRows : left.Represents tick pool) (rightRows : right.Represents tick pool)
    (frame : ∀ other, other ≠ tick → left.SameTick right other)
    (tokenIdMeta : left.tokenIdMeta = right.tokenIdMeta) : left = right := by
  have same : ∀ other, left.SameTick right other := by
    intro other
    by_cases equal : other = tick
    · subst other
      cases pool with
      | none =>
          exact ⟨leftRows.length.trans rightRows.length.symm, fun index =>
            (leftRows.ranges index).trans (rightRows.ranges index).symm⟩
      | some pool =>
          exact ⟨leftRows.length.trans rightRows.length.symm, fun index =>
            (leftRows.ranges index).trans (rightRows.ranges index).symm⟩
    · exact frame other equal
  refine RangeStore.ext ?_ ?_ tokenIdMeta
  · ext1 ⟨other, index⟩
    exact (same other).ranges index
  · ext1 other
    exact (same other).length

section Rollback

variable {taken store : RangeStore} {tick : Tick} {pool : IntervalPool}
variable {index start size offset : ℕ} {isInitial : Bool}

theorem restore_removed (holds : taken.Holds tick (pool.swapRemove index))
    (found : pool[index]? = some (start, size)) :
    ∃ restored,
      taken.revertRemovedRange tick ⟨index, start, size, true, false, isInitial⟩
        (pool.length - 1) = .ok (restored, pool.length) ∧
      restored.Holds tick pool ∧ restored.tokenIdMeta = taken.tokenIdMeta ∧
      ∀ other, other ≠ tick → restored.SameTick taken other := by
  obtain ⟨bound, _⟩ := List.getElem?_eq_some_iff.1 found
  have rows : ∀ other, taken.availableRanges.get ⟨tick, other⟩ =
      if other + 1 < pool.length then
        if other = index then some (pool.getLastD (0, 0)) else pool[other]?
      else none := fun other => by rw [holds.ranges, IntervalPool.getElem?_swapRemove]
  have lengths : pool.length - 1 + 1 = pool.length := by omega
  simp only [revertRemovedRange, lengths]
  by_cases moved : index < pool.length - 1
  · have last : pool[pool.length - 1]? = some (pool.getLastD (0, 0)) := by
      have present : pool ≠ [] := List.ne_nil_of_length_pos (by omega)
      rw [← List.getLast?_eq_getElem?, List.getLastD_eq_getLast?,
        List.getLast?_eq_some_getLast present]
      rfl
    have current : taken.availableRanges.get ⟨tick, index⟩ = some (pool.getLastD (0, 0)) := by
      rw [rows, if_pos (by omega), if_pos rfl]
    simp only [if_pos moved, current]
    refine ⟨_, rfl, ⟨by simp, ?_⟩, rfl, ?_⟩
    · intro other
      have row := rows other
      simp only [Partition.get_insert, RangeKey.mk.injEq, true_and]
      grind
    · intro other different
      exact ⟨by grind, fun index => by grind⟩
  · simp only [if_neg moved]
    refine ⟨_, rfl, ⟨by simp, ?_⟩, rfl, ?_⟩
    · intro other
      have row := rows other
      simp only [Partition.get_insert, RangeKey.mk.injEq, true_and]
      grind
    · intro other different
      exact ⟨by grind, fun index => by grind⟩

theorem restore_shrunk {value : ℕ × ℕ} (holds : taken.Holds tick (pool.set index value))
    (found : pool[index]? = some (start, size)) :
    ∃ restored,
      taken.restoreRangeMaybeSplit tick ⟨index, start, size, false, false, isInitial⟩
        pool.length = (restored, pool.length) ∧
      restored.Holds tick pool ∧ restored.tokenIdMeta = taken.tokenIdMeta ∧
      ∀ other, other ≠ tick → restored.SameTick taken other := by
  obtain ⟨length, ranges⟩ := holds
  refine ⟨_, rfl, ⟨by simpa using length, ?_⟩, rfl, ?_⟩
  · intro other
    have row := ranges other
    simp only [List.getElem?_set] at row
    simp only [Partition.get_insert, RangeKey.mk.injEq, true_and]
    grind
  · intro other different
    exact ⟨rfl, fun index => by grind⟩

theorem restore_split {left right : ℕ × ℕ}
    (holds : taken.Holds tick (pool.set index left ++ [right]))
    (found : pool[index]? = some (start, size)) :
    ∃ restored,
      taken.restoreRangeMaybeSplit tick ⟨index, start, size, false, true, isInitial⟩
        (pool.length + 1) = (restored, pool.length) ∧
      restored.Holds tick pool ∧ restored.tokenIdMeta = taken.tokenIdMeta ∧
      ∀ other, other ≠ tick → restored.SameTick taken other := by
  obtain ⟨bound, _⟩ := List.getElem?_eq_some_iff.1 found
  obtain ⟨length, ranges⟩ := holds
  refine ⟨_, rfl, ⟨by simp, ?_⟩, rfl, ?_⟩
  · intro other
    have row := ranges other
    simp only [List.getElem?_append, List.length_set, List.getElem?_set] at row
    simp only [Partition.get_insert, Partition.get_erase, RangeKey.mk.injEq, true_and,
      u64Pred_succ]
    grind
  · intro other different
    exact ⟨by grind, fun index => by grind⟩

/-- The first half of a rollback puts the interval back at its index. -/
theorem restore_holds (isInitial : Bool)
    (holds : taken.Holds tick (pool.takeAt index start size offset))
    (found : pool[index]? = some (start, size)) :
    ∃ restored,
      (if (preModRange index start size offset isInitial).removed then
        taken.revertRemovedRange tick (preModRange index start size offset isInitial)
          (pool.takeAt index start size offset).length
      else .ok (taken.restoreRangeMaybeSplit tick
        (preModRange index start size offset isInitial)
        (pool.takeAt index start size offset).length)) = .ok (restored, pool.length) ∧
      restored.Holds tick pool ∧ restored.tokenIdMeta = taken.tokenIdMeta ∧
      ∀ other, other ≠ tick → restored.SameTick taken other := by
  unfold IntervalPool.takeAt preModRange at *
  by_cases atStart : offset = 0
  · by_cases single : size = 1
    · subst atStart single
      simpa [IntervalPool.length_swapRemove] using restore_removed (by simpa using holds) found
    · subst atStart
      simpa [single] using restore_shrunk (by simpa [single] using holds) found
  · by_cases atEnd : offset = size - 1
    · rw [if_neg atStart, if_pos atEnd] at holds ⊢
      simpa [atStart, ← atEnd] using restore_shrunk holds found
    · simpa [atStart, atEnd] using restore_split (by simpa [atStart, atEnd] using holds) found

/-- The second half removes the list again when the mint had created it. -/
theorem rollback_initial (restored : RangeStore) (rollback : PreModRange) {interval : ℕ × ℕ}
    (holds : restored.Holds tick [interval]) (first : rollback.rangeIndex = 0) :
    ∃ vacated, restored.removeInitialRange tick rollback 1 = .ok vacated ∧
      vacated.Vacant tick ∧ vacated.tokenIdMeta = restored.tokenIdMeta ∧
      ∀ other, other ≠ tick → vacated.SameTick restored other := by
  obtain ⟨length, ranges⟩ := holds
  refine ⟨_, rfl, ⟨by simp, ?_⟩, rfl, ?_⟩
  · intro index
    have row := ranges index
    rw [Partition.get_erase, first]
    cases index with
    | zero => simp
    | succ index => simpa using row
  · intro other different
    exact ⟨by grind, fun index => by grind⟩

end Rollback

/-- Rolling back the newest mint of a tick restores the range rows and the metadata. -/
theorem rollbackTokenGeneration_taken {store taken : RangeStore} {tick : Tick}
    {pool : Option IntervalPool} {maxSupply premint index start size offset : ℕ}
    (represents : store.Represents tick pool)
    (found : (drawPool maxSupply premint pool)[index]? = some (start, size))
    (fresh : store.tokenIdMeta.get ⟨tick, start + offset⟩ = none)
    (outcome : Taken taken store tick
      ((drawPool maxSupply premint pool).takeAt index start size offset) (start + offset)
      (preModRange index start size offset pool.isNone)) :
    taken.rollbackTokenGeneration tick (start + offset) = .ok store := by
  have stored : taken.tokenIdMeta.get ⟨tick, start + offset⟩ =
      some (preModRange index start size offset pool.isNone) := by
    rw [outcome.tokenIdMeta, Partition.get_insert_self]
  have erased : taken.tokenIdMeta.erase ⟨tick, start + offset⟩ = store.tokenIdMeta := by
    rw [outcome.tokenIdMeta, Partition.erase_insert _ fresh]
  obtain ⟨restored, success, holds, sameMeta, frame⟩ :=
    restore_holds pool.isNone outcome.holds found
  unfold rollbackTokenGeneration
  simp only [stored, outcome.holds.length, Option.getD_some, success]
  have frames : ∀ other, other ≠ tick → restored.SameTick store other := fun other different =>
    ⟨(frame other different).length.trans (outcome.frame other different).length,
      fun index => ((frame other different).ranges index).trans
        ((outcome.frame other different).ranges index)⟩
  cases pool with
  | some pool =>
      simp only [preModRange, Option.isNone_some, Bool.false_eq_true, if_false]
      congr 1
      refine eq_of_represents tick (some pool) ⟨holds.length, holds.ranges⟩ represents
        (fun other different => ?_) ?_
      · exact ⟨(frames other different).length, (frames other different).ranges⟩
      · rw [← erased, ← sameMeta]
  | none =>
      have atZero : index = 0 := by
        obtain ⟨bound, _⟩ := List.getElem?_eq_some_iff.1 found
        simpa [drawPool] using bound
      obtain ⟨vacated, removed, vacant, vacatedMeta, vacatedFrame⟩ :=
        rollback_initial { restored with
            tokenIdMeta := restored.tokenIdMeta.erase ⟨tick, start + offset⟩ }
          (preModRange index start size offset true) ⟨holds.length, holds.ranges⟩ atZero
      have initial : (preModRange index start size offset true).isInitial = true := rfl
      simp only [Option.isNone_none, initial, if_true, drawPool, Option.getD_none,
        List.length_singleton, removed]
      congr 1
      refine eq_of_represents tick none vacant represents (fun other different => ?_) ?_
      · have same := frames other different
        exact ⟨(vacatedFrame other different).length.trans same.length,
          fun index => ((vacatedFrame other different).ranges index).trans (same.ranges index)⟩
      · rw [vacatedMeta, ← erased, ← sameMeta]

end RangeStore

end Krc721
