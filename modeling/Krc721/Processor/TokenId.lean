import Krc721.Model.Database

/-! Random token ids: the list of available ranges of a tick, how a mint takes an id from
it, and how a reorg puts the id back. -/

set_option autoImplicit false

namespace Krc721

open OrderedStore

/-- Why a write transaction is abandoned: a failed `expect` or `assert`, or the error of
`process_deployment`. Storage itself is assumed not to fail. -/
inductive Fault where
  | panic (message : String)
  | unexpectedKaspaNodeBehaviour
deriving DecidableEq, Inhabited

theorem toOption_eq_some_iff {Error Value : Type} {result : Except Error Value}
    {value : Value} : result.toOption = some value ↔ result = .ok value := by
  cases result <;> simp [Except.toOption]

/-- One less as a `u64`, which wraps around in a release build. -/
def u64Pred (value : ℕ) : ℕ := if value = 0 then u64Max else value - 1

@[simp]
theorem u64Pred_succ (value : ℕ) : u64Pred (value + 1) = value := by
  simp [u64Pred]

theorem u64Pred_of_pos {value : ℕ} (positive : 0 < value) : u64Pred value = value - 1 := by
  rw [u64Pred, if_neg (Nat.ne_of_gt positive)]

namespace RangeStore

/-- Take the last value of a range. The last range of the list moves into the hole. -/
def removeRange (store : RangeStore) (tick : Tick)
    (rangeIndex valueId start size rangesLen : ℕ) (isInitial : Bool) :
    Except Fault RangeStore :=
  let tokenIdMeta := store.tokenIdMeta.insert ⟨tick, valueId⟩
    { rangeIndex, start, size, removed := true, split := false, isInitial }
  let rangeLengths := store.rangeLengths.insert tick (u64Pred rangesLen)
  if rangeIndex < u64Pred rangesLen then
    let lastIdx := u64Pred rangesLen
    match store.availableRanges.get ⟨tick, lastIdx⟩ with
    | none => .error (.panic "Last value must exist if range_lengths is correct")
    | some lastValue => .ok {
        availableRanges :=
          (store.availableRanges.insert ⟨tick, rangeIndex⟩ lastValue).erase ⟨tick, lastIdx⟩
        rangeLengths
        tokenIdMeta }
  else .ok {
    availableRanges := store.availableRanges.erase ⟨tick, rangeIndex⟩
    rangeLengths
    tokenIdMeta }

/-- Take the first or the last value of a range that keeps other values. -/
def shrinkRange (store : RangeStore) (tick : Tick) (rangeIndex start size valueId : ℕ)
    (fromStart isInitial : Bool) : RangeStore :=
  let value := if fromStart then (start + 1, size - 1) else (start, size - 1)
  { store with
    tokenIdMeta := store.tokenIdMeta.insert ⟨tick, valueId⟩
      { rangeIndex, start, size, removed := false, split := false, isInitial }
    availableRanges := store.availableRanges.insert ⟨tick, rangeIndex⟩ value }

/-- Take a value from the middle of a range: the left part stays, the right part is
appended to the list. -/
def splitRange (store : RangeStore) (tick : Tick)
    (rangeIndex valueId start size valueOffset rangesLen : ℕ) (isInitial : Bool) :
    RangeStore :=
  let leftSize := valueOffset
  let rightStart := valueId + 1
  let rightSize := size - valueOffset - 1
  { tokenIdMeta := store.tokenIdMeta.insert ⟨tick, valueId⟩
      { rangeIndex, start, size, removed := false, split := true, isInitial }
    availableRanges := (store.availableRanges.insert ⟨tick, rangeIndex⟩ (start, leftSize)).insert
      ⟨tick, rangesLen⟩ (rightStart, rightSize)
    rangeLengths := store.rangeLengths.insert tick (rangesLen + 1) }

/-- The range a mint draws from. -/
structure Selection where
  store : RangeStore
  rangesLen : ℕ
  rangeIndex : ℕ
  range : Option (ℕ × ℕ)
  isInitial : Bool

/-- A tick without ranges starts with all ids above the preminted ones; otherwise the
entropy selects a range. -/
def selectRange (store : RangeStore) (tick : Tick)
    (mergesetEntropy maxSupply premint : ℕ) : Selection :=
  let rangesLen := (store.rangeLengths.get tick).getD 0
  if rangesLen = 0 then
    { store := { store with rangeLengths := store.rangeLengths.insert tick 1 }
      rangesLen := 1
      rangeIndex := 0
      range := some (1 + premint, maxSupply - premint)
      isInitial := true }
  else
    let rangeIndex := mergesetEntropy % rangesLen
    { store
      rangesLen
      rangeIndex
      range := store.availableRanges.get ⟨tick, rangeIndex⟩
      isInitial := false }

/-- Take `valueId` from the selected range `(start, size)`. -/
def takeValue (selection : Selection) (tick : Tick) (start size valueId : ℕ) :
    Except Fault RangeStore :=
  let valueOffset := valueId - start
  if valueOffset = 0 then
    if size = 1 then
      selection.store.removeRange tick selection.rangeIndex valueId start size
        selection.rangesLen selection.isInitial
    else
      .ok (selection.store.shrinkRange tick selection.rangeIndex start size valueId true
        selection.isInitial)
  else if valueOffset = size - 1 then
    .ok (selection.store.shrinkRange tick selection.rangeIndex start size valueId false
      selection.isInitial)
  else
    .ok (selection.store.splitRange tick selection.rangeIndex valueId start size valueOffset
      selection.rangesLen selection.isInitial)

def generateTokenId (store : RangeStore) (tick : Tick)
    (mergesetEntropy maxSupply premint : ℕ) : Except Fault (RangeStore × ℕ) :=
  let selection := store.selectRange tick mergesetEntropy maxSupply premint
  match selection.range with
  | none => .error (.panic "Range must exist")
  | some (start, size) =>
      if size = 0 then
        .error (.panic "attempt to calculate the remainder with a divisor of zero")
      else
        let valueId := start + mergesetEntropy % size
        if maxSupply < valueId then
          .error (.panic "Generated ID is greater than max supply")
        else
          match takeValue selection tick start size valueId with
          | .error fault => .error fault
          | .ok store =>
              if valueId = 0 then
                .error (.panic "Generated ID cannot be zero since ranges start from 1")
              else .ok (store, valueId)

/-- Put a removed range back at its index. The range that had moved there returns to the
end of the list. -/
def revertRemovedRange (store : RangeStore) (tick : Tick) (preModRange : PreModRange)
    (rangesLen : ℕ) : Except Fault (RangeStore × ℕ) :=
  let restore (availableRanges : Partition RangeKey (ℕ × ℕ)) : RangeStore × ℕ :=
    ({ store with
       availableRanges := availableRanges.insert ⟨tick, preModRange.rangeIndex⟩
         (preModRange.start, preModRange.size)
       rangeLengths := store.rangeLengths.insert tick (rangesLen + 1) }, rangesLen + 1)
  if preModRange.rangeIndex < rangesLen then
    match store.availableRanges.get ⟨tick, preModRange.rangeIndex⟩ with
    | none => .error
        (.panic "Value must exist at target position if range tracking is correct")
    | some currentValue =>
        .ok (restore (store.availableRanges.insert ⟨tick, rangesLen⟩ currentValue))
  else .ok (restore store.availableRanges)

/-- Put a shrunk or split range back at its index; the right part of a split goes. -/
def restoreRangeMaybeSplit (store : RangeStore) (tick : Tick) (preModRange : PreModRange)
    (rangesLen : ℕ) : RangeStore × ℕ :=
  let availableRanges := store.availableRanges.insert ⟨tick, preModRange.rangeIndex⟩
    (preModRange.start, preModRange.size)
  if preModRange.split then
    ({ store with
       availableRanges := availableRanges.erase ⟨tick, u64Pred rangesLen⟩
       rangeLengths := store.rangeLengths.insert tick (u64Pred rangesLen) }, u64Pred rangesLen)
  else ({ store with availableRanges }, rangesLen)

/-- Undo the creation of the list when its first id is put back. -/
def removeInitialRange (store : RangeStore) (tick : Tick) (preModRange : PreModRange)
    (rangesLen : ℕ) : Except Fault RangeStore :=
  if u64Pred rangesLen = 0 then
    .ok { store with
      availableRanges := store.availableRanges.erase ⟨tick, preModRange.rangeIndex⟩
      rangeLengths := store.rangeLengths.erase tick }
  else .error (.panic "assertion `left == right` failed")

def rollbackTokenGeneration (store : RangeStore) (tick : Tick) (tokenId : ℕ) :
    Except Fault RangeStore :=
  match store.tokenIdMeta.get ⟨tick, tokenId⟩ with
  | none => .error (.panic "Token metadata must exist")
  | some preModRange =>
      let rangesLen := (store.rangeLengths.get tick).getD 0
      let restored :=
        if preModRange.removed then
          store.revertRemovedRange tick preModRange rangesLen
        else .ok (store.restoreRangeMaybeSplit tick preModRange rangesLen)
      match restored with
      | .error fault => .error fault
      | .ok (store, rangesLen) =>
          let store := { store with tokenIdMeta := store.tokenIdMeta.erase ⟨tick, tokenId⟩ }
          if preModRange.isInitial then
            store.removeInitialRange tick preModRange rangesLen
          else .ok store

end RangeStore

end Krc721
