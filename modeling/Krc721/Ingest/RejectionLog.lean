import Krc721.Processor.Operations
import Krc721.Store.Fill

/-! The log of the rejected transactions. The reasons are kept by transaction, and what has become
too old is found by its serial; a transaction that is rejected again while its earlier rejection
is still in the window loses its new reason together with the old one. -/

set_option autoImplicit false

namespace Krc721

open OrderedStore

def rejectionsLenLimit : ℕ := 1000000

/-- The part of the database that `reject_tx` reads and writes. -/
structure RejectionStore where
  serialRejection : ℕ
  serialToRejectedTxId : Partition ℕ TransactionId := ∅
  txIdToRejection : Partition TransactionId String := ∅

namespace RejectionStore

/-- An empty database: the next serial is one above the last key, or above the default 0. -/
def new : RejectionStore := { serialRejection := 1 }

/-- What `reject_tx` does with the serial that has left the window. -/
def evict (store : RejectionStore) (serial : ℕ) : RejectionStore :=
  if rejectionsLenLimit ≤ serial then
    let serialToRemove := serial - rejectionsLenLimit
    match store.serialToRejectedTxId.get serialToRemove with
    | some txId =>
        { store with
          serialToRejectedTxId := store.serialToRejectedTxId.erase serialToRemove
          txIdToRejection := store.txIdToRejection.erase txId }
    | none => store
  else store

def rejectTx (store : RejectionStore) (txId : TransactionId) (reason : String) :
    RejectionStore :=
  let serial := store.serialRejection
  let evicted := store.evict serial
  { serialRejection := wrappingAdd serial 1
    txIdToRejection := evicted.txIdToRejection.insert txId reason
    serialToRejectedTxId := evicted.serialToRejectedTxId.insert serial txId }

/-- A sequence of `reject_tx` calls. -/
def rejectAll (calls : List (TransactionId × String)) : RejectionStore :=
  calls.foldl (fun store call => store.rejectTx call.1 call.2) new

end RejectionStore

/-- What the log is for: the reasons of the last calls, a later one in place of an earlier one. -/
def recentRejections (calls : List (TransactionId × String)) : Partition TransactionId String :=
  (∅ : Partition TransactionId String).insertAll
    (calls.drop (calls.length - rejectionsLenLimit))

section

variable (calls : List (TransactionId × String)) (txId : TransactionId)

/-- The call at the index is the last one about the transaction. -/
structure IsLatest (reason : String) (index : ℕ) : Prop where
  call : calls[index]? = some (txId, reason)
  last : ∀ (later : ℕ) (reason' : String), index < later →
    calls[later]? ≠ some (txId, reason')

/-- The call at the index is about the transaction, and a later call has evicted it. The serials
are of type `u64`: those just below the end of the type are never evicted. -/
structure EvictedCall (index : ℕ) : Prop where
  call : ∃ reason, calls[index]? = some (txId, reason)
  left : index + rejectionsLenLimit < calls.length
  fits : (index + 1) % 2 ^ 64 + rejectionsLenLimit < 2 ^ 64

/-- The rejections of a transaction in the window that get evicted are evicted by its latest call;
for a transaction outside the window, a rejection is evicted after its latest call. -/
structure EvictsInTime : Prop where
  kept : ∀ (txId : TransactionId) (reason : String) (latest earlier : ℕ),
    IsLatest calls txId reason latest → calls.length ≤ latest + rejectionsLenLimit →
      EvictedCall calls txId earlier → earlier + rejectionsLenLimit ≤ latest
  dropped : ∀ (txId : TransactionId) (reason : String) (latest : ℕ),
    IsLatest calls txId reason latest → latest + rejectionsLenLimit < calls.length →
      ∃ earlier, EvictedCall calls txId earlier ∧ latest < earlier + rejectionsLenLimit

end

namespace RejectionStore

variable {store : RejectionStore} {calls : List (TransactionId × String)}
  {txId txId' : TransactionId} {reason reason' : String} {serial index : ℕ}

theorem rejectionsLenLimit_pos : 0 < rejectionsLenLimit := by decide

theorem rejectionsLenLimit_lt : rejectionsLenLimit < 2 ^ 64 := by decide

@[simp] theorem rejectAll_nil : rejectAll [] = new := rfl

@[simp] theorem rejectAll_concat :
    rejectAll (calls ++ [(txId, reason)]) = (rejectAll calls).rejectTx txId reason := by
  simp [rejectAll, List.foldl_append]

/-! Eviction erases the transaction at the serial that has left the window. -/

theorem evict_of_lt (inside : serial < rejectionsLenLimit) : store.evict serial = store := by
  unfold evict
  rw [if_neg (Nat.not_le.2 inside)]

theorem evict_of_none
    (absent : store.serialToRejectedTxId.get (serial - rejectionsLenLimit) = none) :
    store.evict serial = store := by
  simp only [evict, absent, ite_self]

theorem evict_of_some (outside : rejectionsLenLimit ≤ serial)
    (stored : store.serialToRejectedTxId.get (serial - rejectionsLenLimit) = some txId) :
    (store.evict serial).txIdToRejection = store.txIdToRejection.erase txId := by
  simp only [evict, if_pos outside, stored]

/-- Nothing but the serial that has left the window is erased. -/
theorem get_evict {key : ℕ} (kept : key + rejectionsLenLimit ≠ serial) :
    (store.evict serial).serialToRejectedTxId.get key = store.serialToRejectedTxId.get key := by
  simp only [evict]
  split
  · split
    · exact Partition.get_erase_of_ne _ (by omega)
    · rfl
  · rfl

theorem get_evict_of_none {key : ℕ} (absent : store.serialToRejectedTxId.get key = none) :
    (store.evict serial).serialToRejectedTxId.get key = none := by
  by_cases kept : key + rejectionsLenLimit = serial
  · rw [evict_of_none]
    · exact absent
    · rw [← kept, Nat.add_sub_cancel, absent]
  · rw [get_evict kept, absent]

/-- The calls that have not left the window are found by their serials. -/
structure Tracks (calls : List (TransactionId × String)) (store : RejectionStore) : Prop where
  serial : store.serialRejection = (calls.length + 1) % 2 ^ 64
  recent : ∀ (index : ℕ) (txId : TransactionId) (reason : String),
    calls[index]? = some (txId, reason) → calls.length ≤ index + rejectionsLenLimit →
      store.serialToRejectedTxId.get ((index + 1) % 2 ^ 64) = some txId
  unused : calls.length < 2 ^ 64 → store.serialToRejectedTxId.get 0 = none

theorem Tracks.rejectTx (tracks : Tracks calls store) :
    Tracks (calls ++ [(txId, reason)]) (store.rejectTx txId reason) := by
  have limit := rejectionsLenLimit_lt
  constructor
  case serial =>
    change wrappingAdd store.serialRejection 1 = _
    rw [tracks.serial, wrappingAdd, Nat.mod_add_mod, List.length_append, List.length_singleton]
  case recent =>
    intro index txId' reason' call inside
    rw [List.length_append, List.length_singleton] at inside
    change ((store.evict _).serialToRejectedTxId.insert _ txId).get _ = _
    rw [tracks.serial]
    rw [List.getElem?_append] at call
    split at call
    · rename_i before
      rw [Partition.get_insert_of_ne _ _ (by omega), get_evict (by omega)]
      exact tracks.recent index txId' reason' call (by omega)
    · rw [List.getElem?_singleton] at call
      split at call
      · cases call
        rw [show index = calls.length by omega]
        exact Partition.get_insert_self _ _ _
      · cases call
  case unused =>
    intro fits
    rw [List.length_append, List.length_singleton] at fits
    change ((store.evict _).serialToRejectedTxId.insert _ txId).get 0 = _
    rw [tracks.serial, Partition.get_insert_of_ne _ _ (by omega)]
    exact get_evict_of_none (tracks.unused (by omega))

theorem tracks_rejectAll : Tracks calls (rejectAll calls) := by
  induction calls using List.reverseRecOn with
  | nil => exact ⟨rfl, fun index txId reason call => by simp at call, fun _ => rfl⟩
  | append_singleton calls call ih =>
      rw [rejectAll_concat]
      exact ih.rejectTx

/-! What a call leaves of the reasons of the calls before it. -/

theorem get_rejectTx_self : (store.rejectTx txId reason).txIdToRejection.get txId = some reason :=
  Partition.get_insert_self _ _ _

/-- The reason of another transaction is lost if the call that leaves the window is about it. -/
theorem get_rejectTx_of_ne (tracks : Tracks calls store) (different : txId ≠ txId') :
    (store.rejectTx txId reason).txIdToRejection.get txId' = some reason' ↔
      store.txIdToRejection.get txId' = some reason' ∧
        ¬ ∃ index, index + rejectionsLenLimit = calls.length ∧
          (index + 1) % 2 ^ 64 + rejectionsLenLimit < 2 ^ 64 ∧
            ∃ reason, calls[index]? = some (txId', reason) := by
  have limit := rejectionsLenLimit_lt
  have positive := rejectionsLenLimit_pos
  change ((store.evict _).txIdToRejection.insert txId reason).get txId' = _ ↔ _
  rw [Partition.get_insert_of_ne _ _ different, tracks.serial]
  by_cases leaves : rejectionsLenLimit ≤ calls.length ∧
      (calls.length - rejectionsLenLimit + 1) % 2 ^ 64 + rejectionsLenLimit < 2 ^ 64
  · obtain ⟨full, fits⟩ := leaves
    obtain ⟨⟨left, reasonLeft⟩, call⟩ : ∃ call,
        calls[calls.length - rejectionsLenLimit]? = some call :=
      ⟨_, List.getElem?_eq_getElem (by omega)⟩
    have stored := tracks.recent _ _ _ call (by omega)
    rw [evict_of_some (by omega) (by rwa [show (calls.length + 1) % 2 ^ 64 - rejectionsLenLimit =
      (calls.length - rejectionsLenLimit + 1) % 2 ^ 64 by omega]), Partition.get_erase]
    by_cases same : left = txId'
    · subst same
      simp only [if_pos]
      refine iff_of_false (by simp) fun kept => kept.2 ?_
      exact ⟨_, by omega, fits, _, call⟩
    · rw [if_neg same]
      refine (and_iff_left ?_).symm
      rintro ⟨index, position, -, reason, call'⟩
      rw [show calls.length - rejectionsLenLimit = index by omega, call'] at call
      cases call
      exact same rfl
  · have kept : store.evict ((calls.length + 1) % 2 ^ 64) = store := by
      by_cases inside : (calls.length + 1) % 2 ^ 64 < rejectionsLenLimit
      · exact evict_of_lt inside
      · apply evict_of_none
        rw [show (calls.length + 1) % 2 ^ 64 - rejectionsLenLimit = 0 by omega]
        exact tracks.unused (by omega)
    rw [kept]
    refine (and_iff_left ?_).symm
    rintro ⟨index, position, fits, -⟩
    exact leaves ⟨by omega, by rwa [show calls.length - rejectionsLenLimit = index by omega]⟩

end RejectionStore

section

variable {calls : List (TransactionId × String)} {txId txId' : TransactionId}
  {reason reason' : String} {index : ℕ}

theorem IsLatest.lt (latest : IsLatest calls txId reason index) : index < calls.length :=
  (List.getElem?_eq_some_iff.1 latest.call).1

theorem IsLatest.unique {index' : ℕ} (latest : IsLatest calls txId reason index)
    (latest' : IsLatest calls txId reason' index') : index = index' ∧ reason = reason' := by
  have same : index = index' := by
    refine le_antisymm (Nat.not_lt.1 fun later => ?_) (Nat.not_lt.1 fun later => ?_)
    · exact latest'.last _ _ later latest.call
    · exact latest.last _ _ later latest'.call
  subst same
  have call := latest.call.symm.trans latest'.call
  cases call
  exact ⟨rfl, rfl⟩

theorem isLatest_concat_self :
    IsLatest (calls ++ [(txId, reason)]) txId reason calls.length where
  call := List.getElem?_concat_length
  last later reason' after := by
    rw [List.getElem?_eq_none (by simpa using after)]
    exact nofun

/-- A call about another transaction leaves the latest call about this one as it is. -/
theorem isLatest_concat_of_ne (different : txId ≠ txId') :
    IsLatest (calls ++ [(txId, reason)]) txId' reason' index ↔
      IsLatest calls txId' reason' index := by
  have inside : ∀ (index : ℕ) (reason' : String),
      (calls ++ [(txId, reason)])[index]? = some (txId', reason') ↔
        calls[index]? = some (txId', reason') := by
    intro index reason'
    rw [List.getElem?_append]
    split
    · rfl
    · rename_i outside
      rw [List.getElem?_eq_none (Nat.not_lt.1 outside), List.getElem?_singleton]
      split
      · simp [different]
      · rfl
  constructor
  · rintro ⟨call, last⟩
    exact ⟨(inside _ _).1 call, fun later reason after found =>
      last later reason after ((inside _ _).2 found)⟩
  · rintro ⟨call, last⟩
    exact ⟨(inside _ _).2 call, fun later reason after found =>
      last later reason after ((inside _ _).1 found)⟩

/-- A further call evicts at most the call that leaves the window with it. -/
theorem evictedCall_concat {call : TransactionId × String} :
    EvictedCall (calls ++ [call]) txId index ↔ EvictedCall calls txId index ∨
      index + rejectionsLenLimit = calls.length ∧
        (index + 1) % 2 ^ 64 + rejectionsLenLimit < 2 ^ 64 ∧
          ∃ reason, calls[index]? = some (txId, reason) := by
  have positive := RejectionStore.rejectionsLenLimit_pos
  constructor
  · rintro ⟨about, left, fits⟩
    rw [List.length_append, List.length_singleton] at left
    rw [List.getElem?_append_left (by omega)] at about
    rcases Nat.lt_or_eq_of_le (Nat.le_of_lt_succ left) with earlier | now
    · exact .inl ⟨about, earlier, fits⟩
    · exact .inr ⟨now, fits, about⟩
  · intro evicted
    rcases evicted with ⟨about, left, fits⟩ | ⟨now, fits, about⟩
    · refine ⟨?_, by simp; omega, fits⟩
      rwa [List.getElem?_append_left (by omega)]
    · refine ⟨?_, by simp; omega, fits⟩
      rwa [List.getElem?_append_left (by omega)]

/-- The window holds the transactions whose latest call is in it. -/
theorem get_recentRejections :
    (recentRejections calls).get txId = some reason ↔
      ∃ index, IsLatest calls txId reason index ∧
        calls.length ≤ index + rejectionsLenLimit := by
  unfold recentRejections
  rw [Partition.get_insertAll_eq_some_iff]
  constructor
  · rintro ⟨index, call, last⟩
    rw [List.getElem?_drop] at call
    refine ⟨_, ⟨call, fun later reason' after found => ?_⟩, by omega⟩
    refine last (later - (calls.length - rejectionsLenLimit)) (txId, reason') (by omega) ?_ rfl
    rwa [List.getElem?_drop, show calls.length - rejectionsLenLimit +
      (later - (calls.length - rejectionsLenLimit)) = later by omega]
  · rintro ⟨index, ⟨call, last⟩, inside⟩
    refine ⟨index - (calls.length - rejectionsLenLimit), ?_, fun later row after found same => ?_⟩
    · rwa [List.getElem?_drop, show calls.length - rejectionsLenLimit +
        (index - (calls.length - rejectionsLenLimit)) = index by omega]
    · rw [List.getElem?_drop] at found
      obtain ⟨rowId, rowReason⟩ := row
      subst same
      exact last _ _ (by omega) found

/-- The log holds the transactions that no call since their latest one has evicted. -/
theorem get_rejectAll :
    (RejectionStore.rejectAll calls).txIdToRejection.get txId = some reason ↔
      ∃ index, IsLatest calls txId reason index ∧
        ∀ earlier, EvictedCall calls txId earlier → earlier + rejectionsLenLimit ≤ index := by
  induction calls using List.reverseRecOn with
  | nil =>
      refine iff_of_false ?_ fun ⟨index, latest, _⟩ => Nat.not_lt_zero _ latest.lt
      rw [RejectionStore.rejectAll_nil]
      exact nofun
  | append_singleton calls call ih =>
      obtain ⟨callId, callReason⟩ := call
      rw [RejectionStore.rejectAll_concat]
      by_cases same : callId = txId
      · subst same
        rw [RejectionStore.get_rejectTx_self]
        constructor
        · intro now
          cases now
          refine ⟨_, isLatest_concat_self, fun earlier evicted => ?_⟩
          have left := evicted.left
          rw [List.length_append, List.length_singleton] at left
          exact Nat.le_of_lt_succ left
        · rintro ⟨index, latest, -⟩
          rw [(latest.unique isLatest_concat_self).2]
      · rw [RejectionStore.get_rejectTx_of_ne RejectionStore.tracks_rejectAll same, ih]
        simp only [isLatest_concat_of_ne same, evictedCall_concat]
        constructor
        · rintro ⟨⟨index, latest, kept⟩, still⟩
          refine ⟨index, latest, fun earlier evicted => ?_⟩
          rcases evicted with before | now
          · exact kept earlier before
          · exact absurd ⟨earlier, now⟩ still
        · rintro ⟨index, latest, kept⟩
          refine ⟨⟨index, latest, fun earlier evicted => kept earlier (.inl evicted)⟩, ?_⟩
          rintro ⟨earlier, now⟩
          have := kept earlier (.inr now)
          have := latest.lt
          omega

end

/-- Before the serials wrap around, every call that has left the window is evicted. -/
theorem evictsInTime_iff {calls : List (TransactionId × String)} (fits : calls.length < 2 ^ 64) :
    EvictsInTime calls ↔ ∀ (txId : TransactionId) (reason : String) (latest earlier : ℕ),
      IsLatest calls txId reason latest → calls.length ≤ latest + rejectionsLenLimit →
        EvictedCall calls txId earlier → earlier + rejectionsLenLimit ≤ latest := by
  refine ⟨EvictsInTime.kept, fun kept => ⟨kept, fun txId reason latest isLatest outside => ?_⟩⟩
  have positive := RejectionStore.rejectionsLenLimit_pos
  exact ⟨latest, ⟨⟨reason, isLatest.call⟩, outside, by omega⟩, by omega⟩

/-- The log holds the reasons of the last calls if and only if no eviction comes after the latest
call of a transaction in the window. -/
theorem txIdToRejection_iff (calls : List (TransactionId × String)) :
    (RejectionStore.rejectAll calls).txIdToRejection = recentRejections calls ↔
      EvictsInTime calls := by
  constructor
  · intro same
    constructor
    case kept =>
      intro txId reason latest earlier isLatest inside evicted
      have stored := get_recentRejections.2 ⟨latest, isLatest, inside⟩
      rw [← same, get_rejectAll] at stored
      obtain ⟨index, isLatest', kept⟩ := stored
      rw [(isLatest.unique isLatest').1]
      exact kept earlier evicted
    case dropped =>
      intro txId reason latest isLatest outside
      by_contra never
      push Not at never
      have stored := get_rejectAll.2 ⟨latest, isLatest, never⟩
      rw [same, get_recentRejections] at stored
      obtain ⟨index, isLatest', inside⟩ := stored
      rw [(isLatest.unique isLatest').1] at outside
      omega
  · intro inTime
    ext txId reason
    rw [get_rejectAll, get_recentRejections]
    constructor
    · rintro ⟨index, latest, kept⟩
      refine ⟨index, latest, Nat.not_lt.1 fun outside => ?_⟩
      obtain ⟨earlier, evicted, late⟩ := inTime.dropped _ _ _ latest outside
      exact absurd (kept earlier evicted) (Nat.not_le.2 late)
    · rintro ⟨index, latest, inside⟩
      exact ⟨index, latest, fun earlier evicted =>
        inTime.kept _ _ _ _ latest inside evicted⟩

/-- One transaction is rejected twice in a row, and others fill the rest of the window. -/
def rejectedTwice : List (TransactionId × String) :=
  [(1, "first"), (1, "second")] ++ List.replicate (rejectionsLenLimit - 1) (2, "other")

/-- The second rejection is among the last calls, and the first one takes it along. -/
theorem rejectedTwice_lost :
    (RejectionStore.rejectAll rejectedTwice).txIdToRejection ≠ recentRejections rejectedTwice := by
  have size : rejectedTwice.length = rejectionsLenLimit + 1 := by
    rw [rejectedTwice, List.length_append, List.length_replicate]
    rfl
  have others : ∀ (index : ℕ) (reason : String), 1 < index →
      rejectedTwice[index]? ≠ some (1, reason) := by
    intro index reason later call
    unfold rejectedTwice at call
    rw [List.getElem?_append_right (Nat.succ_le_of_lt later), List.getElem?_replicate] at call
    split at call
    · cases call
    · cases call
  have latest : IsLatest rejectedTwice 1 "second" 1 := ⟨rfl, others⟩
  have evicted : EvictedCall rejectedTwice 1 0 :=
    ⟨⟨"first", rfl⟩, by rw [size]; omega, by decide⟩
  intro same
  have stored := get_recentRejections.2 ⟨1, latest, by rw [size]; omega⟩
  rw [← same, get_rejectAll] at stored
  obtain ⟨index, latest', kept⟩ := stored
  have tooLate := kept 0 evicted
  rw [(latest'.unique latest).1] at tooLate
  exact absurd tooLate (by decide)

end Krc721
