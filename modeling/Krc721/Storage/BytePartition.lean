import Krc721.Model.StoredRows
import Krc721.Transition.Program

/-! The typed partitions over the key-value store. Each method writes and reads bytes; on a store
that encodes a partition it answers as the partition would, and no row fails to be read. -/

set_option autoImplicit false

namespace Krc721

open OrderedStore Transition

inductive StoreError where
  | borsh
  /-- `K::from_key_bytes` panics. -/
  | key
deriving DecidableEq

inductive Bound (K : Type) where
  | included (key : K)
  | excluded (key : K)
  | unbounded

namespace Bound

variable {K L : Type}

def map (write : K → L) : Bound K → Bound L
  | included key => included (write key)
  | excluded key => excluded (write key)
  | unbounded => unbounded

variable [LinearOrder K] [LinearOrder L]

def startsAt (key : K) : Bound K → Bool
  | included start => decide (start ≤ key)
  | excluded start => decide (start < key)
  | unbounded => true

def endsAt (key : K) : Bound K → Bool
  | included stop => decide (key ≤ stop)
  | excluded stop => decide (key < stop)
  | unbounded => true

variable {write : K → L} (lt_iff : ∀ {left right : K}, write left < write right ↔ left < right)

include lt_iff in
theorem startsAt_map (start : Bound K) (key : K) :
    (start.map write).startsAt (write key) = start.startsAt key := by
  cases start with
  | included bound => simp only [map, startsAt, ← not_lt, lt_iff]
  | excluded bound => simp only [map, startsAt, lt_iff]
  | unbounded => rfl

include lt_iff in
theorem endsAt_map (stop : Bound K) (key : K) :
    (stop.map write).endsAt (write key) = stop.endsAt key := by
  cases stop with
  | included bound => simp only [map, endsAt, ← not_lt, lt_iff]
  | excluded bound => simp only [map, endsAt, lt_iff]
  | unbounded => rfl

end Bound

variable {K V : Type} [LinearOrder K]

/-! The methods on bytes. -/

namespace ByteStore

/-- `borsh::from_slice` of a value that is there. -/
def readValue (format : RowFormat K V (List ℕ) Borsh.Bytes) :
    Option Borsh.Bytes → Except StoreError (Option V)
  | none => .ok none
  | some bytes =>
      match format.readValue bytes with
      | none => .error .borsh
      | some value => .ok (some value)

def readKey (format : RowFormat K V (List ℕ) Borsh.Bytes) (row : List ℕ × Borsh.Bytes) :
    Except StoreError K :=
  match format.readKey row.1 with
  | none => .error .key
  | some key => .ok key

def readRow (format : RowFormat K V (List ℕ) Borsh.Bytes) (row : List ℕ × Borsh.Bytes) :
    Except StoreError (K × V) :=
  match readKey format row with
  | .error error => .error error
  | .ok key =>
      match format.readValue row.2 with
      | none => .error .borsh
      | some value => .ok (key, value)

def readKeyOf (format : RowFormat K V (List ℕ) Borsh.Bytes) :
    Option (List ℕ × Borsh.Bytes) → Except StoreError (Option K)
  | none => .ok none
  | some row => (readKey format row).map some

/-- `tx.range` of the store. -/
def range (store : ByteStore) (start stop : Bound (List ℕ)) : List (List ℕ × Borsh.Bytes) :=
  store.entries.filter fun row => start.startsAt row.1 && stop.endsAt row.1

/-- `tx.prefix` of the store. -/
def withPrefix (store : ByteStore) (front : List ℕ) : List (List ℕ × Borsh.Bytes) :=
  store.entries.filter fun row => front.isPrefixOf row.1

variable (format : RowFormat K V (List ℕ) Borsh.Bytes) (store : ByteStore)

def insertWtx (key : K) (value : V) : Except StoreError Unit × ByteStore :=
  match format.writeValue value with
  | none => (.error .borsh, store)
  | some bytes => (.ok (), store.insert (format.writeKey key) bytes)

def insertIfNotExistWtx (key : K) (value : V) : Except StoreError Bool × ByteStore :=
  match format.writeValue value with
  | none => (.error .borsh, store)
  | some bytes =>
      match store.get (format.writeKey key) with
      | none => (.ok true, store.insert (format.writeKey key) bytes)
      | some current => (.ok false, store.insert (format.writeKey key) current)

def getWtx (key : K) : Except StoreError (Option V) :=
  readValue format (store.get (format.writeKey key))

def containsKeyWtx (key : K) : Bool := (store.get (format.writeKey key)).isSome

def removeWtx (key : K) : ByteStore := store.erase (format.writeKey key)

/-- The row is gone also where its value is not read. -/
def removeIfExistsWtx (key : K) : Except StoreError (Option V) × ByteStore :=
  (readValue format (store.get (format.writeKey key)), store.erase (format.writeKey key))

def rangeWtx (start stop : Bound K) : List (Except StoreError (K × V)) :=
  (store.range (start.map format.writeKey) (stop.map format.writeKey)).map (readRow format)

def rangeKeysWtx (start stop : Bound K) : List (Except StoreError K) :=
  (store.range (start.map format.writeKey) (stop.map format.writeKey)).map (readKey format)

def lastKeyWtx : Except StoreError (Option K) := readKeyOf format store.entries.getLast?

def firstKeyWtx : Except StoreError (Option K) := readKeyOf format store.entries.head?

/-- The rows from some bytes on, as `range_from_score_wtx` reads them. -/
def rangeFromWtx (front : List ℕ) : List (Except StoreError (K × V)) :=
  (store.range (.included front) .unbounded).map (readRow format)

/-- The rows under a prefix, as the scan for a token reads them. -/
def prefixWtx (front : List ℕ) : List (Except StoreError (K × V)) :=
  (store.withPrefix front).map (readRow format)

/-- The keys under a prefix, as the scans for a tick read them. -/
def prefixKeysWtx (front : List ℕ) : List (Except StoreError K) :=
  (store.withPrefix front).map (readKey format)

end ByteStore

/-! Calls. -/

/-- A call of a method. -/
inductive PartitionCall (K V : Type) where
  | insert (key : K) (value : V)
  | insertIfNotExist (key : K) (value : V)
  | get (key : K)
  | containsKey (key : K)
  | remove (key : K)
  | removeIfExists (key : K)
  | range (start stop : Bound K)
  | rangeKeys (start stop : Bound K)
  | rangeFrom (front : List ℕ)
  | withPrefix (front : List ℕ)
  | keysWithPrefix (front : List ℕ)
  | lastKey
  | firstKey

/-- What a call returns. A caller may read an iterator from either end and stop anywhere. -/
def PartitionCall.Answer : PartitionCall K V → Type
  | insert .. => Except StoreError Unit
  | insertIfNotExist .. => Except StoreError Bool
  | get .. | removeIfExists .. => Except StoreError (Option V)
  | containsKey .. => Bool
  | remove .. => Unit
  | range .. | rangeFrom .. | withPrefix .. => List (Except StoreError (K × V))
  | rangeKeys .. | keysWithPrefix .. => List (Except StoreError K)
  | lastKey | firstKey => Except StoreError (Option K)

def ByteStore.answer (format : RowFormat K V (List ℕ) Borsh.Bytes) :
    Machine ByteStore (PartitionCall K V) PartitionCall.Answer
  | store, .insert key value => store.insertWtx format key value
  | store, .insertIfNotExist key value => store.insertIfNotExistWtx format key value
  | store, .get key => (store.getWtx format key, store)
  | store, .containsKey key => (store.containsKeyWtx format key, store)
  | store, .remove key => ((), store.removeWtx format key)
  | store, .removeIfExists key => store.removeIfExistsWtx format key
  | store, .range start stop => (store.rangeWtx format start stop, store)
  | store, .rangeKeys start stop => (store.rangeKeysWtx format start stop, store)
  | store, .rangeFrom front => (store.rangeFromWtx format front, store)
  | store, .withPrefix front => (store.prefixWtx format front, store)
  | store, .keysWithPrefix front => (store.prefixKeysWtx format front, store)
  | store, .lastKey => (store.lastKeyWtx format, store)
  | store, .firstKey => (store.firstKeyWtx format, store)

/-- The same calls on a finite map. Only a value that Borsh does not write is refused, and no
read fails. -/
def rowsAnswer (format : RowFormat K V (List ℕ) Borsh.Bytes) :
    Machine (Partition K V) (PartitionCall K V) PartitionCall.Answer
  | rows, .insert key value =>
      if (format.writeValue value).isSome then (.ok (), rows.insert key value)
      else (.error .borsh, rows)
  | rows, .insertIfNotExist key value =>
      if (format.writeValue value).isSome then
        if (rows.get key).isSome then (.ok false, rows) else (.ok true, rows.insert key value)
      else (.error .borsh, rows)
  | rows, .get key => (.ok (rows.get key), rows)
  | rows, .containsKey key => ((rows.get key).isSome, rows)
  | rows, .remove key => ((), rows.erase key)
  | rows, .removeIfExists key => (.ok (rows.get key), rows.erase key)
  | rows, .range start stop =>
      ((rows.entries.filter fun row => start.startsAt row.1 && stop.endsAt row.1).map .ok, rows)
  | rows, .rangeKeys start stop =>
      ((rows.entries.filter fun row => start.startsAt row.1 && stop.endsAt row.1).map fun row =>
        .ok row.1, rows)
  | rows, .rangeFrom front =>
      ((rows.entries.filter fun row => decide (front ≤ format.writeKey row.1)).map .ok, rows)
  | rows, .withPrefix front =>
      ((rows.entries.filter fun row => front.isPrefixOf (format.writeKey row.1)).map .ok, rows)
  | rows, .keysWithPrefix front =>
      ((rows.entries.filter fun row => front.isPrefixOf (format.writeKey row.1)).map fun row =>
        .ok row.1, rows)
  | rows, .lastKey => (.ok rows.lastKey, rows)
  | rows, .firstKey => (.ok (rows.entries.head?.map Prod.fst), rows)

/-! Each call. -/

section Answers

open RowFormat

variable {format : RowFormat K V (List ℕ) Borsh.Bytes} {store : ByteStore} {rows : Partition K V}

theorem readKey_of_keeps {raw : List ℕ × Borsh.Bytes} {row : K × V}
    (keeps : format.Keeps raw row) : ByteStore.readKey format raw = .ok row.1 := by
  rw [ByteStore.readKey, ← keeps.1, format.readKey_writeKey]

theorem readRow_of_keeps {raw : List ℕ × Borsh.Bytes} {row : K × V}
    (keeps : format.Keeps raw row) : ByteStore.readRow format raw = .ok row := by
  rw [ByteStore.readRow, readKey_of_keeps keeps, keeps.2]

namespace ByteStore

theorem getWtx_eq (encodes : format.Encodes store rows) (key : K) :
    store.getWtx format key = .ok (rows.get key) := by
  have stored := encodes.stored key
  unfold ByteStore.getWtx
  cases found : store.get (format.writeKey key) with
  | none =>
      rw [found, Option.map_none] at stored
      rw [Option.map_eq_none_iff.1 stored.symm]
      rfl
  | some bytes =>
      rw [found, Option.map_some] at stored
      obtain ⟨value, present, read⟩ := Option.map_eq_some_iff.1 stored.symm
      rw [present, ByteStore.readValue, ← read]

theorem insertWtx_eq (encodes : format.Encodes store rows) (key : K) (value : V) :
    (store.insertWtx format key value).1 = (rowsAnswer format rows (.insert key value)).1 ∧
      format.Encodes (store.insertWtx format key value).2
        (rowsAnswer format rows (.insert key value)).2 := by
  cases written : format.writeValue value with
  | none => simpa [ByteStore.insertWtx, rowsAnswer, written] using encodes
  | some bytes =>
      simpa [ByteStore.insertWtx, rowsAnswer, written] using
        encodes.insert key (format.readValue_of_writeValue written)

/-- Storing the value that is there changes nothing. -/
theorem insertIfNotExistWtx_eq (encodes : format.Encodes store rows) (key : K) (value : V) :
    (store.insertIfNotExistWtx format key value).1 =
        (rowsAnswer format rows (.insertIfNotExist key value)).1 ∧
      format.Encodes (store.insertIfNotExistWtx format key value).2
        (rowsAnswer format rows (.insertIfNotExist key value)).2 := by
  have present := encodes.isSome_get key
  cases written : format.writeValue value with
  | none => simpa [ByteStore.insertIfNotExistWtx, rowsAnswer, written] using encodes
  | some bytes =>
      cases found : store.get (format.writeKey key) with
      | none =>
          rw [found] at present
          simpa [ByteStore.insertIfNotExistWtx, rowsAnswer, written, found, ← present] using
            encodes.insert key (format.readValue_of_writeValue written)
      | some current =>
          rw [found] at present
          have unchanged : store.insert (format.writeKey key) current = store := by
            ext other : 1
            rw [Partition.get_insert]
            split
            · rename_i same
              rw [← same, found]
            · rfl
          simpa [ByteStore.insertIfNotExistWtx, rowsAnswer, written, found, ← present,
            unchanged] using encodes

theorem range_keeps (encodes : format.Encodes store rows) (start stop : Bound K) :
    List.Forall₂ format.Keeps
      (store.range (start.map format.writeKey) (stop.map format.writeKey))
      (rows.entries.filter fun row => start.startsAt row.1 && stop.endsAt row.1) := by
  apply encodes.filter
    (fun key => (start.map format.writeKey).startsAt key && (stop.map format.writeKey).endsAt key)
    fun key => start.startsAt key && stop.endsAt key
  intro key
  rw [Bound.startsAt_map format.lt_iff, Bound.endsAt_map format.lt_iff]

theorem lastKeyWtx_eq (encodes : format.Encodes store rows) :
    store.lastKeyWtx format = .ok rows.lastKey := by
  have keys := map_eq_of_keeps encodes.entries readKey_of_keeps
  have last := congrArg List.getLast? keys
  rw [List.getLast?_map, List.getLast?_map] at last
  unfold ByteStore.lastKeyWtx Partition.lastKey
  cases found : store.entries.getLast? with
  | none =>
      rw [found, Option.map_none] at last
      rw [Option.map_eq_none_iff.1 last.symm]
      rfl
  | some raw =>
      rw [found, Option.map_some] at last
      obtain ⟨row, present, read⟩ := Option.map_eq_some_iff.1 last.symm
      rw [present, ByteStore.readKeyOf, ← read]
      rfl

theorem firstKeyWtx_eq (encodes : format.Encodes store rows) :
    store.firstKeyWtx format = .ok (rows.entries.head?.map Prod.fst) := by
  have same := encodes.entries
  unfold ByteStore.firstKeyWtx
  generalize store.entries = kept at same
  generalize rows.entries = list at same
  cases same with
  | nil => rfl
  | cons keeps rest =>
      rw [List.head?_cons, List.head?_cons, ByteStore.readKeyOf, readKey_of_keeps keeps]
      rfl

/-- A store that encodes a partition answers every call as the partition does. -/
theorem answer_simulates (format : RowFormat K V (List ℕ) Borsh.Bytes) :
    Simulates format.Encodes (ByteStore.answer format) (rowsAnswer format) := by
  intro store rows call encodes
  cases call with
  | insert key value => exact insertWtx_eq encodes key value
  | insertIfNotExist key value => exact insertIfNotExistWtx_eq encodes key value
  | get key => exact ⟨getWtx_eq encodes key, encodes⟩
  | containsKey key => exact ⟨encodes.isSome_get key, encodes⟩
  | remove key => exact ⟨rfl, encodes.erase key⟩
  | removeIfExists key => exact ⟨getWtx_eq encodes key, encodes.erase key⟩
  | range start stop =>
      exact ⟨map_eq_of_keeps (range_keeps encodes start stop) readRow_of_keeps, encodes⟩
  | rangeKeys start stop =>
      exact ⟨map_eq_of_keeps (range_keeps encodes start stop) readKey_of_keeps, encodes⟩
  | rangeFrom front =>
      refine ⟨map_eq_of_keeps (encodes.filter
        (fun key => Bound.startsAt key (.included front) && Bound.endsAt key .unbounded)
        (fun key => decide (front ≤ format.writeKey key)) fun key => ?_) readRow_of_keeps, encodes⟩
      rw [Bound.startsAt, Bound.endsAt, Bool.and_true]
  | withPrefix front =>
      exact ⟨map_eq_of_keeps (encodes.filter (front.isPrefixOf ·)
        (fun key => front.isPrefixOf (format.writeKey key)) fun key => rfl) readRow_of_keeps,
        encodes⟩
  | keysWithPrefix front =>
      exact ⟨map_eq_of_keeps (encodes.filter (front.isPrefixOf ·)
        (fun key => front.isPrefixOf (format.writeKey key)) fun key => rfl) readKey_of_keeps,
        encodes⟩
  | lastKey => exact ⟨lastKeyWtx_eq encodes, encodes⟩
  | firstKey => exact ⟨firstKeyWtx_eq encodes, encodes⟩

end ByteStore

end Answers

end Krc721
