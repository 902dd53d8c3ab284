import Krc721.Ingest.Threads
import Krc721.Model.NotificationCodec
import Krc721.Processor.QueueFrame
import Krc721.Processor.Reorg
import Krc721.Store.Numbered

/-! The queue of notifications as the database stores it: each is written under the next key, and
all of them are read again and processed in one transaction. That is the same as processing them
one by one when they came. -/

set_option autoImplicit false

namespace Krc721

open OrderedStore OrderedStore.Partition

inductive QueueError where
  | borsh
  | processing (fault : Fault)
deriving DecidableEq

/-- The database with the rows of `notification_queue` as bytes; those of `tables` are not used. -/
structure StoredDb where
  tables : Db
  notificationQueue : Partition ℕ Borsh.Bytes

namespace StoredDb

/-- A row under the key after the last one. -/
def enqueue (stored : StoredDb) (bytes : Borsh.Bytes) : StoredDb :=
  let nextKey := wrappingAdd (stored.notificationQueue.lastKey.getD 0) 1
  { stored with notificationQueue := stored.notificationQueue.insert nextKey bytes }

def processQueue (stored : StoredDb) (vcc : VirtualChainChanges) :
    StoredDb × Except QueueError Unit :=
  match virtualChainChangesCodec.write vcc with
  | none => (stored, .error .borsh)
  | some bytes => (stored.enqueue bytes, .ok ())

/-- The notifications are stored one by one. -/
def processQueues : StoredDb → List VirtualChainChanges → StoredDb × Except QueueError Unit
  | stored, [] => (stored, .ok ())
  | stored, vcc :: vccs =>
      match stored.processQueue vcc with
      | (stored, .ok ()) => processQueues stored vccs
      | (stored, .error error) => (stored, .error error)

/-- The loop of `process_queue_application`. -/
def applyQueued (kaspa : Kaspa) : StoredDb → List ℕ → Except QueueError StoredDb
  | stored, [] => .ok stored
  | stored, key :: keys =>
      match stored.notificationQueue.get key with
      | none => .error (.processing (.panic "called `Option::unwrap()` on a `None` value"))
      | some bytes =>
          match virtualChainChangesCodec.fromSlice bytes with
          | none => .error .borsh
          | some vcc =>
              match processChainChangesWtx kaspa stored.tables vcc with
              | .error fault => .error (.processing fault)
              | .ok tables => applyQueued kaspa
                  ⟨tables, stored.notificationQueue.erase key⟩ keys

def processQueueApplication (kaspa : Kaspa) (stored : StoredDb) :
    StoredDb × Except QueueError Unit :=
  let first := ((stored.notificationQueue.firstWhere fun _ => true).map Prod.fst).getD 0
  let last := stored.notificationQueue.lastKey.getD 0
  if first * last % 2 ^ 64 = 0 then (stored, .ok ())
  else
    match stored.applyQueued kaspa (List.range' first (last + 1 - first)) with
    | .error error => (stored, .error error)
    | .ok committed => (committed, .ok ())

end StoredDb

/-- `process_chain_changes` for one notification after the other, up to the first that fails. -/
def processInOrder (kaspa : Kaspa) : Db → List VirtualChainChanges → Db × Except Fault Unit
  | db, [] => (db, .ok ())
  | db, vcc :: vccs =>
      match processChainChanges kaspa db vcc with
      | (db, .ok ()) => processInOrder kaspa db vccs
      | (db, .error fault) => (db, .error fault)

/-- Once the notifications are stored over an empty queue, applying the queue does what processing
them in order does; when one of them fails, it does nothing. -/
def QueuedEqualsDirect (kaspa : Kaspa) (tables : Db) (vccs : List VirtualChainChanges) : Prop :=
  ∀ stored, StoredDb.processQueues ⟨tables, ∅⟩ vccs = (stored, .ok ()) →
    stored.processQueueApplication kaspa =
      match processInOrder kaspa tables vccs with
      | (tables', .ok ()) => (⟨tables', ∅⟩, .ok ())
      | (_, .error fault) => (stored, .error (.processing fault))

section

variable {kaspa : Kaspa} {stored stored' : StoredDb} {vcc : VirtualChainChanges}
variable {vccs : List VirtualChainChanges} {rows : List Borsh.Bytes} {bytes : Borsh.Bytes}
variable {first : ℕ}

/-- The row is what is written for the notification. -/
def Writes (vcc : VirtualChainChanges) (bytes : Borsh.Bytes) : Prop :=
  virtualChainChangesCodec.write vcc = some bytes

namespace StoredDb

theorem processQueues_cons_eq_ok :
    stored.processQueues (vcc :: vccs) = (stored', .ok ()) ↔
      ∃ bytes, Writes vcc bytes ∧
        (stored.enqueue bytes).processQueues vccs = (stored', .ok ()) := by
  cases written : virtualChainChangesCodec.write vcc with
  | none => simp [processQueues, processQueue, Writes, written]
  | some bytes => simp [processQueues, processQueue, Writes, written]

theorem lastKey_of_numbered (numbered : Numbered 1 rows stored.notificationQueue) :
    stored.notificationQueue.lastKey.getD 0 = rows.length := by
  cases rows with
  | nil =>
      rw [numbered.eq_empty]
      rfl
  | cons row rows =>
      rw [numbered.lastKey (List.cons_ne_nil row rows), Option.getD_some]
      omega

/-- The row goes behind the others as long as its key fits. -/
theorem numbered_enqueue (numbered : Numbered 1 rows stored.notificationQueue)
    (fits : rows.length + 1 < 2 ^ 64) :
    Numbered 1 (rows ++ [bytes]) (stored.enqueue bytes).notificationQueue := by
  have next : wrappingAdd (stored.notificationQueue.lastKey.getD 0) 1 = 1 + rows.length := by
    rw [lastKey_of_numbered numbered, wrappingAdd]
    omega
  rw [enqueue, next]
  exact numbered.push

/-- Fewer than `2 ^ 64` notifications are numbered from one. -/
theorem numbered_of_processQueues (numbered : Numbered 1 rows stored.notificationQueue)
    (fits : rows.length + vccs.length < 2 ^ 64)
    (queued : stored.processQueues vccs = (stored', .ok ())) :
    ∃ more, List.Forall₂ Writes vccs more ∧ stored'.tables = stored.tables ∧
      Numbered 1 (rows ++ more) stored'.notificationQueue := by
  induction vccs generalizing stored rows with
  | nil =>
      cases queued
      exact ⟨[], .nil, rfl, by rwa [List.append_nil]⟩
  | cons vcc vccs ih =>
      rw [List.length_cons] at fits
      obtain ⟨bytes, writes, rest⟩ := processQueues_cons_eq_ok.1 queued
      obtain ⟨more, written, sameTables, numbered'⟩ :=
        ih (numbered_enqueue numbered (by omega))
          (by rw [List.length_append, List.length_singleton]; omega) rest
      refine ⟨bytes :: more, .cons writes written, sameTables, ?_⟩
      rwa [List.append_assoc, List.singleton_append] at numbered'

theorem exists_processQueues (written : ∀ vcc ∈ vccs, ∃ bytes, Writes vcc bytes) :
    ∃ stored', stored.processQueues vccs = (stored', .ok ()) := by
  induction vccs generalizing stored with
  | nil => exact ⟨stored, rfl⟩
  | cons vcc vccs ih =>
      obtain ⟨⟨bytes, writes⟩, others⟩ := List.forall_mem_cons.1 written
      obtain ⟨stored', rest⟩ := @ih (stored.enqueue bytes) others
      exact ⟨stored', processQueues_cons_eq_ok.2 ⟨bytes, writes, rest⟩⟩

theorem writes_of_processQueues (queued : stored.processQueues vccs = (stored', .ok ())) :
    ∀ vcc ∈ vccs, ∃ bytes, Writes vcc bytes := by
  induction vccs generalizing stored with
  | nil => exact List.forall_mem_nil _
  | cons vcc vccs ih =>
      obtain ⟨bytes, writes, rest⟩ := processQueues_cons_eq_ok.1 queued
      exact List.forall_mem_cons.2 ⟨⟨bytes, writes⟩, ih rest⟩

/-- The rows are read again and processed in their order. -/
theorem applyQueued_eq (numbered : Numbered first rows stored.notificationQueue)
    (written : List.Forall₂ Writes vccs rows) :
    stored.applyQueued kaspa (List.range' first rows.length) =
      match processInOrder kaspa stored.tables vccs with
      | (tables', .ok ()) => .ok ⟨tables', ∅⟩
      | (_, .error fault) => .error (.processing fault) := by
  induction written generalizing stored first with
  | nil =>
      rw [List.length_nil, List.range'_zero, applyQueued, processInOrder]
      dsimp only
      rw [← numbered.eq_empty]
  | @cons vcc bytes vccs rows writes _ ih =>
      rw [List.length_cons, List.range'_succ, applyQueued, numbered.get_first]
      dsimp only
      rw [virtualChainChangesCodec.fromSlice_write writes, processInOrder, processChainChanges]
      dsimp only
      cases processChainChangesWtx kaspa stored.tables vcc with
      | error fault => rfl
      | ok tables =>
          exact @ih ⟨tables, stored.notificationQueue.erase first⟩ (first + 1) numbered.pop

theorem processQueueApplication_empty {tables : Db} :
    processQueueApplication kaspa ⟨tables, ∅⟩ = (⟨tables, ∅⟩, .ok ()) := rfl

/-- Fewer than `2 ^ 64` rows are all applied, in one transaction. -/
theorem processQueueApplication_eq (numbered : Numbered 1 rows stored.notificationQueue)
    (fits : rows.length < 2 ^ 64) (written : List.Forall₂ Writes vccs rows) :
    stored.processQueueApplication kaspa =
      match processInOrder kaspa stored.tables vccs with
      | (tables', .ok ()) => (⟨tables', ∅⟩, .ok ())
      | (_, .error fault) => (stored, .error (.processing fault)) := by
  have applied := @applyQueued_eq kaspa _ _ _ _ numbered written
  cases rows with
  | nil =>
      cases written
      have empty : stored = ⟨stored.tables, ∅⟩ := by rw [← numbered.eq_empty]
      rw [empty, processQueueApplication_empty]
      rfl
  | cons row rows =>
      rw [processQueueApplication, lastKey_of_numbered numbered, numbered.firstKey]
      dsimp only [Option.getD_some]
      have nonempty : 1 * (row :: rows).length % 2 ^ 64 ≠ 0 := by
        rw [List.length_cons] at fits ⊢
        omega
      rw [if_neg nonempty, Nat.add_sub_cancel, applied]
      rcases processInOrder kaspa stored.tables vccs with ⟨tables, fault | done⟩
      · rfl
      · rfl

/-! Behind the last key of a `u64` comes zero. -/

/-- The row of the key zero is there, and the row of the last key. -/
structure Wrapped (stored : StoredDb) : Prop where
  zero : (stored.notificationQueue.get 0).isSome
  last : stored.notificationQueue.lastKey = some u64Max

theorem Wrapped.enqueue (wrapped : stored.Wrapped) : (stored.enqueue bytes).Wrapped := by
  have next : wrappingAdd (stored.notificationQueue.lastKey.getD 0) 1 = 0 := by
    rw [wrapped.last]
    rfl
  obtain ⟨present, bound⟩ := lastKey_eq_some_iff.1 wrapped.last
  rw [StoredDb.enqueue, next]
  constructor
  case zero => simp
  case last =>
    rw [lastKey_eq_some_iff]
    constructor
    · rwa [get_insert_of_ne _ _ (by decide)]
    · intro key stored
      rw [get_insert] at stored
      split at stored
      · omega
      · exact bound key stored

theorem wrapped_enqueue (numbered : Numbered 1 rows stored.notificationQueue)
    (full : rows.length + 1 = 2 ^ 64) : (stored.enqueue bytes).Wrapped := by
  have next : wrappingAdd (stored.notificationQueue.lastKey.getD 0) 1 = 0 := by
    rw [lastKey_of_numbered numbered, wrappingAdd, full, Nat.mod_self]
  rw [StoredDb.enqueue, next]
  constructor
  case zero => simp
  case last =>
    rw [lastKey_eq_some_iff]
    constructor
    · rw [get_insert_of_ne _ _ (by decide), numbered.isSome_get_iff]
      unfold u64Max
      omega
    · intro key stored
      rw [get_insert] at stored
      split at stored
      · omega
      · have bounds := (numbered.isSome_get_iff key).1 stored
        unfold u64Max
        omega

theorem Wrapped.processQueues (wrapped : stored.Wrapped)
    (queued : stored.processQueues vccs = (stored', .ok ())) : stored'.Wrapped := by
  induction vccs generalizing stored with
  | nil =>
      cases queued
      exact wrapped
  | cons vcc vccs ih =>
      obtain ⟨bytes, _, rest⟩ := processQueues_cons_eq_ok.1 queued
      exact ih wrapped.enqueue rest

theorem wrapped_of_processQueues (numbered : Numbered 1 rows stored.notificationQueue)
    (fits : rows.length < 2 ^ 64) (many : 2 ^ 64 ≤ rows.length + vccs.length)
    (queued : stored.processQueues vccs = (stored', .ok ())) : stored'.Wrapped := by
  induction vccs generalizing stored rows with
  | nil =>
      rw [List.length_nil] at many
      omega
  | cons vcc vccs ih =>
      rw [List.length_cons] at many
      obtain ⟨bytes, _, rest⟩ := processQueues_cons_eq_ok.1 queued
      by_cases full : rows.length + 1 = 2 ^ 64
      · exact (wrapped_enqueue numbered full).processQueues rest
      · refine ih (numbered_enqueue numbered (by omega)) ?_ ?_ rest
        · rw [List.length_append, List.length_singleton]
          omega
        · rw [List.length_append, List.length_singleton]
          omega

theorem Wrapped.processQueueApplication (wrapped : stored.Wrapped) :
    stored.processQueueApplication kaspa = (stored, .ok ()) := by
  obtain ⟨bytes, found⟩ := Option.isSome_iff_exists.1 wrapped.zero
  have first : stored.notificationQueue.firstWhere (fun _ => true) = some (0, bytes) := by
    rw [firstWhere_eq_some_iff]
    exact ⟨found, rfl, fun key _ _ _ => Nat.zero_le key⟩
  rw [StoredDb.processQueueApplication, first]
  simp

end StoredDb

theorem not_queuedEqualsDirect {tables : Db} (many : 2 ^ 64 ≤ vccs.length)
    (written : ∀ vcc ∈ vccs, ∃ bytes, Writes vcc bytes) :
    ¬QueuedEqualsDirect kaspa tables vccs := by
  intro equal
  have start : Numbered 1 [] (⟨tables, ∅⟩ : StoredDb).notificationQueue := numbered_empty
  obtain ⟨stored, queued⟩ := @StoredDb.exists_processQueues ⟨tables, ∅⟩ _ written
  have wrapped := StoredDb.wrapped_of_processQueues start (by decide) (by simpa using many) queued
  have applied := equal stored queued
  rw [wrapped.processQueueApplication] at applied
  split at applied
  · cases applied
    have zero := wrapped.zero
    simp at zero
  · cases applied

/-- Queued equals direct exactly for the sequences whose keys fit, if all of them are stored. -/
theorem queuedEqualsDirect_iff {tables : Db} :
    QueuedEqualsDirect kaspa tables vccs ↔
      vccs.length < 2 ^ 64 ∨ ∃ vcc ∈ vccs, virtualChainChangesCodec.write vcc = none := by
  constructor
  · intro equal
    by_contra neither
    rw [not_or, not_lt] at neither
    refine not_queuedEqualsDirect neither.1 (fun vcc member => ?_) equal
    exact Option.ne_none_iff_exists'.1 fun refused => neither.2 ⟨vcc, member, refused⟩
  · intro condition stored queued
    cases condition with
    | inl fits =>
        have start : Numbered 1 [] (⟨tables, ∅⟩ : StoredDb).notificationQueue := numbered_empty
        obtain ⟨rows, written, sameTables, numbered⟩ :=
          StoredDb.numbered_of_processQueues start (by simpa using fits) queued
        rw [List.nil_append] at numbered
        have application := @StoredDb.processQueueApplication_eq kaspa _ _ _ numbered
          (by rwa [← written.length_eq]) written
        rwa [sameTables] at application
    | inr refused =>
        obtain ⟨vcc, member, refused⟩ := refused
        obtain ⟨bytes, writes⟩ := StoredDb.writes_of_processQueues queued vcc member
        rw [Writes, refused] at writes
        cases writes

/-- With `2 ^ 64` notifications the last key is followed by zero, and the queue is left alone. -/
theorem not_queuedEqualsDirect_full :
    ¬QueuedEqualsDirect Sample.kaspa .new (List.replicate (2 ^ 64) ⟨[], none, []⟩) := by
  refine not_queuedEqualsDirect (by rw [List.length_replicate]) fun vcc member => ?_
  rw [List.eq_of_mem_replicate member]
  exact ⟨_, rfl⟩

/-! The typed queue of the ingest threads. -/

/-- The rows of the typed queue are what the stored ones are read as. -/
structure StoredDb.Shows (stored : StoredDb) (db : Db) : Prop where
  tables : db = stored.tables.withQueue db.notificationQueue
  rows : ∀ key, Option.Rel (fun bytes vcc => virtualChainChangesCodec.fromSlice bytes = some vcc)
    (stored.notificationQueue.get key) (db.notificationQueue.get key)

/-- Two results of the loop agree. -/
def StoredDb.SameOutcome : Except QueueError StoredDb → Except Fault Db → Prop
  | .ok stored, .ok db => stored.Shows db
  | .error error, .error fault => error = .processing fault
  | _, _ => False

namespace StoredDb.Shows

variable {db : Db}

theorem isSome_get (shown : stored.Shows db) (key : ℕ) :
    (stored.notificationQueue.get key).isSome = (db.notificationQueue.get key).isSome := by
  have related := shown.rows key
  revert related
  generalize stored.notificationQueue.get key = bytes, db.notificationQueue.get key = vcc
  rintro (⟨_⟩ | _) <;> rfl

theorem processQueue (shown : stored.Shows db)
    (queued : stored.processQueue vcc = (stored', .ok ())) :
    stored'.Shows (Krc721.processQueue db vcc) := by
  unfold StoredDb.processQueue at queued
  split at queued
  · cases queued
  · rename_i bytes writes
    cases queued
    constructor
    case tables =>
      rw [Krc721.processQueue, shown.tables]
      rfl
    case rows =>
      intro key
      simp only [Krc721.processQueue, enqueue, get_insert, lastKey_congr shown.isSome_get]
      split
      · exact .some (virtualChainChangesCodec.fromSlice_write writes)
      · exact shown.rows key

theorem erase (shown : stored.Shows db) {tables : Db} {key : ℕ} :
    (⟨tables, stored.notificationQueue.erase key⟩ : StoredDb).Shows
      (tables.withQueue (db.notificationQueue.erase key)) := by
  constructor
  case tables => rfl
  case rows =>
    intro other
    simp only [get_erase]
    split
    · exact .none
    · exact shown.rows other

theorem applyQueued (shown : stored.Shows db) (keys : List ℕ) :
    SameOutcome (stored.applyQueued kaspa keys) (Krc721.applyQueued kaspa db keys) := by
  induction keys generalizing stored db with
  | nil => exact shown
  | cons key keys ih =>
      have related := shown.rows key
      rw [StoredDb.applyQueued, Krc721.applyQueued]
      cases row : stored.notificationQueue.get key with
      | none =>
          rw [row] at related
          cases typed : db.notificationQueue.get key with
          | none => rfl
          | some vcc =>
              rw [typed] at related
              cases related
      | some bytes =>
          rw [row] at related
          cases typed : db.notificationQueue.get key with
          | none =>
              rw [typed] at related
              cases related
          | some vcc =>
              rw [typed] at related
              cases related with
              | some reads =>
                  have requeued : { db with notificationQueue := db.notificationQueue.erase key } =
                      stored.tables.withQueue (db.notificationQueue.erase key) := by
                    rw [shown.tables]
                  dsimp only
                  rw [reads, requeued, processChainChangesWtx_withQueue]
                  dsimp only
                  cases processChainChangesWtx kaspa stored.tables vcc with
                  | error fault => rfl
                  | ok tables => exact ih shown.erase

theorem processQueueApplication (shown : stored.Shows db) :
    (stored.processQueueApplication kaspa).1.Shows (Krc721.processQueueApplication kaspa db).1 ∧
      (stored.processQueueApplication kaspa).2 =
        (Krc721.processQueueApplication kaspa db).2.mapError .processing := by
  rw [StoredDb.processQueueApplication, Krc721.processQueueApplication,
    lastKey_congr shown.isSome_get, firstKey_congr shown.isSome_get]
  split
  · exact ⟨shown, rfl⟩
  · have outcome := @applyQueued kaspa _ _ shown (List.range'
      (((db.notificationQueue.firstWhere fun _ => true).map Prod.fst).getD 0)
      (db.notificationQueue.lastKey.getD 0 + 1 -
        ((db.notificationQueue.firstWhere fun _ => true).map Prod.fst).getD 0))
    revert outcome
    generalize stored.applyQueued kaspa _ = left, Krc721.applyQueued kaspa db _ = right
    intro outcome
    cases left with
    | error error =>
        cases right with
        | error fault => exact ⟨shown, congrArg _ outcome⟩
        | ok db' => cases outcome
    | ok stored' =>
        cases right with
        | error fault => cases outcome
        | ok db' => exact ⟨outcome, rfl⟩

end StoredDb.Shows

end

end Krc721
