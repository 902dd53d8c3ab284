import Krc721.Snapshot.Format
import Krc721.Store.Fill
import Krc721.Transition.Reach

/-! Archiving and restoring. Partitions are cut into chunks, the chunks are compressed by tasks
that complete in any order and are written in the order of their start; the header is written
last, over the space that was left for it. -/

set_option autoImplicit false

namespace Krc721.Snapshot

open Borsh

abbrev Contents : Type := OrderedStore.Partition Bytes Bytes

/-- `db::Snapshot`, a partition at one instant. -/
structure DbSnapshot where
  name : String
  contents : Contents

/-- A partition that is archived, with the records that its iterator still has. -/
structure Partition where
  id : PartitionId
  name : String
  iter : List Record

inductive Error where
  | custom (text : String)
  | fsIo
deriving DecidableEq

def contextFromSnapshots (skipPartitions : Option (List String)) (snapshots : List DbSnapshot) :
    List Partition :=
  (snapshots.filter fun snapshot =>
    !((skipPartitions.map fun list => list.contains snapshot.name).getD false)).zipIdx.map
      fun (snapshot, id) => {
        id := Fin.ofNat _ id
        name := snapshot.name
        iter := snapshot.contents.entries.map fun entry => ⟨entry.1, entry.2⟩ }

def PartitionTable.tryFrom (partitions : List Partition) : Except Error PartitionTable :=
  if partitions.isEmpty then .error (.custom "No partitions in database")
  else .ok {
    version := 1
    partitions := partitions.map fun partition => (partition.id, partition.name) }

/-! Chunks. -/

/-- The records that `Inflated::fill` takes, and the ones it leaves. -/
def takeRecords (chunkSize : ℕ) : ℕ → List Record → List Record × List Record
  | _, [] => ([], [])
  | size, record :: iter =>
      if chunkSize < size + record.len then ([record], iter)
      else
        let (records, iter) := takeRecords chunkSize (size + record.len) iter
        (record :: records, iter)

/-- `Inflated::fill`, which moves the iterator of the partition. -/
def Inflated.fill (partition : Partition) (chunkSize : ℕ) : Option Inflated × Partition :=
  let (records, iter) := takeRecords chunkSize 0 partition.iter
  (if records.isEmpty then none else some ⟨partition.id, records⟩, { partition with iter })

/-- The next chunk of `DatabaseIngest`; a partition without one is popped. -/
def ingestNext (chunkSize : ℕ) : List Partition → Option (Inflated × List Partition)
  | [] => none
  | partition :: partitions =>
      match Inflated.fill partition chunkSize with
      | (some chunk, partition) => some (chunk, partition :: partitions)
      | (none, _) => ingestNext chunkSize partitions

/-! The loop of `archive_from_context`. -/

structure Task where
  chunk : Inflated
  completed : Bool

structure Archiving where
  ingest : List Partition
  pendingTasks : List Task
  archiveFile : Bytes
  hashed : Bytes
  chunks : ℕ
  failed : Bool

inductive ArchiveAction where
  | ingest
  | complete (index : ℕ)
  | write

/-- Start a task, complete one, or wait for the first one and write it. Nothing follows a
failure. -/
def archiveStep (crates : Crates) (chunkSize workerCount : ℕ) (state : Archiving)
    (action : ArchiveAction) : Option Archiving :=
  if state.failed then none
  else
    match action with
    | .ingest =>
        if state.pendingTasks.length < workerCount then
          (ingestNext chunkSize state.ingest).map fun next =>
            { state with
              ingest := next.2
              pendingTasks := state.pendingTasks ++ [⟨next.1, false⟩]
              chunks := state.chunks + 1 }
        else none
    | .complete index =>
        match state.pendingTasks[index]? with
        | some ⟨chunk, false⟩ =>
            some { state with pendingTasks := state.pendingTasks.set index ⟨chunk, true⟩ }
        | _ => none
    | .write =>
        if state.pendingTasks.length < workerCount ∧ (ingestNext chunkSize state.ingest).isSome then
          none
        else
          match state.pendingTasks with
          | ⟨chunk, true⟩ :: pendingTasks =>
              match chunk.deflate crates with
              | none => some { state with failed := true }
              | some deflated =>
                  match deflatedCodec.write deflated with
                  | none => some { state with failed := true }
                  | some bytes =>
                      some { state with
                        pendingTasks
                        archiveFile := state.archiveFile ++ bytes
                        hashed := state.hashed ++ deflated.data }
          | _ => none

/-- The file after the table, in front of the loop. -/
def Archiving.start (partitions : List Partition) (table : Bytes) : Archiving where
  ingest := partitions
  pendingTasks := []
  archiveFile := List.replicate DATA_OFFSET 0 ++ table
  hashed := []
  chunks := 0
  failed := false

/-- The loop has ended. -/
def Archiving.Finished (chunkSize : ℕ) (state : Archiving) : Prop :=
  state.failed = false ∧ state.pendingTasks = [] ∧ ingestNext chunkSize state.ingest = none

/-- Writing at the start of a file. -/
def overwrite (file bytes : Bytes) : Bytes := bytes ++ file.drop bytes.length

/-- The header of a finished archive. -/
def Archiving.header (crates : Crates) (state : Archiving) : Header :=
  { chunks := Fin.ofNat _ state.chunks, hash := crates.sha256 state.hashed }

def Archiving.archive (crates : Crates) (state : Archiving) : Bytes :=
  overwrite state.archiveFile ((headerCodec.write (state.header crates)).getD [])

/-- The files that `archive_from_context` can leave. -/
def Archives (crates : Crates) (chunkSize workerCount : ℕ) (partitions : List Partition)
    (file : Bytes) : Prop :=
  ∃ partitionTable table state, PartitionTable.tryFrom partitions = .ok partitionTable ∧
    partitionTableCodec.write partitionTable = some table ∧
    Transition.Reach (archiveStep crates chunkSize workerCount) (fun _ _ => True)
      (.start partitions table) state ∧
    state.Finished chunkSize ∧ file = state.archive crates

/-! Restoring. -/

abbrev Database : Type := OrderedStore.Partition String Contents

/-- `open_partition` on every partition of the table. -/
def openPartitions (partitions : List (PartitionId × String)) : Database :=
  OrderedStore.Partition.insertAll ∅ (partitions.map fun entry => (entry.2, ∅))

def partitionMap (partitions : List (PartitionId × String)) :
    OrderedStore.Partition PartitionId String :=
  OrderedStore.Partition.insertAll ∅ partitions

/-- Insert a record into a partition. -/
def Database.insertRecord (database : Database) (name : String) (record : Record) : Database :=
  database.insert name (((database.get name).getD ∅).insert record.k record.v)

/-- The loop of `restore` over the chunks, with the bytes that are hashed. -/
def restoreChunks (crates : Crates) (map : OrderedStore.Partition PartitionId String) :
    ℕ → Bytes → Database → Bytes → Except Error (Database × Bytes)
  | 0, _, database, hashed => .ok (database, hashed)
  | chunks + 1, file, database, hashed =>
      match deflatedCodec.read file with
      | none => .error .fsIo
      | some (deflated, file) =>
          match deflated.inflate crates with
          | none => .error .fsIo
          | some ⟨partitionId, records⟩ =>
              match map.get partitionId with
              | none => .error (.custom "Invalid partition id")
              | some name =>
                  restoreChunks crates map chunks file
                    (records.foldl (fun database record => database.insertRecord name record)
                      database) (hashed ++ deflated.data)

/-- `restore` into a new database. -/
def restore (crates : Crates) (file : Bytes) : Except Error (Header × Database) :=
  match headerCodec.read file with
  | none => .error .fsIo
  | some (header, _) =>
      if header.magic ≠ HEADER_MAGIC then .error (.custom "Invalid archive file")
      else
        match partitionTableCodec.read (file.drop header.offset) with
        | none => .error .fsIo
        | some (table, rest) =>
            match restoreChunks crates (partitionMap table.partitions) header.chunks rest
                (openPartitions table.partitions) [] with
            | .error error => .error error
            | .ok (database, hashed) =>
                if crates.sha256 hashed ≠ header.hash then
                  .error (.custom "Invalid archive file")
                else .ok (header, database)

end Krc721.Snapshot
