import Krc721.Snapshot.RoundTrip

/-! What the hash in the header of an archive commits to: the compressed data, one chunk behind the
other. The table of the partitions, the ids of the chunks and the places where they are cut are read
from the file as they stand. -/

set_option autoImplicit false

namespace Krc721.Snapshot

open Borsh

section

/-- The parts of an archive that `restore` reads. -/
def readArchive (file : Bytes) : Option (Header × PartitionTable × List Deflated) :=
  (headerCodec.read file).bind fun header =>
    (partitionTableCodec.read (file.drop header.1.offset)).bind fun table =>
      (readItems deflatedCodec header.1.chunks table.2).map fun chunks =>
        (header.1, table.1, chunks.1)

/-- The entries of the partition table of an archive. -/
def tableIn (file : Bytes) : List (PartitionId × String) :=
  ((readArchive file).map fun parts => parts.2.1.partitions).getD []

def chunksIn (file : Bytes) : List Deflated :=
  ((readArchive file).map fun parts => parts.2.2).getD []

def dataIn (file : Bytes) : Bytes := hashedData (chunksIn file)

/-- The ids of the chunks and their lengths, which tell where the data is cut. -/
def layoutOf (chunks : List Deflated) : List (PartitionId × ℕ) :=
  chunks.map fun deflated => (deflated.partitionId, deflated.data.length)

/-- The records of the chunks, inserted by their ids. -/
def insertChunks (crates : Crates) (map : OrderedStore.Partition PartitionId String) :
    List Deflated → Database → Option Database
  | [], database => some database
  | deflated :: chunks, database =>
      (deflated.inflate crates).bind fun chunk => (map.get chunk.partitionId).bind fun name =>
        insertChunks crates map chunks
          (chunk.records.foldl (fun database record => database.insertRecord name record) database)

variable {crates : Crates} {file file' : Bytes} {header header' : Header}
variable {database database' : Database}

theorem parts_of_restoreChunks {map : OrderedStore.Partition PartitionId String} {count : ℕ}
    {hashed hashed' : Bytes}
    (restored : restoreChunks crates map count file database hashed = .ok (database', hashed')) :
    ∃ chunks rest, readItems deflatedCodec count file = some (chunks, rest) ∧
      insertChunks crates map chunks database = some database' ∧
      hashed' = hashed ++ hashedData chunks := by
  induction count generalizing file database hashed with
  | zero =>
      cases restored
      exact ⟨[], file, rfl, rfl, (List.append_nil _).symm⟩
  | succ count ih =>
      rw [restoreChunks] at restored
      split at restored
      · cases restored
      · rename_i deflated rest read
        split at restored
        · cases restored
        · rename_i partitionId records inflated
          split at restored
          · cases restored
          · rename_i name mapped
            obtain ⟨chunks, last, reads, inserts, rfl⟩ := ih restored
            refine ⟨deflated :: chunks, last, ?_, ?_, ?_⟩
            · rw [readItems, read, Option.bind_some, reads, Option.map_some]
            · rw [insertChunks, inflated, Option.bind_some, mapped, Option.bind_some, inserts]
            · exact List.append_assoc _ _ _

/-- What `restore` returns depends on the table and the chunks; the hash of the header is the one of
their data. -/
theorem parts_of_restore (restored : restore crates file = .ok (header, database)) :
    insertChunks crates (partitionMap (tableIn file)) (chunksIn file)
        (openPartitions (tableIn file)) = some database ∧
      crates.sha256 (dataIn file) = header.hash := by
  rw [restore] at restored
  split at restored
  · cases restored
  · rename_i first _ readHeader
    split at restored
    · cases restored
    · split at restored
      · cases restored
      · rename_i table rest readTable
        split at restored
        · cases restored
        · rename_i last hashed inserted
          split at restored
          · cases restored
          · rename_i matching
            cases restored
            obtain ⟨chunks, _, reads, inserts, rfl⟩ := parts_of_restoreChunks inserted
            have parts : readArchive file = some (header, table, chunks) := by
              rw [readArchive, readHeader, Option.bind_some, readTable, Option.bind_some, reads,
                Option.map_some]
            simp only [tableIn, dataIn, chunksIn, parts, Option.map_some, Option.getD_some]
            exact ⟨inserts, not_not.1 matching⟩

/-- The data of chunks and their layout determine them. -/
theorem chunks_eq_of_layout {chunks chunks' : List Deflated}
    (sameData : hashedData chunks = hashedData chunks')
    (sameLayout : layoutOf chunks = layoutOf chunks') : chunks = chunks' := by
  induction chunks generalizing chunks' with
  | nil => exact (List.map_eq_nil_iff.1 sameLayout.symm).symm
  | cons deflated chunks ih =>
      cases chunks' with
      | nil => cases sameLayout
      | cons deflated' chunks' =>
          obtain ⟨first, sameLayout⟩ := List.cons.inj sameLayout
          obtain ⟨sameId, sameLength⟩ := Prod.mk.inj first
          obtain ⟨sameFirst, sameRest⟩ := List.append_inj sameData sameLength
          have same : deflated = deflated' := Deflated.ext sameId sameFirst
          rw [same, ih sameRest sameLayout]

/-- The hash has no collision at the data of two files. -/
def NoCollision (crates : Crates) (file file' : Bytes) : Prop :=
  crates.sha256 (dataIn file) = crates.sha256 (dataIn file') → dataIn file = dataIn file'

/-- Archives with the same hash in their headers hold the same data. If their tables and the layouts
of their chunks are the same as well, they restore to the same database. -/
theorem restored_eq_of_hash (noCollision : NoCollision crates file file')
    (restored : restore crates file = .ok (header, database))
    (restored' : restore crates file' = .ok (header', database'))
    (sameHash : header.hash = header'.hash) :
    dataIn file = dataIn file' ∧
      (tableIn file = tableIn file' → layoutOf (chunksIn file) = layoutOf (chunksIn file') →
        database = database') := by
  obtain ⟨inserts, hashes⟩ := parts_of_restore restored
  obtain ⟨inserts', hashes'⟩ := parts_of_restore restored'
  have sameData : dataIn file = dataIn file' :=
    noCollision (hashes.trans (sameHash.trans hashes'.symm))
  refine ⟨sameData, fun sameTable sameLayout => ?_⟩
  rw [sameTable, chunks_eq_of_layout sameData sameLayout, inserts'] at inserts
  exact (Option.some.inj inserts).symm

end

/-! Archives with one hash. -/

namespace Sample

/-- An archive of chunks behind a table. -/
def pack (version : UInt 8) (partitions : List (PartitionId × String)) (chunks : List Deflated) :
    Bytes :=
  let header : Header := {
    version
    chunks := Fin.ofNat _ chunks.length
    hash := crates.sha256 (hashedData chunks) }
  (headerCodec.write header).getD [] ++ List.replicate 64 0 ++
    ((partitionTableCodec.write ⟨1, partitions⟩).getD [] ++
      (writeItems deflatedCodec chunks).getD [])

def table : List (PartitionId × String) := [(0, "transactions"), (1, "listings")]

def chunk : Deflated := ⟨0, deflated⟩

def packed : Bytes := pack 1 table [chunk]

/-- The same archive, of a later version. -/
def packedLater : Bytes := pack 2 table [chunk]

def renamed : Bytes := pack 1 [(0, "owners"), (1, "listings")] [chunk]

def moved : Bytes := pack 1 table [⟨1, deflated⟩]

/-- The same record in both partitions. -/
def doubled : Bytes := pack 1 table [chunk, ⟨1, deflated⟩]

/-- The two chunks in one, of which the second half is ignored. -/
def merged : Bytes := pack 1 table [⟨0, deflated ++ deflated⟩]

/-- The rows of a partition of an archive that restores, and the hash of its header. -/
def outcome (file : Bytes) (name : String) : Option (Hash × Option (List (Bytes × Bytes))) :=
  match restore crates file with
  | .ok (header, database) =>
      some (header.hash, (database.get name).map OrderedStore.Partition.entries)
  | .error _ => none

theorem outcome_eq_some {file : Bytes} {name : String} {hash : Hash}
    {rows : Option (List (Bytes × Bytes))} (found : outcome file name = some (hash, rows)) :
    ∃ header database, restore crates file = .ok (header, database) ∧ header.hash = hash ∧
      (database.get name).map OrderedStore.Partition.entries = rows := by
  rw [outcome] at found
  split at found
  · rename_i header database restored
    cases found
    exact ⟨header, database, restored, rfl, rfl⟩
  · cases found

end Sample

/-- The version of an archive changes nothing. -/
theorem restored_eq_of_hash_packed : Sample.packed ≠ Sample.packedLater ∧
    ∃ header header' database, restore Sample.crates Sample.packed = .ok (header, database) ∧
      restore Sample.crates Sample.packedLater = .ok (header', database) := by
  obtain ⟨header, database, restored, sameHash, _⟩ := @Sample.outcome_eq_some Sample.packed
    "transactions" (Sample.crates.sha256 Sample.deflated) (some [Sample.record.row])
    (by decide +kernel)
  obtain ⟨header', database', restored', sameHash', _⟩ := @Sample.outcome_eq_some
    Sample.packedLater "transactions" (Sample.crates.sha256 Sample.deflated)
    (some [Sample.record.row]) (by decide +kernel)
  have sameData : dataIn Sample.packed = dataIn Sample.packedLater := by decide +kernel
  obtain ⟨_, same⟩ := restored_eq_of_hash (fun _ => sameData) restored restored'
    (sameHash.trans sameHash'.symm)
  obtain rfl := same (by decide +kernel) (by decide +kernel)
  exact ⟨by decide +kernel, header, header', database, restored, restored'⟩

/-- Two archives that restore under one hash restore to one database. -/
def HashCommits (crates : Crates) (file file' : Bytes) : Prop :=
  NoCollision crates file file' → ∀ header header' database database',
    restore crates file = .ok (header, database) →
      restore crates file' = .ok (header', database') → header.hash = header'.hash →
        database = database'

namespace Sample

theorem not_hashCommits {file file' : Bytes} {name : String} {hash : Hash}
    {rows rows' : Option (List (Bytes × Bytes))} (sameData : dataIn file = dataIn file')
    (found : outcome file name = some (hash, rows))
    (found' : outcome file' name = some (hash, rows')) (different : rows ≠ rows') :
    ¬ HashCommits crates file file' := by
  intro commits
  obtain ⟨header, database, restored, rfl, rfl⟩ := outcome_eq_some found
  obtain ⟨header', database', restored', sameHash, rfl⟩ := outcome_eq_some found'
  have same := commits (fun _ => sameData) header header' database database' restored restored'
    sameHash.symm
  exact different (by rw [same])

end Sample

/-- The hash does not commit to the names of the table, to the ids of the chunks, or to where they
are cut. -/
theorem not_hashCommits_packed : ¬ HashCommits Sample.crates Sample.packed Sample.renamed ∧
    ¬ HashCommits Sample.crates Sample.packed Sample.moved ∧
    ¬ HashCommits Sample.crates Sample.doubled Sample.merged := by
  refine ⟨?_, ?_, ?_⟩
  · exact @Sample.not_hashCommits _ _ "owners" (Sample.crates.sha256 Sample.deflated) none
      (some [Sample.record.row]) (by decide +kernel) (by decide +kernel) (by decide +kernel)
      (by decide)
  · exact @Sample.not_hashCommits _ _ "listings" (Sample.crates.sha256 Sample.deflated) (some [])
      (some [Sample.record.row]) (by decide +kernel) (by decide +kernel) (by decide +kernel)
      (by decide)
  · exact @Sample.not_hashCommits _ _ "listings"
      (Sample.crates.sha256 (Sample.deflated ++ Sample.deflated)) (some [Sample.record.row])
      (some []) (by decide +kernel) (by decide +kernel) (by decide +kernel) (by decide)

end Krc721.Snapshot
