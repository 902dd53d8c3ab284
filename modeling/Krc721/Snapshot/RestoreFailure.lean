import Krc721.Snapshot.Integrity

/-! What a restore that fails leaves at the place of the database. The keyspace is created before
the first chunk is read, and nothing removes it when a later step fails. -/

set_option autoImplicit false

namespace Krc721.Snapshot

open Borsh OrderedStore

/-- The databases and the plain files, by their paths. -/
structure Folders where
  databases : OrderedStore.Partition String Database := ∅
  files : OrderedStore.Partition String Bytes := ∅

def Folders.exists (folders : Folders) (path : String) : Bool :=
  (folders.databases.get path).isSome || (folders.files.get path).isSome

/-- The settings of a `Snapshot` that `restore` reads. -/
structure Deployment where
  databaseRoot : Option String
  archiveFilename : Option String

/-- What `restore` reads before it opens the keyspace: the header, the table and what follows it. -/
def readFront (file : Bytes) : Except Error (Header × PartitionTable × Bytes) :=
  match headerCodec.read file with
  | none => .error .fsIo
  | some (header, _) =>
      if header.magic ≠ HEADER_MAGIC then .error (.custom "Invalid archive file")
      else
        match partitionTableCodec.read (file.drop header.offset) with
        | none => .error .fsIo
        | some (table, rest) => .ok (header, table, rest)

section

variable (crates : Crates) (refusal : String → Option Error)

/-- `open_partition` on the partitions of the table; `refusal` is the error for a name that the
store does not take. -/
def openEach : List (PartitionId × String) → Database → Except Error Unit × Database
  | [], database => (.ok (), database)
  | (_, name) :: partitions, database =>
      match refusal name with
      | some error => (.error error, database)
      | none => openEach partitions (database.insert name ((database.get name).getD ∅))

/-- The loop over the chunks, with the bytes that are hashed and the database as it then is. -/
def insertEach (map : OrderedStore.Partition PartitionId String) :
    ℕ → Bytes → Bytes → Database → Except Error Bytes × Database
  | 0, _, hashed, database => (.ok hashed, database)
  | chunks + 1, file, hashed, database =>
      match deflatedCodec.read file with
      | none => (.error .fsIo, database)
      | some (deflated, file) =>
          match deflated.inflate crates with
          | none => (.error .fsIo, database)
          | some ⟨partitionId, records⟩ =>
              match map.get partitionId with
              | none => (.error (.custom "Invalid partition id"), database)
              | some name =>
                  insertEach map chunks file (hashed ++ deflated.data)
                    (records.foldl (fun database record => database.insertRecord name record)
                      database)

/-- What `restore` does from the opening of the keyspace on. -/
def restoreKeyspace (header : Header) (table : PartitionTable) (file : Bytes) :
    Except Error Header × Database :=
  match openEach refusal table.partitions ∅ with
  | (.error error, database) => (.error error, database)
  | (.ok (), database) =>
      match insertEach crates (partitionMap table.partitions) header.chunks file [] database with
      | (.error error, database) => (.error error, database)
      | (.ok hashed, database) =>
          if crates.sha256 hashed ≠ header.hash then
            (.error (.custom "Invalid archive file"), database)
          else (.ok header, database)

/-- `restore`, with what it leaves on the disk. -/
def Deployment.restore (deployment : Deployment) (folders : Folders) :
    Except Error Header × Folders :=
  match deployment.databaseRoot with
  | none => (.error (.custom "Please specify database filename"), folders)
  | some databaseRoot =>
      if folders.exists databaseRoot then
        (.error (.custom
          "Database already exists, please remove it before restoring an archive."), folders)
      else
        match deployment.archiveFilename with
        | none => (.error (.custom "Please specify archive filename"), folders)
        | some archiveFilename =>
            if !folders.exists archiveFilename then
              (.error (.custom "Unable to locate archive file at `{archive_filename}`"), folders)
            else
              match folders.files.get archiveFilename with
              | none => (.error .fsIo, folders)
              | some file =>
                  match readFront file with
                  | .error error => (.error error, folders)
                  | .ok (header, table, rest) =>
                      let (result, database) := restoreKeyspace crates refusal header table rest
                      (result, { folders with
                        databases := folders.databases.insert databaseRoot database })

/-- The archive is complete: the store takes the names of its table, its chunks can be read and
inflated, they name partitions of the table, and the hash is the one of their data. -/
structure Intact (header : Header) (table : PartitionTable) (file : Bytes) : Prop where
  accepted : ∀ entry ∈ table.partitions, refusal entry.2 = none
  complete : ∃ chunks rest, readItems deflatedCodec header.chunks file = some (chunks, rest) ∧
    (∀ deflated ∈ chunks, (deflated.inflate crates).isSome ∧
      deflated.partitionId ∈ table.partitions.map Prod.fst) ∧
    crates.sha256 (hashedData chunks) = header.hash

end

/-- The restore gets as far as the keyspace: the place is free, and the header and the table of the
archive can be read. -/
structure Deployment.Opens (deployment : Deployment) (folders : Folders) (header : Header)
    (table : PartitionTable) (rest : Bytes) : Prop where
  free : ∀ root, deployment.databaseRoot = some root → folders.exists root = false
  front : ∃ archiveFilename file, deployment.archiveFilename = some archiveFilename ∧
    folders.files.get archiveFilename = some file ∧ readFront file = .ok (header, table, rest)

section

variable {crates : Crates} {refusal : String → Option Error}
variable {map : OrderedStore.Partition PartitionId String} {header : Header}
variable {table : PartitionTable} {count : ℕ} {file rest hashed hashed' : Bytes}
variable {database : Database} {deployment : Deployment} {folders : Folders} {root : String}

theorem Deflated.inflate_partitionId {deflated : Deflated} {chunk : Inflated}
    (inflated : deflated.inflate crates = some chunk) :
    chunk.partitionId = deflated.partitionId := by
  obtain ⟨data, _, built⟩ := Option.bind_eq_some_iff.1 inflated
  obtain ⟨records, _, rfl⟩ := Option.map_eq_some_iff.1 built
  rfl

/-- The partitions are opened if the store takes every name. -/
theorem openEach_eq_ok_iff {partitions : List (PartitionId × String)} :
    (openEach refusal partitions database).1 = .ok () ↔
      ∀ entry ∈ partitions, refusal entry.2 = none := by
  induction partitions generalizing database with
  | nil => simp [openEach]
  | cons entry partitions ih =>
      obtain ⟨id, name⟩ := entry
      rw [openEach, List.forall_mem_cons]
      cases refused : refusal name with
      | none => simp [ih]
      | some error => simp

/-- The loop ends if every chunk can be read and inflated and has a partition. -/
theorem insertEach_eq_ok_iff :
    (insertEach crates map count file hashed database).1 = .ok hashed' ↔
      ∃ chunks rest, readItems deflatedCodec count file = some (chunks, rest) ∧
        (∀ deflated ∈ chunks, (deflated.inflate crates).isSome ∧
          (map.get deflated.partitionId).isSome) ∧
        hashed' = hashed ++ hashedData chunks := by
  induction count generalizing file hashed database with
  | zero =>
      constructor
      · intro ended
        cases ended
        exact ⟨[], file, rfl, fun _ member => absurd member List.not_mem_nil,
          (List.append_nil _).symm⟩
      · rintro ⟨chunks, rest, reads, -, rfl⟩
        cases reads
        rw [insertEach]
        exact congrArg Except.ok (List.append_nil hashed).symm
  | succ count ih =>
      rw [insertEach, readItems]
      cases read : deflatedCodec.read file with
      | none =>
          refine iff_of_false (by simp) ?_
          rintro ⟨chunks, rest, reads, -⟩
          cases reads
      | some first =>
          obtain ⟨deflated, file⟩ := first
          -- The chunk at hand is one of the chunks that are read.
          have atHand : (∃ chunks rest, (readItems deflatedCodec count file).map
              (fun others => (deflated :: others.1, others.2)) = some (chunks, rest) ∧
                (∀ deflated ∈ chunks, (deflated.inflate crates).isSome ∧
                  (map.get deflated.partitionId).isSome) ∧
                hashed' = hashed ++ hashedData chunks) ↔
              ((deflated.inflate crates).isSome ∧ (map.get deflated.partitionId).isSome) ∧
                ∃ chunks rest, readItems deflatedCodec count file = some (chunks, rest) ∧
                  (∀ deflated ∈ chunks, (deflated.inflate crates).isSome ∧
                    (map.get deflated.partitionId).isSome) ∧
                  hashed' = hashed ++ deflated.data ++ hashedData chunks := by
            constructor
            · rintro ⟨chunks, rest, reads, complete, rfl⟩
              obtain ⟨⟨others, rest'⟩, readOthers, built⟩ := Option.map_eq_some_iff.1 reads
              cases built
              obtain ⟨first, complete⟩ := List.forall_mem_cons.1 complete
              exact ⟨first, others, rest', readOthers, complete,
                (List.append_assoc _ _ _).symm⟩
            · rintro ⟨first, chunks, rest, reads, complete, rfl⟩
              exact ⟨deflated :: chunks, rest, by rw [reads, Option.map_some],
                List.forall_mem_cons.2 ⟨first, complete⟩, List.append_assoc _ _ _⟩
          rw [Option.bind_some, atHand]
          dsimp only
          cases inflated : deflated.inflate crates with
          | none => exact iff_of_false (by simp) fun whole => Bool.noConfusion whole.1.1
          | some chunk =>
              have sameId := Deflated.inflate_partitionId inflated
              obtain ⟨partitionId, records⟩ := chunk
              obtain rfl : partitionId = deflated.partitionId := sameId
              dsimp only
              cases mapped : map.get deflated.partitionId with
              | none => exact iff_of_false (by simp) fun whole => Bool.noConfusion whole.1.2
              | some name =>
                  rw [ih]
                  exact (and_iff_right ⟨rfl, rfl⟩).symm

theorem isSome_get_partitionMap_iff {partitions : List (PartitionId × String)}
    {id : PartitionId} :
    ((partitionMap partitions).get id).isSome ↔ id ∈ partitions.map Prod.fst := by
  rw [partitionMap, Partition.isSome_get_insertAll_iff, List.mem_map]
  simp

/-- From the keyspace on, a restore succeeds if and only if the archive is complete. -/
theorem restoreKeyspace_eq_ok_iff {header' : Header} :
    (restoreKeyspace crates refusal header table file).1 = .ok header' ↔
      Intact crates refusal header table file ∧ header = header' := by
  have opened := @openEach_eq_ok_iff refusal ∅ table.partitions
  have inserted := fun hashed' database => @insertEach_eq_ok_iff crates
    (partitionMap table.partitions) header.chunks file [] hashed' database
  simp only [isSome_get_partitionMap_iff, List.nil_append] at inserted
  rw [restoreKeyspace]
  generalize openEach refusal table.partitions ∅ = outcome at opened ⊢
  obtain ⟨error | _, database⟩ := outcome
  case error =>
    refine iff_of_false nofun fun ⟨intact, _⟩ => ?_
    cases opened.2 intact.accepted
  case ok =>
    have accepted := opened.1 rfl
    have inserted := fun hashed' => inserted hashed' database
    dsimp only
    generalize insertEach crates (partitionMap table.partitions) header.chunks file [] database =
      outcome at inserted ⊢
    obtain ⟨error | hashed, database⟩ := outcome
    case error =>
      refine iff_of_false nofun fun ⟨intact, _⟩ => ?_
      obtain ⟨chunks, rest, reads, complete, -⟩ := intact.complete
      cases (inserted _).2 ⟨chunks, rest, reads, complete, rfl⟩
    case ok =>
      obtain ⟨chunks, rest, reads, complete, rfl⟩ := (inserted hashed).1 rfl
      dsimp only
      by_cases matching : crates.sha256 (hashedData chunks) = header.hash
      · rw [if_neg (not_not.2 matching)]
        have intact : Intact crates refusal header table file :=
          ⟨accepted, chunks, rest, reads, complete, matching⟩
        simp [intact]
      · rw [if_pos matching]
        refine iff_of_false nofun fun ⟨intact, _⟩ => matching ?_
        obtain ⟨chunks', rest', reads', -, matching'⟩ := intact.complete
        rw [reads] at reads'
        cases reads'
        exact matching'

/-- The opened partitions are the ones of the table if the store takes every name. -/
theorem openEach_eq {partitions : List (PartitionId × String)}
    (fresh : ∀ name contents, database.get name = some contents → contents = ∅) :
    openEach (fun _ => none) partitions database = (.ok (),
      database.insertAll (partitions.map fun entry => (entry.2, ∅))) := by
  induction partitions generalizing database with
  | nil => rfl
  | cons entry partitions ih =>
      obtain ⟨id, name⟩ := entry
      have empty : (database.get name).getD ∅ = ∅ := by
        cases found : database.get name with
        | none => rfl
        | some contents => exact fresh name contents found
      rw [openEach, List.map_cons, Partition.insertAll_cons]
      dsimp only
      rw [empty, ih]
      intro name' contents found
      rw [Partition.get_insert] at found
      split at found
      · exact (Option.some.inj found).symm
      · exact fresh name' contents found

theorem insertEach_eq : insertEach crates map count file hashed database =
    match restoreChunks crates map count file database hashed with
    | .ok (database', hashed') => (.ok hashed', database')
    | .error error => (.error error,
        (insertEach crates map count file hashed database).2) := by
  induction count generalizing file hashed database with
  | zero => rfl
  | succ count ih =>
      rw [insertEach, restoreChunks]
      cases deflatedCodec.read file with
      | none => rfl
      | some first =>
          dsimp only
          cases first.1.inflate crates with
          | none => rfl
          | some chunk =>
              dsimp only
              cases map.get chunk.partitionId with
              | none => rfl
              | some name => exact ih

/-- With a store that takes every name, a restore of the keyspace that succeeds has the database
that the chunks give. -/
theorem restoreKeyspace_eq_iff {header' : Header} :
    restoreKeyspace crates (fun _ => none) header table rest = (.ok header', database) ↔
      ∃ hashed, restoreChunks crates (partitionMap table.partitions) header.chunks rest
          (openPartitions table.partitions) [] = .ok (database, hashed) ∧
        crates.sha256 hashed = header.hash ∧ header = header' := by
  have opened : openEach (fun _ => none) table.partitions ∅ =
      (.ok (), openPartitions table.partitions) :=
    openEach_eq fun name contents found => by
      rw [Partition.get_empty] at found
      cases found
  rw [restoreKeyspace, opened]
  dsimp only
  rw [insertEach_eq]
  generalize restoreChunks crates (partitionMap table.partitions) header.chunks rest
    (openPartitions table.partitions) [] = outcome
  cases outcome with
  | error error => exact iff_of_false nofun nofun
  | ok inserted =>
      obtain ⟨database', hashed⟩ := inserted
      dsimp only
      by_cases matching : crates.sha256 hashed = header.hash
      · rw [if_neg (not_not.2 matching)]
        constructor
        · intro same
          cases same
          exact ⟨hashed, rfl, matching, rfl⟩
        · rintro ⟨hashed', same, -, rfl⟩
          cases same
          rfl
      · rw [if_pos matching]
        refine iff_of_false nofun ?_
        rintro ⟨hashed', same, matching', -⟩
        cases same
        exact matching matching'

/-- With a store that takes every name, the database that a restore leaves when it succeeds is the
one that the archive holds. -/
theorem restore_eq_ok_iff : restore crates file = .ok (header, database) ↔
    ∃ table rest, readFront file = .ok (header, table, rest) ∧
      restoreKeyspace crates (fun _ => none) header table rest = (.ok header, database) := by
  simp only [restoreKeyspace_eq_iff, and_true]
  rw [restore, readFront]
  cases headerCodec.read file with
  | none => simp
  | some first =>
      obtain ⟨header', more⟩ := first
      dsimp only
      split
      · simp
      · cases partitionTableCodec.read (file.drop header'.offset) with
        | none => simp
        | some second =>
            obtain ⟨table, rest⟩ := second
            dsimp only
            constructor
            · intro restored
              split at restored
              · cases restored
              · rename_i database' hashed inserted
                split at restored
                · cases restored
                · rename_i matching
                  cases restored
                  exact ⟨table, rest, rfl, hashed, inserted, not_not.1 matching⟩
            · rintro ⟨table', rest', front, hashed, inserted, matching⟩
              cases front
              rw [inserted]
              dsimp only
              rw [if_neg (not_not.2 matching)]

namespace Deployment

/-- A place that is taken stays as it is. -/
theorem restore_of_exists (place : deployment.databaseRoot = some root)
    (taken : folders.exists root = true) :
    deployment.restore crates refusal folders = (.error (.custom
      "Database already exists, please remove it before restoring an archive."), folders) := by
  rw [restore, place]
  dsimp only
  rw [if_pos taken]

/-- From the keyspace on, the database stays at its place, whatever the result is. -/
theorem restore_of_opens (place : deployment.databaseRoot = some root)
    (opens : deployment.Opens folders header table rest) :
    deployment.restore crates refusal folders =
      ((restoreKeyspace crates refusal header table rest).1, { folders with
        databases := folders.databases.insert root
          (restoreKeyspace crates refusal header table rest).2 }) := by
  obtain ⟨archiveFilename, file, archive, stored, front⟩ := opens.front
  have found : folders.exists archiveFilename = true := by
    rw [Folders.exists, stored, Option.isSome_some, Bool.or_true]
  rw [restore, place]
  dsimp only
  rw [if_neg (by rw [opens.free root place]; decide), archive]
  dsimp only
  rw [if_neg (by rw [found]; decide), stored]
  dsimp only
  rw [front]

/-- Before the keyspace, nothing has changed. -/
theorem restore_of_not_opens
    (never : ∀ header table rest, ¬ deployment.Opens folders header table rest) :
    (deployment.restore crates refusal folders).2 = folders := by
  rw [restore]
  split
  · rfl
  · rename_i databaseRoot place
    split
    · rfl
    · rename_i free
      split
      · rfl
      · rename_i archiveFilename archive
        split
        · rfl
        · split
          · rfl
          · rename_i file stored
            split
            · rfl
            · rename_i header table rest front
              refine absurd ⟨fun root place' => ?_, archiveFilename, file, archive, stored,
                front⟩ (never header table rest)
              rw [place] at place'
              cases place'
              exact Bool.not_eq_true _ ▸ free

end Deployment

end

/-- A restore that fails leaves no database if and only if the archive is complete or is refused
before the keyspace is opened. -/
theorem Deployment.restore_absent_iff (crates : Crates) (refusal : String → Option Error)
    (deployment : Deployment) (folders : Folders) (root : String)
    (place : deployment.databaseRoot = some root) (absent : folders.databases.get root = none) :
    (∀ error, (deployment.restore crates refusal folders).1 = .error error →
        (deployment.restore crates refusal folders).2.databases.get root = none) ↔
      ∀ header table rest, deployment.Opens folders header table rest →
        Intact crates refusal header table rest := by
  constructor
  · intro nothing header table rest opens
    rw [restore_of_opens place opens] at nothing
    cases ended : (restoreKeyspace crates refusal header table rest).1 with
    | ok header' => exact (restoreKeyspace_eq_ok_iff.1 ended).1
    | error error =>
        have left := nothing error ended
        rw [Partition.get_insert_self] at left
        cases left
  · intro intact error failed
    by_cases opens : ∃ header table rest, deployment.Opens folders header table rest
    · obtain ⟨header, table, rest, opens⟩ := opens
      rw [restore_of_opens place opens,
        restoreKeyspace_eq_ok_iff.2 ⟨intact header table rest opens, rfl⟩] at failed
      cases failed
    · rw [restore_of_not_opens fun header table rest found =>
        opens ⟨header, table, rest, found⟩]
      exact absent

/-! A complete archive, and one whose last byte is missing. -/

namespace Sample

def deployment : Deployment := ⟨some "database", some "archive"⟩

def folders (file : Bytes) : Folders where
  files := (∅ : OrderedStore.Partition String Bytes).insert "archive" file

def truncated : Bytes := packed.dropLast

/-- Whether the restore fails, and whether there is a database afterwards. -/
def leaves (file : Bytes) : Bool × Bool :=
  let (result, after) := deployment.restore crates (fun _ => none) (folders file)
  ((match result with | .error _ => true | .ok _ => false),
    (after.databases.get "database").isSome)

theorem leaves_truncated : (∃ error, (deployment.restore crates (fun _ => none)
      (folders truncated)).1 = .error error) ∧
    ((deployment.restore crates (fun _ => none) (folders truncated)).2.databases.get
      "database").isSome := by
  have both : leaves truncated = (true, true) := by decide +kernel
  rw [leaves] at both
  generalize deployment.restore crates (fun _ => none) (folders truncated) = outcome at both ⊢
  obtain ⟨error | header, after⟩ := outcome
  · exact ⟨⟨error, rfl⟩, (Prod.mk.inj both).2⟩
  · cases (Prod.mk.inj both).1

end Sample

theorem Deployment.restore_absent_iff_packed :
    (Sample.folders Sample.packed).databases.get "database" = none ∧ ∀ error,
      (Sample.deployment.restore Sample.crates (fun _ => none)
        (Sample.folders Sample.packed)).1 = .error error →
      (Sample.deployment.restore Sample.crates (fun _ => none)
        (Sample.folders Sample.packed)).2.databases.get "database" = none := by
  have absent : (Sample.folders Sample.packed).databases.get "database" = none := by
    decide +kernel
  refine ⟨absent, (Deployment.restore_absent_iff Sample.crates (fun _ => none) Sample.deployment
    (Sample.folders Sample.packed) "database" rfl absent).2 ?_⟩
  intro header table rest opens
  obtain ⟨header', database, restored, _⟩ := @Sample.outcome_eq_some Sample.packed
    "transactions" (Sample.crates.sha256 Sample.deflated) (some [Sample.record.row])
    (by decide +kernel)
  obtain ⟨table', rest', front', ended⟩ := restore_eq_ok_iff.1 restored
  obtain ⟨archiveFilename, file, archive, stored, front⟩ := opens.front
  cases archive
  rw [Sample.folders, Partition.get_insert_self] at stored
  cases stored
  rw [front'] at front
  cases front
  exact (restoreKeyspace_eq_ok_iff.1 (congrArg Prod.fst ended)).1

/-- The truncated archive leaves a database, with which no archive can be restored any more. -/
theorem Deployment.not_absent_truncated : ¬ (∀ error,
      (Sample.deployment.restore Sample.crates (fun _ => none)
        (Sample.folders Sample.truncated)).1 = .error error →
      (Sample.deployment.restore Sample.crates (fun _ => none)
        (Sample.folders Sample.truncated)).2.databases.get "database" = none) ∧
    ∀ retry : Deployment, retry.databaseRoot = some "database" →
      (retry.restore Sample.crates (fun _ => none) (Sample.deployment.restore Sample.crates
        (fun _ => none) (Sample.folders Sample.truncated)).2).1 = .error (.custom
          "Database already exists, please remove it before restoring an archive.") := by
  obtain ⟨⟨error, failed⟩, left⟩ := Sample.leaves_truncated
  constructor
  · intro nothing
    rw [nothing error failed] at left
    cases left
  · intro retry place
    rw [restore_of_exists place (by rw [Folders.exists, left, Bool.true_or])]

end Krc721.Snapshot
