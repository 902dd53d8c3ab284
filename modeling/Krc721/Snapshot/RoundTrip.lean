import Krc721.Snapshot.ArchiveProperties

/-! Restoring an archive that was written. The table names the partitions by ids of 16 bits, so the
snapshots come back as they were exactly when no snapshot with rows loses its id to a later one. -/

set_option autoImplicit false

namespace Krc721.Snapshot

open Borsh Transition

section

/-! Rows of named partitions. -/

def Record.row (record : Record) : Bytes × Bytes := (record.k, record.v)

namespace Database

variable {database : Database} {name : String} {contents : Contents} {record : Record}
variable {rows : List (String × Record)}

def insertRows (database : Database) (rows : List (String × Record)) : Database :=
  rows.foldl (fun database row => database.insertRecord row.1 row.2) database

/-- The rows that are inserted into one partition. -/
def rowsOf (name : String) (rows : List (String × Record)) : List (Bytes × Bytes) :=
  (rows.filter fun row => row.1 = name).map fun row => row.2.row

theorem get_insertRecord (name' : String) :
    (database.insertRecord name record).get name' =
      if name = name' then some (((database.get name').getD ∅).insert record.k record.v)
      else database.get name' := by
  rw [insertRecord, OrderedStore.Partition.get_insert]
  split
  · rename_i same
    rw [same]
  · rfl

theorem get_insertRows (found : database.get name = some contents) :
    (database.insertRows rows).get name = some (contents.insertAll (rowsOf name rows)) := by
  induction rows generalizing database contents with
  | nil => exact found
  | cons row rows ih =>
      by_cases same : row.1 = name
      · have first : (database.insertRecord row.1 row.2).get name =
            some (contents.insert row.2.k row.2.v) := by
          rw [get_insertRecord, if_pos same, found, Option.getD_some]
        rw [rowsOf, List.filter_cons_of_pos (by simpa using same)]
        exact ih first
      · have first : (database.insertRecord row.1 row.2).get name = some contents := by
          rw [get_insertRecord, if_neg same, found]
        rw [rowsOf, List.filter_cons_of_neg (by simpa using same)]
        exact ih first

theorem get_insertRows_of_notMem (absent : ∀ row ∈ rows, row.1 ≠ name) :
    (database.insertRows rows).get name = database.get name := by
  induction rows generalizing database with
  | nil => rfl
  | cons row rows ih =>
      obtain ⟨first, later⟩ := List.forall_mem_cons.1 absent
      exact (ih later).trans (by rw [get_insertRecord, if_neg first])

end Database

/-- Rows by the names that a table gives to their ids. -/
def named (map : OrderedStore.Partition PartitionId String) (rows : List (PartitionId × Record)) :
    List (String × Record) :=
  rows.filterMap fun row => (map.get row.1).map fun name => (name, row.2)

theorem named_append (map : OrderedStore.Partition PartitionId String)
    (rows rows' : List (PartitionId × Record)) :
    named map (rows ++ rows') = named map rows ++ named map rows' := List.filterMap_append

variable {crates : Crates} {chunkSize workerCount : ℕ} {partitions : List Partition}
variable {partitionTable : PartitionTable} {state : Archiving} {table : Bytes}

/-- The chunks of a file are inserted in their order. -/
theorem restoreChunks_written (inflates : crates.InflateUndoesDeflate)
    {map : OrderedStore.Partition PartitionId String} {chunks : List Inflated} {bytes : Bytes}
    (encodes : ∀ chunk ∈ chunks, chunk.Encodes crates)
    (known : ∀ chunk ∈ chunks, (map.get chunk.partitionId).isSome)
    (written : writeItems deflatedCodec (deflateAll crates chunks) = some bytes)
    (database : Database) (hashed : Bytes) :
    restoreChunks crates map chunks.length bytes database hashed =
      .ok (database.insertRows (named map (chunks.flatMap Inflated.tagged)),
        hashed ++ hashedData (deflateAll crates chunks)) := by
  induction chunks generalizing bytes database hashed with
  | nil => simp [restoreChunks, named, Database.insertRows, deflateAll, hashedData]
  | cons chunk chunks ih =>
      obtain ⟨encodesFirst, encodes⟩ := List.forall_mem_cons.1 encodes
      obtain ⟨knownFirst, known⟩ := List.forall_mem_cons.1 known
      obtain ⟨deflated, compressed, _⟩ := encodesFirst
      obtain ⟨name, mapped⟩ := Option.isSome_iff_exists.1 knownFirst
      have split : deflateAll crates (chunk :: chunks) = deflated :: deflateAll crates chunks :=
        List.filterMap_cons_some compressed
      rw [split] at written
      obtain ⟨front, writtenFirst, written⟩ := Option.bind_eq_some_iff.1 written
      obtain ⟨back, writtenRest, rfl⟩ := Option.map_eq_some_iff.1 written
      have inflated := (Inflated.inflate_deflate inflates compressed).1
      have first : named map chunk.tagged = chunk.records.map fun record => (name, record) := by
        simp [named, Inflated.tagged, List.filterMap_map, mapped]
      rw [List.length_cons, restoreChunks, deflatedCodec.read_write _ writtenFirst]
      simp only [inflated, mapped]
      rw [ih encodes known writtenRest, split, List.flatMap_cons, named_append, first]
      simp [Database.insertRows, hashedData, List.foldl_map]

/-- What follows the header: the table and the chunks, at the offset that the header names. -/
theorem exists_archive_eq {rest : Bytes}
    (inFile : state.archiveFile = List.replicate DATA_OFFSET 0 ++ rest) :
    ∃ back, (∀ header, headerCodec.write (state.header crates) = some header →
        state.archive crates = header ++ back) ∧
      (state.archive crates).drop DATA_OFFSET = rest := by
  obtain ⟨header, written, width⟩ := exists_write_header (state.header crates)
  have same : state.archive crates = header ++ state.archiveFile.drop 64 := by
    rw [Archiving.archive, written, Option.getD_some, overwrite, width]
  refine ⟨state.archiveFile.drop 64, fun other writtenOther => ?_, ?_⟩
  · rw [written] at writtenOther
    cases writtenOther
    exact same
  · rw [same, List.drop_append, width, List.drop_drop, inFile,
      List.drop_eq_nil_of_le (by rw [width]; decide)]
    rfl

/-- The conditions under which the format can hold the partitions: what is written is within the
lengths of Borsh, and the chunks are counted in 64 bits. -/
structure Serializes (crates : Crates) (chunkSize : ℕ) (partitions : List Partition) : Prop where
  table : ∀ partitionTable, PartitionTable.tryFrom partitions = .ok partitionTable →
    (partitionTableCodec.write partitionTable).isSome
  chunks : ∀ chunk ∈ ingestChunks chunkSize partitions, chunk.Encodes crates
  count : (ingestChunks chunkSize partitions).length < 256 ^ 8

theorem partitions_of_tryFrom (success : PartitionTable.tryFrom partitions = .ok partitionTable) :
    partitionTable.partitions = partitions.map fun partition => (partition.id, partition.name) := by
  rw [PartitionTable.tryFrom] at success
  split at success
  · cases success
  · cases success
    rfl

/-- An archive restores to its rows, under the names that the ids have at the end of the table. -/
theorem restore_archive (inflates : crates.InflateUndoesDeflate)
    (serializes : Serializes crates chunkSize partitions)
    (success : PartitionTable.tryFrom partitions = .ok partitionTable)
    (encoded : partitionTableCodec.write partitionTable = some table)
    (reach : Reach (archiveStep crates chunkSize workerCount) (fun _ _ => True)
      (.start partitions table) state)
    (finished : state.Finished chunkSize) :
    restore crates (state.archive crates) =
      .ok (state.header crates, (openPartitions partitionTable.partitions).insertRows
        (named (partitionMap partitionTable.partitions) (tagged partitions))) := by
  obtain ⟨written, keeps⟩ := Archiving.Keeps.of_reach serializes.chunks reach
  obtain ⟨rfl, counted⟩ := keeps.of_finished finished
  obtain ⟨bytes, writtenChunks, inFile⟩ := keeps.inFile
  rw [List.append_assoc] at inFile
  obtain ⟨header, writtenHeader, _⟩ := exists_write_header (state.header crates)
  obtain ⟨back, front, behind⟩ := @exists_archive_eq crates _ _ inFile
  have known : ∀ chunk ∈ ingestChunks chunkSize partitions,
      ((partitionMap partitionTable.partitions).get chunk.partitionId).isSome := by
    intro chunk member
    obtain ⟨partition, member, same⟩ := exists_id_of_mem_ingestChunks member
    rw [partitionMap, OrderedStore.Partition.isSome_get_insertAll_iff,
      partitions_of_tryFrom success]
    exact .inl ⟨_, List.mem_map_of_mem member, same⟩
  have count : ((state.header crates).chunks : ℕ) =
      (ingestChunks chunkSize partitions).length := by
    rw [← counted]
    exact Nat.mod_eq_of_lt (counted ▸ serializes.count)
  have rows := restoreChunks_written inflates serializes.chunks known writtenChunks
    (openPartitions partitionTable.partitions) []
  rw [flatMap_tagged_ingestChunks, ← count, List.nil_append] at rows
  rw [restore, front header writtenHeader, headerCodec.read_write back writtenHeader]
  dsimp only
  rw [if_neg (by simp [Archiving.header]), ← front header writtenHeader]
  have offset : ((state.header crates).offset : ℕ) = DATA_OFFSET := rfl
  rw [offset, behind, partitionTableCodec.read_write bytes encoded]
  simp only [rows]
  rw [if_neg]
  simp [Archiving.header, keeps.hashed]

/-! Ids. -/

/-- The snapshots that are not skipped. -/
def archived (skipPartitions : Option (List String)) (snapshots : List DbSnapshot) :
    List DbSnapshot :=
  snapshots.filter fun snapshot =>
    !((skipPartitions.map fun list => list.contains snapshot.name).getD false)

def withIds (snapshots : List DbSnapshot) : List Partition :=
  contextFromSnapshots none snapshots

variable {snapshots : List DbSnapshot} {snapshot : DbSnapshot} {index : ℕ} {name : String}

theorem withIds_eq : withIds snapshots = snapshots.zipIdx.map fun row => {
    id := Fin.ofNat _ row.2
    name := row.1.name
    iter := row.1.contents.entries.map fun entry => ⟨entry.1, entry.2⟩ } := by
  simp [withIds, contextFromSnapshots]

theorem contextFromSnapshots_eq (skipPartitions : Option (List String)) :
    contextFromSnapshots skipPartitions snapshots =
      withIds (archived skipPartitions snapshots) := by
  simp [withIds, contextFromSnapshots, archived]

def tableOf (snapshots : List DbSnapshot) : List (PartitionId × String) :=
  snapshots.zipIdx.map fun row => (Fin.ofNat _ row.2, row.1.name)

theorem map_withIds :
    ((withIds snapshots).map fun partition => (partition.id, partition.name)) =
      tableOf snapshots := by
  simp [withIds_eq, tableOf]

theorem getElem?_tableOf {id : PartitionId} :
    (tableOf snapshots)[index]? = some (id, name) ↔
      ∃ snapshot, snapshots[index]? = some snapshot ∧ snapshot.name = name ∧
        Fin.ofNat _ index = id := by
  simp only [tableOf, List.getElem?_map, List.getElem?_zipIdx, Option.map_map,
    Option.map_eq_some_iff, Function.comp_apply, Prod.mk.injEq, zero_add]
  constructor
  · rintro ⟨snapshot, found, same, named⟩
    exact ⟨snapshot, found, named, same⟩
  · rintro ⟨snapshot, found, named, same⟩
    exact ⟨snapshot, found, same, named⟩

theorem ofNat_eq_iff {other : ℕ} : (Fin.ofNat (256 ^ 2) index : PartitionId) = Fin.ofNat _ other ↔
    index % 2 ^ 16 = other % 2 ^ 16 := by
  rw [Fin.ext_iff]
  rfl

/-- An id leads to the last snapshot that has it. -/
theorem get_partitionMap_eq_some_iff {id : PartitionId} :
    (partitionMap (tableOf snapshots)).get id = some name ↔
      ∃ index snapshot, snapshots[index]? = some snapshot ∧ snapshot.name = name ∧
        Fin.ofNat _ index = id ∧ snapshots.length ≤ index + 2 ^ 16 := by
  rw [partitionMap, OrderedStore.Partition.get_insertAll_eq_some_iff]
  refine exists_congr fun index => ?_
  rw [getElem?_tableOf, ← exists_and_right]
  refine exists_congr fun snapshot => ?_
  rw [and_assoc, and_assoc, and_congr_right_iff]
  intro found
  rw [and_congr_right_iff]
  intro _
  rw [and_congr_right_iff]
  rintro rfl
  constructor
  · intro last
    by_contra more
    rw [Nat.not_le] at more
    refine last (index + 2 ^ 16) (Fin.ofNat _ (index + 2 ^ 16), snapshots[index + 2 ^ 16].name)
      (Nat.lt_add_of_pos_right (by decide)) ?_ (ofNat_eq_iff.2 (Nat.add_mod_right _ _))
    exact getElem?_tableOf.2 ⟨_, List.getElem?_eq_getElem more, rfl, rfl⟩
  · rintro few later ⟨id, other⟩ after foundLater same
    obtain ⟨_, isSnapshot, _, rfl⟩ := getElem?_tableOf.1 foundLater
    have inside := (List.getElem?_eq_some_iff.1 isSnapshot).1
    have congruent := ofNat_eq_iff.1 same
    omega

/-! Which rows a name gets. -/

/-- No snapshot with rows is followed by another one with its id. -/
def KeepIds (snapshots : List DbSnapshot) : Prop :=
  ∀ index snapshot, snapshots[index]? = some snapshot → index + 2 ^ 16 < snapshots.length →
    snapshot.contents = ∅

theorem rowsOf_named_partition (map : OrderedStore.Partition PartitionId String) (id : PartitionId)
    (records : List Record) :
    Database.rowsOf name (named map (records.map fun record => (id, record))) =
      if map.get id = some name then records.map Record.row else [] := by
  cases mapped : map.get id with
  | none => simp [Database.rowsOf, named, mapped]
  | some other =>
      by_cases same : other = name
      · simp [Database.rowsOf, named, mapped, same, List.filterMap_map, List.filter_map,
          Function.comp_def]
      · simp [Database.rowsOf, named, mapped, same, List.filterMap_map]

/-- A name gets the rows of the snapshots whose ids lead to it. -/
theorem rowsOf_named (map : OrderedStore.Partition PartitionId String) :
    Database.rowsOf name (named map (tagged (withIds snapshots))) =
      snapshots.zipIdx.flatMap fun row =>
        if map.get (Fin.ofNat _ row.2) = some name then row.1.contents.entries else [] := by
  rw [withIds_eq]
  generalize snapshots.zipIdx = rows
  induction rows with
  | nil => rfl
  | cons row rows ih =>
      rw [List.map_cons, tagged_cons, named_append, Database.rowsOf, List.filter_append,
        List.map_append, List.flatMap_cons, ← ih]
      refine congrArg₂ (· ++ ·) ?_ rfl
      refine (rowsOf_named_partition map _ _).trans ?_
      simp [Record.row, Function.comp_def]

theorem flatMap_eq_of_unique {Row Item : Type} {rows : List Row} {f : Row → List Item} {row : Row}
    (found : rows[index]? = some row)
    (others : ∀ other row, rows[other]? = some row → other ≠ index → f row = []) :
    rows.flatMap f = f row := by
  induction rows generalizing index with
  | nil => cases found
  | cons first rows ih =>
      rw [List.flatMap_cons]
      cases index with
      | zero =>
          obtain rfl : first = row := Option.some.inj found
          have rest : rows.flatMap f = [] := by
            rw [List.flatMap_eq_nil_iff]
            intro row member
            obtain ⟨other, found⟩ := List.mem_iff_getElem?.1 member
            exact others (other + 1) row found (Nat.succ_ne_zero other)
          rw [rest, List.append_nil]
      | succ index =>
          rw [others 0 first rfl (Nat.succ_ne_zero index).symm, List.nil_append]
          exact ih found fun other row foundRow different =>
            others (other + 1) row foundRow (mt Nat.succ.inj different)

theorem distinct_index (distinct : (snapshots.map DbSnapshot.name).Nodup) {other : ℕ}
    {snapshot' : DbSnapshot} (found : snapshots[index]? = some snapshot)
    (found' : snapshots[other]? = some snapshot') (same : snapshot.name = snapshot'.name) :
    index = other := by
  have inside : index < (snapshots.map DbSnapshot.name).length := by
    simpa using (List.getElem?_eq_some_iff.1 found).1
  refine (List.getElem?_inj inside distinct).1 ?_
  rw [List.getElem?_map, List.getElem?_map, found, found', Option.map_some, Option.map_some, same]

/-- A snapshot that another one follows with its id gets nothing. -/
theorem rowsOf_eq_nil (distinct : (snapshots.map DbSnapshot.name).Nodup)
    (found : snapshots[index]? = some snapshot) (more : index + 2 ^ 16 < snapshots.length) :
    Database.rowsOf snapshot.name
      (named (partitionMap (tableOf snapshots)) (tagged (withIds snapshots))) = [] := by
  rw [rowsOf_named, List.flatMap_eq_nil_iff]
  intro row _
  refine if_neg fun mapped => ?_
  obtain ⟨last, other, foundLast, same, _, few⟩ := get_partitionMap_eq_some_iff.1 mapped
  have := distinct_index distinct foundLast found same
  omega

/-- Otherwise a snapshot gets its own rows, if no snapshot in front of it loses any. -/
theorem rowsOf_eq_entries (distinct : (snapshots.map DbSnapshot.name).Nodup)
    (keepIds : KeepIds snapshots) (found : snapshots[index]? = some snapshot)
    (few : snapshots.length ≤ index + 2 ^ 16) :
    Database.rowsOf snapshot.name
      (named (partitionMap (tableOf snapshots)) (tagged (withIds snapshots))) =
        snapshot.contents.entries := by
  have mapped : (partitionMap (tableOf snapshots)).get (Fin.ofNat _ index) =
      some snapshot.name :=
    get_partitionMap_eq_some_iff.2 ⟨index, snapshot, found, rfl, rfl, few⟩
  rw [rowsOf_named]
  refine (@flatMap_eq_of_unique index _ _ _ _ (snapshot, index) ?_ ?_).trans (if_pos mapped)
  · simp [found]
  · intro other row foundRow different
    obtain ⟨snapshot', foundOther, rfl⟩ : ∃ snapshot', snapshots[other]? = some snapshot' ∧
        row = (snapshot', other) := by
      simp only [List.getElem?_zipIdx, Option.map_eq_some_iff, Nat.zero_add] at foundRow
      obtain ⟨snapshot', foundOther, rfl⟩ := foundRow
      exact ⟨snapshot', foundOther, rfl⟩
    split
    · rename_i leads
      obtain ⟨last, _, foundLast, same, congruent, _⟩ := get_partitionMap_eq_some_iff.1 leads
      obtain rfl := distinct_index distinct foundLast found same
      have congruent := ofNat_eq_iff.1 congruent
      have inside := (List.getElem?_eq_some_iff.1 foundOther).1
      have earlier : other + 2 ^ 16 < snapshots.length := by
        have := (List.getElem?_eq_some_iff.1 found).1
        omega
      dsimp only
      rw [keepIds other snapshot' foundOther earlier]
      rfl
    · rfl

/-! The restored database. -/

/-- What `restore` makes of an archive of the snapshots. -/
def restored (snapshots : List DbSnapshot) : Database :=
  (openPartitions (tableOf snapshots)).insertRows
    (named (partitionMap (tableOf snapshots)) (tagged (withIds snapshots)))

theorem isSome_get_openPartitions_iff {table : List (PartitionId × String)} :
    ((openPartitions table).get name).isSome ↔ ∃ entry ∈ table, entry.2 = name := by
  rw [openPartitions, OrderedStore.Partition.isSome_get_insertAll_iff]
  simp

/-- A partition that is opened has no rows yet. -/
theorem get_openPartitions {table : List (PartitionId × String)} {contents : Contents}
    (found : (openPartitions table).get name = some contents) : contents = ∅ := by
  obtain ⟨index, entry, _⟩ := OrderedStore.Partition.get_insertAll_eq_some_iff.1 found
  rw [List.getElem?_map, Option.map_eq_some_iff] at entry
  obtain ⟨_, _, same⟩ := entry
  exact (congrArg Prod.snd same).symm

theorem get_restored (found : snapshots[index]? = some snapshot) :
    (restored snapshots).get snapshot.name = some (OrderedStore.Partition.insertAll ∅
      (Database.rowsOf snapshot.name
        (named (partitionMap (tableOf snapshots)) (tagged (withIds snapshots))))) := by
  have inTable : (Fin.ofNat _ index, snapshot.name) ∈ tableOf snapshots :=
    List.mem_iff_getElem?.2 ⟨index, getElem?_tableOf.2 ⟨snapshot, found, rfl, rfl⟩⟩
  have opened : ((openPartitions (tableOf snapshots)).get snapshot.name).isSome :=
    isSome_get_openPartitions_iff.2 ⟨_, inTable, rfl⟩
  obtain ⟨contents, opened⟩ := Option.isSome_iff_exists.1 opened
  obtain rfl := get_openPartitions opened
  exact Database.get_insertRows opened

/-- No other partition is restored. -/
theorem get_restored_of_notMem (absent : ∀ snapshot ∈ snapshots, snapshot.name ≠ name) :
    (restored snapshots).get name = none := by
  have unopened : (openPartitions (tableOf snapshots)).get name = none := by
    rw [← Option.not_isSome_iff_eq_none, isSome_get_openPartitions_iff]
    rintro ⟨⟨id, _⟩, member, rfl⟩
    obtain ⟨index, found⟩ := List.mem_iff_getElem?.1 member
    obtain ⟨snapshot, isSnapshot, same, _⟩ := getElem?_tableOf.1 found
    exact absent snapshot (List.mem_of_getElem? isSnapshot) same
  refine (Database.get_insertRows_of_notMem ?_).trans unopened
  rintro ⟨other, record⟩ member rfl
  obtain ⟨row, _, mapped⟩ := List.mem_filterMap.1 member
  obtain ⟨_, leads, same⟩ := Option.map_eq_some_iff.1 mapped
  cases same
  obtain ⟨_, snapshot, isSnapshot, same, _⟩ := get_partitionMap_eq_some_iff.1 leads
  exact absent snapshot (List.mem_of_getElem? isSnapshot) same

/-- The database has the partitions of the snapshots, with the same rows. -/
def Restores (snapshots : List DbSnapshot) (database : Database) : Prop :=
  (∀ snapshot ∈ snapshots, database.get snapshot.name = some snapshot.contents) ∧
    ∀ name, (∀ snapshot ∈ snapshots, snapshot.name ≠ name) → database.get name = none

theorem restores_restored_iff (distinct : (snapshots.map DbSnapshot.name).Nodup) :
    Restores snapshots (restored snapshots) ↔ KeepIds snapshots := by
  constructor
  · rintro ⟨same, _⟩ index snapshot found more
    have rows := same snapshot (List.mem_of_getElem? found)
    rw [get_restored found, rowsOf_eq_nil distinct found more, Option.some.injEq] at rows
    exact rows.symm
  · intro keepIds
    refine ⟨fun snapshot member => ?_, fun name => get_restored_of_notMem⟩
    obtain ⟨index, found⟩ := List.mem_iff_getElem?.1 member
    rw [get_restored found]
    by_cases more : index + 2 ^ 16 < snapshots.length
    · rw [rowsOf_eq_nil distinct found more, keepIds index snapshot found more]
      rfl
    · rw [rowsOf_eq_entries distinct keepIds found (Nat.le_of_not_lt more),
        OrderedStore.Partition.insertAll_entries]

/-! The round trip. -/

/-- Archiving the snapshots can always be brought to its end, and whatever file it leaves is
restored to the snapshots. -/
structure RoundTrips (crates : Crates) (chunkSize workerCount : ℕ)
    (skipPartitions : Option (List String)) (snapshots : List DbSnapshot) : Prop where
  begins : ∃ partitionTable table,
    PartitionTable.tryFrom (contextFromSnapshots skipPartitions snapshots) = .ok partitionTable ∧
    partitionTableCodec.write partitionTable = some table ∧
    ∀ state, Reach (archiveStep crates chunkSize workerCount) (fun _ _ => True)
        (.start (contextFromSnapshots skipPartitions snapshots) table) state →
      ∃ last, Reach (archiveStep crates chunkSize workerCount) (fun _ _ => True) state last ∧
        last.Finished chunkSize
  restores : ∀ file,
    Archives crates chunkSize workerCount (contextFromSnapshots skipPartitions snapshots) file →
      ∃ header database, restore crates file = .ok (header, database) ∧
        Restores (archived skipPartitions snapshots) database

variable {skipPartitions : Option (List String)}

/-- Whatever file archiving leaves, `restore` gives the same database. -/
theorem restore_of_archives (inflates : crates.InflateUndoesDeflate)
    (serializes : Serializes crates chunkSize (withIds snapshots)) {file : Bytes}
    (archives : Archives crates chunkSize workerCount (withIds snapshots) file) :
    ∃ header, restore crates file = .ok (header, restored snapshots) := by
  obtain ⟨partitionTable, table, state, success, encoded, reach, finished, rfl⟩ := archives
  have restores := restore_archive inflates serializes success encoded reach finished
  rw [partitions_of_tryFrom success, map_withIds] at restores
  exact ⟨_, restores⟩

theorem exists_start (nonempty : snapshots ≠ [])
    (serializes : Serializes crates chunkSize (withIds snapshots)) :
    ∃ partitionTable table, PartitionTable.tryFrom (withIds snapshots) = .ok partitionTable ∧
      partitionTableCodec.write partitionTable = some table := by
  have success : ∃ partitionTable,
      PartitionTable.tryFrom (withIds snapshots) = .ok partitionTable := by
    refine ⟨_, if_neg ?_⟩
    simpa [withIds_eq] using nonempty
  obtain ⟨partitionTable, success⟩ := success
  obtain ⟨table, encoded⟩ := Option.isSome_iff_exists.1 (serializes.table partitionTable success)
  exact ⟨partitionTable, table, success, encoded⟩

theorem keepIds_of_roundTrips (inflates : crates.InflateUndoesDeflate)
    (distinct : ((archived skipPartitions snapshots).map DbSnapshot.name).Nodup)
    (serializes : Serializes crates chunkSize (contextFromSnapshots skipPartitions snapshots))
    (trips : RoundTrips crates chunkSize workerCount skipPartitions snapshots) :
    KeepIds (archived skipPartitions snapshots) := by
  obtain ⟨⟨partitionTable, table, success, encoded, ends⟩, restores⟩ := trips
  obtain ⟨last, reach, finished⟩ := ends _ .refl
  have archives : Archives crates chunkSize workerCount
      (contextFromSnapshots skipPartitions snapshots) (last.archive crates) :=
    ⟨partitionTable, table, last, success, encoded, reach, finished, rfl⟩
  obtain ⟨header, database, read, same⟩ := restores _ archives
  rw [contextFromSnapshots_eq] at archives serializes
  obtain ⟨_, again⟩ := restore_of_archives inflates serializes archives
  rw [again] at read
  cases read
  exact (restores_restored_iff distinct).1 same

/-- Snapshots come back from their archive exactly when no snapshot with rows is followed by
another one with its id. -/
theorem roundTrips_iff (inflates : crates.InflateUndoesDeflate)
    (nonempty : archived skipPartitions snapshots ≠ [])
    (distinct : ((archived skipPartitions snapshots).map DbSnapshot.name).Nodup)
    (serializes : Serializes crates chunkSize (contextFromSnapshots skipPartitions snapshots))
    (workers : 0 < workerCount) :
    RoundTrips crates chunkSize workerCount skipPartitions snapshots ↔
      ∀ index snapshot, (archived skipPartitions snapshots)[index]? = some snapshot →
        index + 2 ^ 16 < (archived skipPartitions snapshots).length → snapshot.contents = ∅ := by
  constructor
  · intro trips
    exact keepIds_of_roundTrips inflates distinct serializes trips
  · intro keepIds
    refine ⟨?_, fun file archives => ?_⟩
    · rw [contextFromSnapshots_eq] at serializes ⊢
      obtain ⟨partitionTable, table, success, encoded⟩ := exists_start nonempty serializes
      exact ⟨partitionTable, table, success, encoded, fun state reach =>
        Archiving.exists_finished workers serializes.chunks reach⟩
    · rw [contextFromSnapshots_eq] at serializes archives
      obtain ⟨header, read⟩ := restore_of_archives inflates serializes archives
      exact ⟨header, _, read, (restores_restored_iff distinct).2 keepIds⟩

end

/-! Samples, of which one has more partitions than ids. -/

namespace Sample

def record : Record := ⟨[97], [98]⟩

/-- The records as `borsh` writes them. -/
def data : Bytes := [1, 0, 0, 0, 1, 0, 0, 0, 97, 1, 0, 0, 0, 98]

/-- The data after `DeflateEncoder`. -/
def deflated : Bytes := [99, 100, 96, 96, 96, 4, 226, 68, 16, 145, 4, 0]

/-- The values of the crates at the sample: what follows the end of compressed data is ignored.
Other data is kept behind a byte that no compressed data begins with. -/
def crates : Crates where
  deflate bytes := if bytes = data then deflated else 255 :: bytes
  inflate bytes :=
    if deflated <+: bytes then some data
    else if bytes.head? = some 255 then some bytes.tail else none
  sha256 bytes :=
    if bytes = deflated then
      ⟨[98, 177, 251, 76, 67, 200, 238, 15, 3, 138, 83, 124, 160, 86, 159, 18, 188, 120, 143, 81,
        94, 70, 130, 243, 95, 86, 30, 23, 155, 196, 139, 34], rfl⟩
    else if bytes = deflated ++ deflated then
      ⟨[77, 145, 254, 17, 133, 153, 178, 155, 144, 228, 32, 40, 31, 1, 176, 228, 39, 168, 151, 213,
        99, 92, 64, 80, 60, 0, 229, 72, 246, 104, 130, 217], rfl⟩
    else ⟨List.replicate 32 0, rfl⟩

theorem inflateUndoesDeflate : crates.InflateUndoesDeflate := by
  intro bytes
  simp only [crates]
  by_cases same : bytes = data
  · rw [if_pos same, if_pos (List.prefix_refl deflated), same]
  · have marked : ¬ deflated <+: (255 :: bytes : Bytes) := by simp [deflated]
    rw [if_neg same, if_neg marked]
    rfl

def contents : Contents := (∅ : Contents).insert record.k record.v

theorem entries_contents : contents.entries = [record.row] := by decide +kernel

theorem contents_ne : contents ≠ ∅ := fun empty =>
  absurd (entries_contents.symm.trans (congrArg OrderedStore.Partition.entries empty))
    (by decide +kernel)

theorem encodes : Inflated.Encodes crates ⟨0, [record]⟩ :=
  ⟨⟨0, deflated⟩, by decide, by decide⟩

/-- Snapshots of one record are within the lengths of the format. -/
theorem serializes {snapshots : List DbSnapshot} {chunkSize : ℕ}
    (few : snapshots.length < 256 ^ 4)
    (short : ∀ snapshot ∈ snapshots, (utf8Bytes snapshot.name).length < 256 ^ 4)
    (single : tagged (withIds snapshots) = [(0, record)]) :
    Serializes crates chunkSize (withIds snapshots) where
  table := by
    intro partitionTable success
    have isTable := partitions_of_tryFrom success
    rw [map_withIds] at isTable
    simp only [partitionTableCodec, isSome_write_struct_iff, isSome_write_pair_iff,
      isSome_write_uint, isSome_write_vec_iff, isSome_write_string_iff, true_and]
    constructor
    · simpa [isTable, tableOf] using few
    · intro entry member
      rw [isTable] at member
      obtain ⟨index, found⟩ := List.mem_iff_getElem?.1 member
      obtain ⟨snapshot, isSnapshot, same, _⟩ := getElem?_tableOf.1 found
      rw [← same]
      exact short snapshot (List.mem_of_getElem? isSnapshot)
  chunks := by
    intro chunk member
    have inside := tagged_sublist member
    rw [single] at inside
    have whole := inside.eq_of_length_le
      (List.length_pos_iff.2 (tagged_ne_nil_of_mem_ingestChunks member))
    obtain ⟨id, records⟩ := chunk
    obtain ⟨other, rfl, same⟩ := List.map_eq_singleton_iff.1 whole
    cases same
    exact encodes
  count := by
    have bound := @length_ingestChunks_le chunkSize (withIds snapshots)
    rw [single] at bound
    exact bound.trans_lt (by decide)

/-- One record, and a partition without any. -/
def snapshots : List DbSnapshot := [⟨"transactions", contents⟩, ⟨"listings", ∅⟩]

theorem short_names : ∀ snapshot ∈ snapshots, (utf8Bytes snapshot.name).length < 256 ^ 4 := by
  have digits : ∀ snapshot ∈ snapshots, 4 * snapshot.name.length < 256 ^ 4 := by
    decide +kernel
  exact fun snapshot member => (length_utf8Bytes_le _).trans_lt (digits snapshot member)

theorem tagged_snapshots : tagged (withIds snapshots) = [(0, record)] := by decide +kernel

/-- One more snapshot than there are ids; only the first one has a record. -/
def overflow : List DbSnapshot :=
  (List.range (2 ^ 16 + 1)).map fun index =>
    ⟨toString index, if index = 0 then contents else ∅⟩

theorem getElem?_overflow {index : ℕ} {snapshot : DbSnapshot} :
    overflow[index]? = some snapshot ↔ index < 2 ^ 16 + 1 ∧
      snapshot = ⟨toString index, if index = 0 then contents else ∅⟩ := by
  rw [overflow, List.getElem?_map, Option.map_eq_some_iff]
  constructor
  · rintro ⟨position, found, rfl⟩
    obtain ⟨inside, same⟩ := List.getElem?_eq_some_iff.1 found
    rw [List.getElem_range] at same
    subst same
    exact ⟨by simpa using inside, rfl⟩
  · rintro ⟨inside, rfl⟩
    exact ⟨index, List.getElem?_range inside, rfl⟩

theorem length_overflow : overflow.length = 2 ^ 16 + 1 := by
  rw [overflow, List.length_map, List.length_range]

theorem toString_injective : Function.Injective (toString : ℕ → String) := by
  intro number other same
  simp only [Nat.toString_eq_ofList_toDigits] at same
  have digits := String.ofList_injective same
  rw [← @Nat.ofDigitChars_ten_toDigits number, digits, Nat.ofDigitChars_ten_toDigits]

theorem distinct_overflow : (overflow.map DbSnapshot.name).Nodup := by
  rw [overflow, List.map_map]
  exact List.nodup_range.map toString_injective

theorem tagged_overflow : tagged (withIds overflow) = [(0, record)] := by
  rw [tagged, withIds_eq, List.flatMap_map]
  refine (@flatMap_eq_of_unique 0 _ _ _ _ (⟨toString 0, contents⟩, 0) ?_ ?_).trans ?_
  · rw [List.getElem?_zipIdx, getElem?_overflow.2 ⟨by decide, rfl⟩]
    rfl
  · intro index row found positive
    rw [List.getElem?_zipIdx, Option.map_eq_some_iff] at found
    obtain ⟨snapshot, isSnapshot, rfl⟩ := found
    rw [(getElem?_overflow.1 isSnapshot).2, if_neg positive]
    rfl
  · simp only [entries_contents]
    rfl

theorem serializes_overflow {chunkSize : ℕ} :
    Serializes crates chunkSize (withIds overflow) := by
  refine serializes (by rw [length_overflow]; decide) (fun snapshot member => ?_) tagged_overflow
  obtain ⟨index, found⟩ := List.mem_iff_getElem?.1 member
  obtain ⟨inside, rfl⟩ := getElem?_overflow.1 found
  have digits : (toString index).length ≤ 5 :=
    Nat.repr_length index 5 (by decide) (inside.trans (by decide))
  have width := length_utf8Bytes_le (toString index)
  exact width.trans_lt ((Nat.mul_le_mul_left 4 digits).trans_lt (by decide))

end Sample

theorem roundTrips_iff_snapshots : RoundTrips Sample.crates 10 4 none Sample.snapshots := by
  have serializes : Serializes Sample.crates 10 (contextFromSnapshots none Sample.snapshots) :=
    Sample.serializes (by decide) Sample.short_names Sample.tagged_snapshots
  refine (roundTrips_iff Sample.inflateUndoesDeflate (by simp [archived, Sample.snapshots])
    (by simp [archived, Sample.snapshots]) serializes (by decide)).2 fun index snapshot _ more => ?_
  simp [archived, Sample.snapshots] at more

/-- With one partition more than ids, the first one comes back empty. -/
theorem not_roundTrips_overflow : ¬ (Sample.crates.InflateUndoesDeflate →
    archived none Sample.overflow ≠ [] →
    ((archived none Sample.overflow).map DbSnapshot.name).Nodup →
    Serializes Sample.crates 10 (contextFromSnapshots none Sample.overflow) →
    RoundTrips Sample.crates 10 4 none Sample.overflow) := by
  intro claim
  have all : archived none Sample.overflow = Sample.overflow := by simp [archived]
  have serializes := @Sample.serializes_overflow 10
  have distinct := Sample.distinct_overflow
  rw [← all] at serializes distinct
  have trips := claim Sample.inflateUndoesDeflate
    (fun empty => absurd (congrArg List.length (all.symm.trans empty))
      (by rw [Sample.length_overflow]; decide)) distinct
    (by rw [contextFromSnapshots_eq]; exact serializes)
  have keepIds := keepIds_of_roundTrips Sample.inflateUndoesDeflate distinct
    (by rw [contextFromSnapshots_eq]; exact serializes) trips
  rw [all] at keepIds
  exact Sample.contents_ne (keepIds 0 _ (Sample.getElem?_overflow.2 ⟨by decide, rfl⟩)
    (by rw [Sample.length_overflow]; decide))

end Krc721.Snapshot
