import Krc721.Snapshot.Archive

/-! What the loop of `archive_from_context` writes. The partitions and the chunk size determine the
chunks; in whatever order the tasks complete, the file holds them in the order of the stream. -/

set_option autoImplicit false

namespace Krc721.Snapshot

open Borsh Transition

/-! Chunks. -/

/-- The records of partitions, each with the id of its partition. -/
def tagged (partitions : List Partition) : List (PartitionId × Record) :=
  partitions.flatMap fun partition => partition.iter.map fun record => (partition.id, record)

def Inflated.tagged (chunk : Inflated) : List (PartitionId × Record) :=
  chunk.records.map fun record => (chunk.partitionId, record)

@[simp] theorem tagged_cons (partition : Partition) (partitions : List Partition) :
    tagged (partition :: partitions) =
      partition.iter.map (fun record => (partition.id, record)) ++ tagged partitions := rfl

variable {chunkSize : ℕ} {partition next : Partition} {partitions rest : List Partition}
variable {chunk : Inflated}

theorem takeRecords_append (size : ℕ) (iter : List Record) :
    (takeRecords chunkSize size iter).1 ++ (takeRecords chunkSize size iter).2 = iter := by
  induction iter generalizing size with
  | nil => rfl
  | cons record iter ih =>
      rw [takeRecords]
      split
      · rfl
      · exact congrArg (record :: ·) (ih _)

theorem takeRecords_eq_nil_iff {size : ℕ} {iter : List Record} :
    (takeRecords chunkSize size iter).1 = [] ↔ iter = [] := by
  cases iter with
  | nil => simp [takeRecords]
  | cons record iter =>
      rw [takeRecords]
      split
      · simp
      · simp

theorem Inflated.fill_eq_none_iff : (fill partition chunkSize).1 = none ↔ partition.iter = [] := by
  rw [← @takeRecords_eq_nil_iff chunkSize 0]
  simp [fill]

theorem Inflated.tagged_of_fill (filled : fill partition chunkSize = (some chunk, next)) :
    partition.iter.map (fun record => (partition.id, record)) =
        chunk.tagged ++ next.iter.map (fun record => (next.id, record)) ∧
      chunk.tagged ≠ [] := by
  rw [fill, Prod.mk.injEq] at filled
  obtain ⟨taken, rfl⟩ := filled
  split at taken
  · cases taken
  · rename_i records
    cases taken
    have split := @takeRecords_append chunkSize 0 partition.iter
    constructor
    · rw [tagged, ← List.map_append, split]
    · simpa [tagged] using records

/-- The stream ends when the partitions have no records left. -/
theorem ingestNext_eq_none_iff :
    ingestNext chunkSize partitions = none ↔ tagged partitions = [] := by
  induction partitions with
  | nil => simp [ingestNext, tagged]
  | cons partition partitions ih =>
      rw [ingestNext, tagged_cons, List.append_eq_nil_iff, List.map_eq_nil_iff,
        ← @Inflated.fill_eq_none_iff chunkSize]
      cases filled : Inflated.fill partition chunkSize with
      | mk chunk next =>
          cases chunk with
          | none => simpa using ih
          | some chunk => simp

/-- A chunk holds the next records, at least one. -/
theorem tagged_of_ingestNext (ingested : ingestNext chunkSize partitions = some (chunk, rest)) :
    tagged partitions = chunk.tagged ++ tagged rest ∧ chunk.tagged ≠ [] := by
  induction partitions with
  | nil => cases ingested
  | cons partition partitions ih =>
      rw [ingestNext] at ingested
      split at ingested
      · rename_i filled
        cases ingested
        obtain ⟨records, nonempty⟩ := Inflated.tagged_of_fill filled
        exact ⟨by rw [tagged_cons, tagged_cons, records, List.append_assoc], nonempty⟩
      · rename_i filled
        have exhausted := Inflated.fill_eq_none_iff.1 (congrArg Prod.fst filled)
        obtain ⟨records, nonempty⟩ := ih ingested
        exact ⟨by rw [tagged_cons, exhausted, records]; rfl, nonempty⟩

def ingestChunks (chunkSize : ℕ) (partitions : List Partition) : List Inflated :=
  match _ingested : ingestNext chunkSize partitions with
  | none => []
  | some (chunk, rest) => chunk :: ingestChunks chunkSize rest
termination_by (tagged partitions).length
decreasing_by
  obtain ⟨records, nonempty⟩ := tagged_of_ingestNext _ingested
  have := List.length_pos_iff.2 nonempty
  rw [records, List.length_append]
  omega

theorem ingestChunks_of_none (ended : ingestNext chunkSize partitions = none) :
    ingestChunks chunkSize partitions = [] := by
  rw [ingestChunks]
  split
  · rfl
  · rename_i found
    rw [ended] at found
    cases found

theorem ingestChunks_of_some (ingested : ingestNext chunkSize partitions = some (chunk, rest)) :
    ingestChunks chunkSize partitions = chunk :: ingestChunks chunkSize rest := by
  rw [ingestChunks]
  split
  · rename_i missing
    rw [ingested] at missing
    cases missing
  · rename_i found
    rw [ingested] at found
    cases found
    rfl

/-- No record is lost or doubled where chunks or partitions meet. -/
theorem flatMap_tagged_ingestChunks (partitions : List Partition) :
    (ingestChunks chunkSize partitions).flatMap Inflated.tagged = tagged partitions := by
  induction partitions using ingestChunks.induct chunkSize with
  | case1 partitions ended => rw [ingestChunks_of_none ended, ingestNext_eq_none_iff.1 ended]; rfl
  | case2 partitions chunk rest ingested ih =>
      rw [ingestChunks_of_some ingested, List.flatMap_cons, ih, (tagged_of_ingestNext ingested).1]

theorem mem_tagged {id : PartitionId} {record : Record} :
    (id, record) ∈ tagged partitions ↔
      ∃ partition ∈ partitions, partition.id = id ∧ record ∈ partition.iter := by
  simp only [tagged, List.mem_flatMap, List.mem_map, Prod.mk.injEq]
  constructor
  · rintro ⟨partition, member, record, inIter, rfl, rfl⟩
    exact ⟨partition, member, rfl, inIter⟩
  · rintro ⟨partition, member, rfl, inIter⟩
    exact ⟨partition, member, record, inIter, rfl, rfl⟩

theorem tagged_ne_nil_of_mem_ingestChunks (member : chunk ∈ ingestChunks chunkSize partitions) :
    chunk.tagged ≠ [] := by
  induction partitions using ingestChunks.induct chunkSize with
  | case1 partitions ended =>
      rw [ingestChunks_of_none ended] at member
      cases member
  | case2 partitions first rest ingested ih =>
      rw [ingestChunks_of_some ingested] at member
      rcases List.mem_cons.1 member with rfl | member
      · exact (tagged_of_ingestNext ingested).2
      · exact ih member

theorem length_ingestChunks_le :
    (ingestChunks chunkSize partitions).length ≤ (tagged partitions).length := by
  induction partitions using ingestChunks.induct chunkSize with
  | case1 partitions ended => rw [ingestChunks_of_none ended]; exact Nat.zero_le _
  | case2 partitions chunk rest ingested ih =>
      obtain ⟨records, nonempty⟩ := tagged_of_ingestNext ingested
      have first := List.length_pos_iff.2 nonempty
      rw [ingestChunks_of_some ingested, records, List.length_cons, List.length_append]
      omega

theorem tagged_sublist (member : chunk ∈ ingestChunks chunkSize partitions) :
    chunk.tagged.Sublist (tagged partitions) := by
  rw [← @flatMap_tagged_ingestChunks chunkSize, List.flatMap_def]
  exact List.sublist_flatten_of_mem (List.mem_map_of_mem member)

theorem exists_id_of_mem_ingestChunks (member : chunk ∈ ingestChunks chunkSize partitions) :
    ∃ partition ∈ partitions, partition.id = chunk.partitionId := by
  obtain ⟨row, inChunk⟩ := List.exists_mem_of_ne_nil _ (tagged_ne_nil_of_mem_ingestChunks member)
  have inPartitions := (tagged_sublist member).subset inChunk
  obtain ⟨record, _, rfl⟩ := List.mem_map.1 inChunk
  obtain ⟨partition, member, same, _⟩ := mem_tagged.1 inPartitions
  exact ⟨partition, member, same⟩

/-! The loop. -/

variable {crates : Crates} {workerCount : ℕ} {state : Archiving} {table : Bytes}

/-- The chunk can be compressed and written: its texts and lists are within the lengths of the
format. -/
def Inflated.Encodes (crates : Crates) (chunk : Inflated) : Prop :=
  ∃ deflated, chunk.deflate crates = some deflated ∧ (deflatedCodec.write deflated).isSome

/-- The chunks as they are in the file. -/
def deflateAll (crates : Crates) (chunks : List Inflated) : List Deflated :=
  chunks.filterMap (Inflated.deflate crates)

def hashedData (deflated : List Deflated) : Bytes := deflated.flatMap Deflated.data

/-- What the loop has written so far: the first chunks, in the order of the stream. -/
structure Archiving.Keeps (crates : Crates) (chunkSize : ℕ) (partitions : List Partition)
    (table : Bytes) (written : List Inflated) (state : Archiving) : Prop where
  running : state.failed = false
  ordered : ingestChunks chunkSize partitions =
    written ++ (state.pendingTasks.map Task.chunk ++ ingestChunks chunkSize state.ingest)
  counted : state.chunks = written.length + state.pendingTasks.length
  hashed : state.hashed = hashedData (deflateAll crates written)
  inFile : ∃ bytes, writeItems deflatedCodec (deflateAll crates written) = some bytes ∧
    state.archiveFile = List.replicate DATA_OFFSET 0 ++ table ++ bytes

namespace Archiving

theorem Keeps.initial : Keeps crates chunkSize partitions table [] (start partitions table) where
  running := rfl
  ordered := rfl
  counted := rfl
  hashed := rfl
  inFile := ⟨[], rfl, (List.append_nil _).symm⟩

theorem Keeps.write {written : List Inflated} {pendingTasks : List Task} {deflated : Deflated}
    {bytes : Bytes} (keeps : Keeps crates chunkSize partitions table written state)
    (first : state.pendingTasks = ⟨chunk, true⟩ :: pendingTasks)
    (compressed : chunk.deflate crates = some deflated)
    (encoded : deflatedCodec.write deflated = some bytes) :
    Keeps crates chunkSize partitions table (written ++ [chunk]) { state with
      pendingTasks
      archiveFile := state.archiveFile ++ bytes
      hashed := state.hashed ++ deflated.data } := by
  have one : deflateAll crates [chunk] = [deflated] := by simp [deflateAll, compressed]
  have more : deflateAll crates (written ++ [chunk]) = deflateAll crates written ++ [deflated] := by
    rw [← one]
    exact List.filterMap_append
  obtain ⟨before, writtenBefore, inFile⟩ := keeps.inFile
  refine ⟨keeps.running, ?_, ?_, ?_, before ++ bytes, ?_, ?_⟩
  · rw [keeps.ordered, first]
    simp
  · rw [keeps.counted, first, List.length_append, List.length_cons]
    simp only [List.length_cons, List.length_nil]
    omega
  · rw [more, keeps.hashed]
    simp [hashedData]
  · rw [more, writeItems_append, writtenBefore]
    simp [writeItems, encoded]
  · rw [inFile, List.append_assoc]

theorem Keeps.step {written : List Inflated} {action : ArchiveAction} {next : Archiving}
    (encodes : ∀ chunk ∈ ingestChunks chunkSize partitions, chunk.Encodes crates)
    (keeps : Keeps crates chunkSize partitions table written state)
    (moved : archiveStep crates chunkSize workerCount state action = some next) :
    ∃ written, Keeps crates chunkSize partitions table written next := by
  cases action with
  | ingest =>
      simp only [archiveStep, keeps.running, Bool.false_eq_true, if_false] at moved
      split at moved
      · obtain ⟨⟨chunk, rest⟩, ingested, rfl⟩ := Option.map_eq_some_iff.1 moved
        refine ⟨written, rfl, ?_, ?_, keeps.hashed, keeps.inFile⟩
        · rw [keeps.ordered, ingestChunks_of_some ingested]
          simp
        · simp [keeps.counted, Nat.add_assoc]
      · cases moved
  | complete index =>
      simp only [archiveStep, keeps.running, Bool.false_eq_true, if_false] at moved
      split at moved
      · rename_i chunk found
        cases moved
        refine ⟨written, rfl, ?_, ?_, keeps.hashed, keeps.inFile⟩
        · have same : (state.pendingTasks.map Task.chunk)[index]? = some chunk := by
            rw [List.getElem?_map, found]
            rfl
          obtain ⟨inside, rfl⟩ := List.getElem?_eq_some_iff.1 same
          rw [keeps.ordered, List.map_set, List.set_getElem_self]
        · simp [keeps.counted]
      · cases moved
  | write =>
      simp only [archiveStep, keeps.running, Bool.false_eq_true, if_false] at moved
      split at moved
      · cases moved
      · split at moved
        · rename_i chunk pendingTasks first
          have member : chunk ∈ ingestChunks chunkSize partitions := by
            rw [keeps.ordered, first]
            simp
          obtain ⟨deflated, compressed, encoded⟩ := encodes chunk member
          obtain ⟨bytes, encoded⟩ := Option.isSome_iff_exists.1 encoded
          simp only [compressed, encoded, Option.some.injEq] at moved
          cases moved
          have kept := keeps.write first compressed encoded
          rw [keeps.running] at kept
          exact ⟨_, kept⟩
        · cases moved

theorem archiveStep_write {pendingTasks : List Task} {deflated : Deflated} {bytes : Bytes}
    (running : state.failed = false)
    (waits : ¬ (state.pendingTasks.length < workerCount ∧
      (ingestNext chunkSize state.ingest).isSome))
    (first : state.pendingTasks = ⟨chunk, true⟩ :: pendingTasks)
    (compressed : chunk.deflate crates = some deflated)
    (encoded : deflatedCodec.write deflated = some bytes) :
    archiveStep crates chunkSize workerCount state .write = some { state with
      pendingTasks
      archiveFile := state.archiveFile ++ bytes
      hashed := state.hashed ++ deflated.data } := by
  simp only [archiveStep, running, Bool.false_eq_true, if_false, if_neg waits]
  rw [first]
  simp only [compressed, encoded]

/-- How much is left to do: a chunk is ingested, its task completes, and it is written. -/
def work (chunkSize : ℕ) (state : Archiving) : ℕ :=
  3 * (ingestChunks chunkSize state.ingest).length +
    (state.pendingTasks.map fun task => if task.completed then 1 else 2).sum

/-- A loop that has not ended can go on. -/
theorem Keeps.progress {written : List Inflated} (workers : 0 < workerCount)
    (encodes : ∀ chunk ∈ ingestChunks chunkSize partitions, chunk.Encodes crates)
    (keeps : Keeps crates chunkSize partitions table written state)
    (unfinished : ¬ state.Finished chunkSize) :
    ∃ action next, archiveStep crates chunkSize workerCount state action = some next ∧
      next.work chunkSize < state.work chunkSize := by
  by_cases more : state.pendingTasks.length < workerCount ∧
      (ingestNext chunkSize state.ingest).isSome
  · obtain ⟨room, more⟩ := more
    obtain ⟨⟨chunk, rest⟩, ingested⟩ := Option.isSome_iff_exists.1 more
    refine ⟨.ingest, _, by simp [archiveStep, keeps.running, room, ingested]; rfl, ?_⟩
    simp [work, ingestChunks_of_some ingested]
    omega
  · cases tasks : state.pendingTasks with
    | nil =>
        rw [tasks, not_and] at more
        have ended := Option.not_isSome_iff_eq_none.1 (more workers)
        exact absurd ⟨keeps.running, tasks, ended⟩ unfinished
    | cons task pendingTasks =>
        obtain ⟨chunk, completed⟩ := task
        cases completed with
        | false =>
            refine ⟨.complete 0, _, by simp [archiveStep, keeps.running, tasks]; rfl, ?_⟩
            simp [work, tasks]
        | true =>
            have member : chunk ∈ ingestChunks chunkSize partitions := by
              rw [keeps.ordered, tasks]
              simp
            obtain ⟨deflated, compressed, encoded⟩ := encodes chunk member
            obtain ⟨bytes, encoded⟩ := Option.isSome_iff_exists.1 encoded
            refine ⟨.write, _, archiveStep_write keeps.running more tasks compressed encoded, ?_⟩
            simp [work, tasks]

/-- Every run of the loop writes the chunks in the order of the stream. -/
theorem Keeps.of_reach
    (encodes : ∀ chunk ∈ ingestChunks chunkSize partitions, chunk.Encodes crates)
    (reach : Reach (archiveStep crates chunkSize workerCount) (fun _ _ => True)
      (start partitions table) state) :
    ∃ written, Keeps crates chunkSize partitions table written state := by
  induction reach with
  | refl => exact ⟨[], .initial⟩
  | next earlier _ moved ih =>
      obtain ⟨written, keeps⟩ := ih
      exact keeps.step encodes moved

theorem exists_finished (workers : 0 < workerCount)
    (encodes : ∀ chunk ∈ ingestChunks chunkSize partitions, chunk.Encodes crates)
    (reach : Reach (archiveStep crates chunkSize workerCount) (fun _ _ => True)
      (start partitions table) state) :
    ∃ last, Reach (archiveStep crates chunkSize workerCount) (fun _ _ => True) state last ∧
      last.Finished chunkSize := by
  refine @Reach.exists_finished _ _ _ _ _
    (fun state => ∃ written, Keeps crates chunkSize partitions table written state) _
    (work chunkSize) ?_ ?_ (Keeps.of_reach encodes reach)
  · intro _ _ _ ⟨_, keeps⟩ _ moved
    exact keeps.step encodes moved
  · intro _ ⟨_, keeps⟩ unfinished
    obtain ⟨action, next, moved, smaller⟩ := keeps.progress workers encodes unfinished
    exact ⟨action, next, trivial, moved, smaller⟩

/-- At the end, every chunk is written and counted. -/
theorem Keeps.of_finished {written : List Inflated}
    (keeps : Keeps crates chunkSize partitions table written state)
    (finished : state.Finished chunkSize) :
    written = ingestChunks chunkSize partitions ∧ state.chunks = written.length := by
  obtain ⟨_, tasks, ended⟩ := finished
  have ordered := keeps.ordered
  have counted := keeps.counted
  rw [tasks, ingestChunks_of_none ended] at ordered
  rw [tasks] at counted
  exact ⟨by simpa using ordered.symm, counted⟩

end Archiving

end Krc721.Snapshot
