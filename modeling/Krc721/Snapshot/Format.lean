import Krc721.Codec.Borsh
import Krc721.Store.Partition

/-! The archive of a snapshot: a header, a table of the partitions, and chunks of their records,
each of which is compressed by itself. -/

set_option autoImplicit false

namespace Krc721.Snapshot

open Borsh

/-- A `u16`. -/
abbrev PartitionId : Type := UInt 2

instance u16NeZero : NeZero (256 ^ 2) := ⟨by decide⟩

instance u64NeZero : NeZero (256 ^ 8) := ⟨by decide⟩

structure Record where
  k : Bytes
  v : Bytes
deriving DecidableEq

def Record.len (record : Record) : ℕ := record.k.length + record.v.length

structure PartitionTable where
  version : UInt 2
  partitions : List (PartitionId × String)
deriving DecidableEq

structure Inflated where
  partitionId : PartitionId
  records : List Record
deriving DecidableEq

@[ext] structure Deflated where
  partitionId : PartitionId
  data : Bytes
deriving DecidableEq

def HEADER_MAGIC : { bytes : Bytes // bytes.length = 8 } :=
  ⟨[75, 83, 80, 82, 45, 55, 50, 49], rfl⟩

def DATA_OFFSET : ℕ := 128

theorem DATA_OFFSET_lt : DATA_OFFSET < 256 ^ 8 := by decide

abbrev Hash : Type := { bytes : Bytes // bytes.length = 32 }

structure Header where
  magic : { bytes : Bytes // bytes.length = 8 } := HEADER_MAGIC
  version : UInt 8 := 1
  chunks : UInt 8 := 0
  offset : UInt 8 := ⟨DATA_OFFSET, DATA_OFFSET_lt⟩
  hash : Hash := ⟨List.replicate 32 0, rfl⟩
deriving DecidableEq

/-! The derived encodings. -/

def recordCodec : Codec Record :=
  struct (pair blob blob) (fun record => (record.k, record.v)) (fun fields => ⟨fields.1, fields.2⟩)
    fun _ => rfl

def recordsCodec : Codec (List Record) := vec recordCodec

def deflatedCodec : Codec Deflated :=
  struct (pair (uint 2) blob) (fun deflated => (deflated.partitionId, deflated.data))
    (fun fields => ⟨fields.1, fields.2⟩) fun _ => rfl

def partitionTableCodec : Codec PartitionTable :=
  struct (pair (uint 2) (vec (pair (uint 2) string)))
    (fun table => (table.version, table.partitions)) (fun fields => ⟨fields.1, fields.2⟩)
    fun _ => rfl

def headerCodec : Codec Header :=
  struct (pair (array 8) (pair (uint 8) (pair (uint 8) (pair (uint 8) (array 32)))))
    (fun header => (header.magic, header.version, header.chunks, header.offset, header.hash))
    (fun fields => ⟨fields.1, fields.2.1, fields.2.2.1, fields.2.2.2.1, fields.2.2.2.2⟩)
    fun _ => rfl

/-- A header is always written, in half of the space in front of the table. -/
theorem exists_write_header (header : Header) :
    ∃ bytes, headerCodec.write header = some bytes ∧ bytes.length = 64 := by
  refine ⟨_, rfl, ?_⟩
  simp [header.magic.2, header.hash.2]

/-- What the archive takes from other crates. -/
structure Crates where
  deflate : Bytes → Bytes
  inflate : Bytes → Option Bytes
  sha256 : Bytes → Hash

/-- `DeflateDecoder` undoes `DeflateEncoder`. -/
def Crates.InflateUndoesDeflate (crates : Crates) : Prop :=
  ∀ data, crates.inflate (crates.deflate data) = some data

namespace Inflated

def deflate (crates : Crates) (chunk : Inflated) : Option Deflated :=
  (recordsCodec.write chunk.records).map fun data =>
    ⟨chunk.partitionId, crates.deflate data⟩

end Inflated

namespace Deflated

def inflate (crates : Crates) (deflated : Deflated) : Option Inflated :=
  (crates.inflate deflated.data).bind fun data =>
    (recordsCodec.fromSlice data).map fun records => ⟨deflated.partitionId, records⟩

end Deflated

theorem Inflated.inflate_deflate {crates : Crates} (inflates : crates.InflateUndoesDeflate)
    {chunk : Inflated} {deflated : Deflated} (compressed : chunk.deflate crates = some deflated) :
    deflated.inflate crates = some chunk ∧ deflated.partitionId = chunk.partitionId := by
  obtain ⟨data, written, rfl⟩ := Option.map_eq_some_iff.1 compressed
  refine ⟨?_, rfl⟩
  rw [Deflated.inflate, inflates data, Option.bind_some, recordsCodec.fromSlice_write written,
    Option.map_some]

end Krc721.Snapshot
