import Krc721.Storage.BytePartition
import Krc721.Ingest.RejectionLog

/-! The keyspace of the database: its partitions, and the write transaction that is open on them.
A caller of the database cannot tell the bytes of the store from the finite maps they encode. -/

set_option autoImplicit false

namespace Krc721

open OrderedStore Transition

/-! Keyspaces of any partitions. -/

section Keyspaces

variable {Name : Type} {Key Value : Name → Type} {Store Store' : Name → Type}

/-- What is committed, and what the write transaction has made of it. -/
structure Keyspace (Store : Name → Type) where
  committed : ∀ name, Store name
  pending : ∀ name, Store name

inductive Request (Key Value : Name → Type) where
  /-- A method with a `WriteTransaction`. -/
  | wtx (name : Name) (call : PartitionCall (Key name) (Value name))
  /-- A method with a `ReadTransaction`, which sees what is committed. -/
  | rtx (name : Name) (call : PartitionCall (Key name) (Value name))
  | commit
  | rollback

def Request.Answer : Request Key Value → Type
  | wtx _ call | rtx _ call => call.Answer
  | commit | rollback => Unit

variable [DecidableEq Name]

def Keyspace.answer
    (partition : ∀ name,
      Machine (Store name) (PartitionCall (Key name) (Value name)) PartitionCall.Answer) :
    Machine (Keyspace Store) (Request Key Value) Request.Answer
  | keyspace, .wtx name call =>
      let answered := partition name (keyspace.pending name) call
      (answered.1, { keyspace with pending := Function.update keyspace.pending name answered.2 })
  | keyspace, .rtx name call => ((partition name (keyspace.committed name) call).1, keyspace)
  | keyspace, .commit => ((), { keyspace with committed := keyspace.pending })
  | keyspace, .rollback => ((), { keyspace with pending := keyspace.committed })

/-- Both states of the keyspace are related, partition by partition. -/
def Keyspace.Related (related : ∀ name, Store name → Store' name → Prop)
    (keyspace : Keyspace Store) (keyspace' : Keyspace Store') : Prop :=
  (∀ name, related name (keyspace.committed name) (keyspace'.committed name)) ∧
    ∀ name, related name (keyspace.pending name) (keyspace'.pending name)

theorem Keyspace.answer_simulates {related : ∀ name, Store name → Store' name → Prop}
    {partition : ∀ name,
      Machine (Store name) (PartitionCall (Key name) (Value name)) PartitionCall.Answer}
    {partition' : ∀ name,
      Machine (Store' name) (PartitionCall (Key name) (Value name)) PartitionCall.Answer}
    (simulates : ∀ name, Simulates (related name) (partition name) (partition' name)) :
    Simulates (Keyspace.Related related) (Keyspace.answer partition)
      (Keyspace.answer partition') := by
  intro keyspace keyspace' request same
  obtain ⟨committed, pending⟩ := same
  cases request with
  | wtx name call =>
      obtain ⟨answer, after⟩ := simulates name _ _ call (pending name)
      refine ⟨answer, committed, fun other => ?_⟩
      simp only [Keyspace.answer]
      by_cases same : other = name
      · subst same
        rw [Function.update_self, Function.update_self]
        exact after
      · rw [Function.update_of_ne same, Function.update_of_ne same]
        exact pending other
  | rtx name call => exact ⟨(simulates name _ _ call (committed name)).1, committed, pending⟩
  | commit => exact ⟨rfl, pending, pending⟩
  | rollback => exact ⟨rfl, committed, committed⟩

end Keyspaces

/-! The partitions that `Db::try_open` opens. -/

/-- What a partition keeps, and how. -/
structure RowType where
  Key : Type
  Value : Type
  order : LinearOrder Key
  format : RowFormat Key Value (List ℕ) Borsh.Bytes

instance RowType.keyOrder (rows : RowType) : LinearOrder rows.Key := rows.order

def RowType.of {K V : Type} [LinearOrder K] (key : KeyFormat K) (codec : Borsh.Codec V) :
    RowType := ⟨K, V, inferInstance, key.rows codec⟩

inductive PartitionName where
  | blockhashToScore
  | chainBlockScores
  | operationHistory
  | txIdToOpscore
  | collectionDeployments
  | tickCreationHistory
  | ownershipChanges
  | mintHistory
  | ownershipHistory
  | currentOwnership
  | availableRanges
  | tokenIdMeta
  | addressHoldings
  | rangeLengths
  | databaseStats
  | notificationQueue
  | scoreToDiscount
  | vip
  | txIdToRejection
  | serialToRejectedTxId
  | listings
  | listingsByTick
  | addressListings
deriving DecidableEq

def PartitionName.rows : PartitionName → RowType
  | blockhashToScore => .of hashKey u64Codec
  | chainBlockScores => .of blueScoredChainBlockHashKey Borsh.unit
  | operationHistory => .of u64Key checkedOperationCodec
  | txIdToOpscore => .of hashKey u64Codec
  | collectionDeployments => .of deploymentKey deployInfoWithCommonCodec
  | tickCreationHistory => .of tickKey scoredDeployInfoWithCommonCodec
  | ownershipChanges => .of tokenMintsKey Borsh.unit
  | mintHistory => .of mintHistoryKey Borsh.unit
  | ownershipHistory => .of ownershipHistoryKey scriptPublicKeyCodec
  | currentOwnership => .of ownershipKey currentOwnershipValueCodec
  | availableRanges => .of rangeKey (Borsh.pair u64Codec u64Codec)
  | tokenIdMeta => .of tokenMetaKey preModRangeCodec
  | addressHoldings => .of addressHoldingKey u64Codec
  | rangeLengths => .of tickKey u64Codec
  | databaseStats => .of statsKey statsCodec
  | notificationQueue => .of u64Key virtualChainChangesCodec
  | scoreToDiscount => .of scoredDiscountKey u64Codec
  | vip => .of vipKey Borsh.unit
  | txIdToRejection => .of hashKey Borsh.string
  | serialToRejectedTxId => .of u64Key hashCodec
  | listings => .of ownershipKey listingValueCodec
  | listingsByTick => .of listingByTickKey Borsh.unit
  | addressListings => .of addressHoldingKey u64Codec

/-- A request to the database. -/
abbrev DbRequest : Type :=
  Request (fun name : PartitionName => name.rows.Key) fun name => name.rows.Value

/-- The database as the store keeps it. -/
abbrev DbBytes : Type := Keyspace fun _ : PartitionName => ByteStore

/-- The database as finite maps. -/
abbrev DbRows : Type :=
  Keyspace fun name : PartitionName => Partition name.rows.Key name.rows.Value

def DbBytes.answer : Machine DbBytes DbRequest Request.Answer :=
  Keyspace.answer fun name => ByteStore.answer name.rows.format

def DbRows.answer : Machine DbRows DbRequest Request.Answer :=
  Keyspace.answer fun name => rowsAnswer name.rows.format

def DbBytes.Encodes : DbBytes → DbRows → Prop :=
  Keyspace.Related fun name => name.rows.format.Encodes

/-- Whatever a caller does, it gets from the bytes what it would get from the maps: no row fails
to be read, and every scan comes in the order of the keys. -/
theorem DbBytes.run_eq {Result : Type} (program : Program DbRequest Request.Answer Result)
    {bytes : DbBytes} {rows : DbRows} (encodes : bytes.Encodes rows) :
    (program.run DbBytes.answer bytes).1 = (program.run DbRows.answer rows).1 ∧
      DbBytes.Encodes (program.run DbBytes.answer bytes).2 (program.run DbRows.answer rows).2 := by
  apply Program.run_simulates
  · apply Keyspace.answer_simulates
    intro name
    exact ByteStore.answer_simulates name.rows.format
  · exact encodes

/-! The statistics. -/

abbrev DbProgram : Type → Type := Program DbRequest Request.Answer

namespace StatsPartition

def load : DbProgram (Except StoreError Stats) :=
  .ask (.rtx .databaseStats (.get StatsKey.indexerStats))
    fun found : Except StoreError (Option Stats) => .done (found.map (·.getD .zero))

/-- `addition` and `removal`. -/
def update (change : Stats → Stats) : DbProgram (Except StoreError Stats) :=
  .ask (.wtx .databaseStats (.get StatsKey.indexerStats)) fun
    | .error error => .done (.error error)
    | .ok stats =>
        let stats := change (Option.getD stats Stats.zero)
        .ask (.wtx .databaseStats (.insert StatsKey.indexerStats stats)) fun
          | .error error => .done (.error error)
          | .ok () => .done (.ok stats)

def addition (diffs : StatsDiffs) : DbProgram (Except StoreError Stats) := update (· + diffs)

def removal (diffs : StatsDiffs) : DbProgram (Except StoreError Stats) := update (· - diffs)

end StatsPartition

/-- The database with the given partitions, all of it committed. -/
def Keyspace.of {Name : Type} {Store : Name → Type} (partitions : ∀ name, Store name) :
    Keyspace Store := ⟨partitions, partitions⟩

def Db.rows (db : Db) (rejections : RejectionStore) :
    ∀ name : PartitionName, Partition name.rows.Key name.rows.Value
  | .blockhashToScore => db.blockhashToScore
  | .chainBlockScores => db.chainBlockScores
  | .operationHistory => db.operationHistory
  | .txIdToOpscore => db.txIdToOpscore
  | .collectionDeployments => db.collectionDeployments
  | .tickCreationHistory => db.collectionRegistry
  | .ownershipChanges => db.ownershipChanges
  | .mintHistory => db.mintHistory
  | .ownershipHistory => db.ownershipHistory
  | .currentOwnership => db.currentOwnership
  | .availableRanges => db.availableRanges
  | .tokenIdMeta => db.tokenIdMeta
  | .addressHoldings => db.addressHoldings
  | .rangeLengths => db.rangeLengths
  | .databaseStats =>
      match db.stats with
      | none => (∅ : Partition StatsKey Stats)
      | some stats => (∅ : Partition StatsKey Stats).insert .indexerStats stats
  | .notificationQueue => db.notificationQueue
  | .scoreToDiscount => db.scoreToDiscount
  | .vip => db.vip
  | .txIdToRejection => rejections.txIdToRejection
  | .serialToRejectedTxId => rejections.serialToRejectedTxId
  | .listings => db.listings
  | .listingsByTick => db.listingsByTick
  | .addressListings => db.addressListings

namespace Sample

/-- Statistics without the counters of the marketplace, in the layout of five numbers. -/
def oldStats : Stats := ⟨10, 20, 30, 40, 50, 0, 0⟩

def oldStatsBytes : Borsh.Bytes :=
  [10, 0, 0, 0, 0, 0, 0, 0, 20, 0, 0, 0, 0, 0, 0, 0, 30, 0, 0, 0, 0, 0, 0, 0,
    40, 0, 0, 0, 0, 0, 0, 0, 50, 0, 0, 0, 0, 0, 0, 0]

/-- An old database with two chain blocks. -/
def oldBytes : DbBytes :=
  .of fun
    | .databaseStats => (∅ : ByteStore).insert (statsKey.ownedKey .indexerStats) oldStatsBytes
    | .chainBlockScores => ((∅ : ByteStore).insert
        (BlueScoredChainBlockHash.ownedKey ⟨7, 101⟩) []).insert
        (BlueScoredChainBlockHash.ownedKey ⟨300, 102⟩) []
    | .blockhashToScore => ((∅ : ByteStore).insert (hashKey.ownedKey 101)
        [7, 0, 0, 0, 0, 0, 0, 0]).insert (hashKey.ownedKey 102) [44, 1, 0, 0, 0, 0, 0, 0]
    | _ => ∅

def oldRows : DbRows :=
  .of (Db.rows {
    chainBlockScores := ((∅ : Partition _ _).insert ⟨7, 101⟩ ()).insert ⟨300, 102⟩ ()
    blockhashToScore := ((∅ : Partition _ _).insert 101 7).insert 102 300
    stats := some oldStats } .new)

theorem oldBytes_encodes : oldBytes.Encodes oldRows := by
  have read : statsCodec.fromSlice oldStatsBytes = some oldStats :=
    statsCodec_fromSlice_shared rfl rfl (by decide +kernel)
  have partitions : ∀ name : PartitionName,
      name.rows.format.Encodes (oldBytes.committed name) (oldRows.committed name) := by
    intro name
    cases name with
    | databaseStats => exact RowFormat.Encodes.empty.insert StatsKey.indexerStats read
    | chainBlockScores =>
        exact (RowFormat.Encodes.empty.insert (⟨7, 101⟩ : BlueScoredChainBlockHash) rfl).insert
          ⟨300, 102⟩ rfl
    | blockhashToScore =>
        have low : u64Codec.fromSlice [7, 0, 0, 0, 0, 0, 0, 0] = some 7 := by decide +kernel
        have high : u64Codec.fromSlice [44, 1, 0, 0, 0, 0, 0, 0] = some 300 := by decide +kernel
        exact (RowFormat.Encodes.empty.insert (101 : Hash) low).insert (102 : Hash) high
    | _ => exact RowFormat.Encodes.empty
  exact ⟨partitions, partitions⟩

/-- A block is put behind the last one and a deployment is counted. When the transaction is
committed, the blocks from blue score 256 on are read. -/
def acceptBlock : DbProgram (Except StoreError (Option BlueScoredChainBlockHash) ×
    Except StoreError (Option Stats) ×
    List (Except StoreError (BlueScoredChainBlockHash × Unit))) :=
  .ask (.wtx .chainBlockScores .lastKey) fun last =>
  .ask (.wtx .chainBlockScores (.insert (⟨301, 103⟩ : BlueScoredChainBlockHash) ())) fun _ =>
  .ask (.wtx .databaseStats (.insert StatsKey.indexerStats (oldStats + ⟨1, 2, 0, 0, 0, 0, 0⟩)))
    fun _ =>
  .ask .commit fun _ =>
  .ask (.rtx .databaseStats (.get StatsKey.indexerStats)) fun stats =>
  .ask (.rtx .chainBlockScores
    (.range (.included (⟨256, 0⟩ : BlueScoredChainBlockHash)) .unbounded)) fun blocks =>
  .done (last, stats, blocks)

end Sample

theorem DbBytes.run_eq_oldStats :
    (Sample.acceptBlock.run DbBytes.answer Sample.oldBytes).1 =
        (.ok (some ⟨300, 102⟩), .ok (some ⟨11, 22, 30, 40, 50, 0, 0⟩),
          [.ok (⟨300, 102⟩, ()), .ok (⟨301, 103⟩, ())]) ∧
      DbBytes.Encodes (Sample.acceptBlock.run DbBytes.answer Sample.oldBytes).2
        (Sample.acceptBlock.run DbRows.answer Sample.oldRows).2 := by
  obtain ⟨same, encodes⟩ := DbBytes.run_eq Sample.acceptBlock Sample.oldBytes_encodes
  exact ⟨same.trans (by decide +kernel), encodes⟩

end Krc721
