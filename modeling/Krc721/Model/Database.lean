import Krc721.Model.Keys

/-! The database: its partitions, grouped by the part of the processor that writes them,
and the lookups that scan a partition. A write transaction is a value of `Db` that the
functions of the processor pass on; dropping it is the rollback. -/

set_option autoImplicit false

namespace Krc721

open OrderedStore

structure ScoredDeployInfoWithCommon where
  score : ℕ
  info : DeployInfoWithCommon
deriving DecidableEq, Inhabited

structure CurrentOwnershipValue where
  owner : ScriptPublicKey
  modTxScore : ℕ
deriving DecidableEq, Inhabited

/-- The state of a range before a token id was taken from it, and what was done to it. -/
structure PreModRange where
  rangeIndex : ℕ
  start : ℕ
  size : ℕ
  removed : Bool
  split : Bool
  isInitial : Bool
deriving DecidableEq, Inhabited

structure ListingValue where
  seller : ScriptPublicKey
  listingTxId : TransactionId
  utxoAddress : ScriptPublicKey
  redeemScript : List ℕ
  opScore : ℕ
deriving DecidableEq, Inhabited

/-! The persisted counters. `StatsDiffs` is an alias of `Stats`. -/

structure Stats where
  deployments : ℕ
  mints : ℕ
  transfers : ℕ
  royaltyFees : ℕ
  securityFees : ℕ
  listings : ℕ
  sends : ℕ
deriving DecidableEq, Inhabited

abbrev StatsDiffs := Stats

def saturatingAdd (left right : ℕ) : ℕ := min (left + right) u64Max

namespace Stats

def zero : Stats := ⟨0, 0, 0, 0, 0, 0, 0⟩

def add (left right : Stats) : Stats where
  deployments := saturatingAdd left.deployments right.deployments
  mints := saturatingAdd left.mints right.mints
  transfers := saturatingAdd left.transfers right.transfers
  royaltyFees := saturatingAdd left.royaltyFees right.royaltyFees
  securityFees := saturatingAdd left.securityFees right.securityFees
  listings := saturatingAdd left.listings right.listings
  sends := saturatingAdd left.sends right.sends

/-- `saturating_sub` in every counter; subtraction of naturals already stops at zero. -/
def sub (left right : Stats) : Stats where
  deployments := left.deployments - right.deployments
  mints := left.mints - right.mints
  transfers := left.transfers - right.transfers
  royaltyFees := left.royaltyFees - right.royaltyFees
  securityFees := left.securityFees - right.securityFees
  listings := left.listings - right.listings
  sends := left.sends - right.sends

instance : Add Stats := ⟨add⟩

instance : Sub Stats := ⟨sub⟩

instance : Zero Stats := ⟨zero⟩

end Stats

/-! The groups of partitions. -/

/-- The accepted chain blocks and their reverse index. -/
@[ext] structure ChainStore where
  chainBlockScores : Partition BlueScoredChainBlockHash Unit := ∅
  blockhashToScore : Partition RpcHash ℕ := ∅

/-- The log of processed operations and its index by transaction. -/
@[ext] structure LogStore where
  operationHistory : Partition ℕ CheckedOperation := ∅
  txIdToOpscore : Partition TransactionId ℕ := ∅

@[ext] structure CollectionStore where
  collectionDeployments : Partition DeploymentKey DeployInfoWithCommon := ∅
  collectionRegistry : Partition Tick ScoredDeployInfoWithCommon := ∅

@[ext] structure OwnershipStore where
  mintHistory : Partition MintHistoryKey Unit := ∅
  ownershipChanges : Partition TokenMintsKey Unit := ∅
  ownershipHistory : Partition OwnershipHistoryKey ScriptPublicKey := ∅
  currentOwnership : Partition OwnershipKey CurrentOwnershipValue := ∅
  addressHoldings : Partition AddressHoldingKey ℕ := ∅

/-- The ranges of token ids that are still to be minted, as `(start, size)` by index. -/
@[ext] structure RangeStore where
  availableRanges : Partition RangeKey (ℕ × ℕ) := ∅
  rangeLengths : Partition Tick ℕ := ∅
  tokenIdMeta : Partition TokenMetaKey PreModRange := ∅

/-- What the validation of an operation reads: the state that processing the operations of
the chain once more reproduces. -/
@[ext] structure Ledger extends LogStore, CollectionStore, OwnershipStore, RangeStore where
  vip : Partition VipKey Unit := ∅
  listings : Partition OwnershipKey ListingValue := ∅
  listingsByTick : Partition ListingByTickKey Unit := ∅

/-- The whole database. No operation is validated against the partitions added here. -/
structure Db extends Ledger, ChainStore where
  scoreToDiscount : Partition ScoredDiscountKey ℕ := ∅
  addressListings : Partition AddressHoldingKey ℕ := ∅
  stats : Option Stats := none
  notificationQueue : Partition ℕ VirtualChainChanges := ∅

def Db.new : Db := {}

/-! Lookups that scan a partition. -/

/-- `chain_block_scores.last_accepted_block_wtx`. -/
def ChainStore.lastAcceptedBlock (chain : ChainStore) : Option BlueScoredChainBlockHash :=
  chain.chainBlockScores.lastKey

/-- The sequence number of the first `mint_history` entry under the prefix of a tick. -/
def OwnershipStore.lastMintedTokenSeqNo (store : OwnershipStore) (tick : Tick) : Option ℕ :=
  (store.mintHistory.firstWhere fun key => tick.bytes.isPrefixOf key.ownedKey).map
    fun entry => u64Max - entry.1.reversedSeq

/-- The first `ownership_history` entry under the prefix of a token. -/
def OwnershipStore.lastOwnerWithTxModScore (store : OwnershipStore) (token : OwnershipKey) :
    Option (ScriptPublicKey × ℕ) :=
  (store.ownershipHistory.firstWhere fun key => token.ownedKey.isPrefixOf key.ownedKey).map
    fun entry => (entry.2, u64Max - entry.1.reversedScore)

/-- The fee of the first `vip` entry in the byte range of an address and a tick. -/
def lastFee (vip : Partition VipKey Unit) (spk : ScriptPublicKey) (tick : Tick) : Option ℕ :=
  (vip.firstWhere fun key =>
    decide (⟨spk, tick, 0, 0⟩ ≤ key) && decide (key < ⟨spk, tick, u64Max, u64Max⟩)).map
      fun entry => entry.1.fee

/-- `score_to_discount.range_from_score_wtx`: the entries whose key bytes are at or above
the bytes of a score. -/
def rangeFromScore (discounts : Partition ScoredDiscountKey ℕ) (txScore : ℕ) :
    List (ScoredDiscountKey × ℕ) :=
  discounts.entries.filter fun entry => decide (u64Bytes txScore ≤ entry.1.ownedKey)

/-- The scan reads the key bytes, and the score leads them. -/
theorem mem_rangeFromScore {discounts : Partition ScoredDiscountKey ℕ} {txScore : ℕ}
    {key : ScoredDiscountKey} {fee : ℕ} :
    (key, fee) ∈ rangeFromScore discounts txScore ↔
      discounts.get key = some fee ∧ txScore ≤ key.score := by
  have bytes : u64Bytes txScore ≤ key.ownedKey ↔ txScore ≤ key.score := by
    rw [← not_lt, ← not_lt, ScoredDiscountKey.ownedKey, ← List.append_nil (u64Bytes txScore),
      toBeBytes_append_lt_iff]
    simp
  simp [rangeFromScore, List.mem_filter, Partition.mem_entries, bytes]

end Krc721
