import Krc721.Store.Partition

/-! The records of the protocol: ticks, script public keys, the six operations with their
common part, and what the node hands over. A `u64` or a byte is a natural number, and the
field `to` of the source is `toSpk`. -/

set_option autoImplicit false

namespace Krc721

def u64Max : ℕ := 2 ^ 64 - 1

theorem lt_two_pow_iff_le_u64Max {value : ℕ} : value < 2 ^ 64 ↔ value ≤ u64Max := by
  unfold u64Max
  omega

/-- A 32-byte hash, read as a big-endian number. Its default is zero. -/
abbrev Hash := ℕ

abbrev TransactionId := Hash

abbrev RpcHash := Hash

def TICK_LENGTH : ℕ := 10

/-- A NUL-padded tick. Every constructor that validates its input leaves an alphanumeric
first character, whose first byte is at least the digit `0`. -/
structure Tick where
  bytes : List ℕ
  length_eq : bytes.length = TICK_LENGTH
  head_le : 48 ≤ bytes.headD 0
deriving DecidableEq

namespace Tick

theorem bytes_injective : Function.Injective Tick.bytes := by
  rintro ⟨bytes, _, _⟩ ⟨bytes', _, _⟩ rfl
  rfl

instance : LinearOrder Tick := LinearOrder.lift' Tick.bytes bytes_injective

theorem lt_iff {left right : Tick} : left < right ↔ left.bytes < right.bytes := Iff.rfl

/-- `Tick::MIN`, the tick `0`. -/
def MIN : Tick := ⟨[48, 0, 0, 0, 0, 0, 0, 0, 0, 0], rfl, le_rfl⟩

instance : Inhabited Tick := ⟨MIN⟩

/-- Scans that start at `Tick::MIN` miss no tick. -/
theorem min_le (tick : Tick) : MIN ≤ tick := by
  rw [← not_lt, lt_iff]
  obtain ⟨bytes, length_eq, head_le⟩ := tick
  match bytes, length_eq, head_le with
  | [b0, b1, b2, b3, b4, b5, b6, b7, b8, b9], _, head_le =>
      simp only [List.headD_cons] at head_le
      simp only [MIN, List.cons_lt_cons_iff, not_lt_zero, List.not_lt_nil, and_false,
        or_false]
      omega

end Tick

structure ScriptPublicKey where
  version : ℕ
  script : List ℕ
deriving DecidableEq, Inhabited

structure Attribute where
  traitType : String
  value : String
  displayType : Option String
deriving DecidableEq, Inhabited

structure LocalMetadata where
  name : String
  description : String
  image : String
  attributes : Option (List Attribute)
deriving DecidableEq, Inhabited

inductive Metadata where
  | remote (buri : String)
  | localData (metadata : LocalMetadata)
deriving DecidableEq, Inhabited

def Metadata.hasIncompatibleUriPrefix (acceptable : List String) : Metadata → Bool
  | .remote buri => acceptable.all fun uriPrefix => !uriPrefix.toList.isPrefixOf buri.toList
  | .localData metadata =>
      acceptable.all fun uriPrefix => !uriPrefix.toList.isPrefixOf metadata.image.toList

structure RoyaltyDetails where
  beneficiary : ScriptPublicKey
  fee : ℕ
deriving DecidableEq, Inhabited

structure DeployInfo where
  metadata : Metadata
  max : ℕ
  deployer : ScriptPublicKey
  royalty : Option RoyaltyDetails
  mintStartDaa : ℕ
  premint : ℕ
deriving DecidableEq, Inhabited

structure MintInfo where
  tokenId : ℕ
  toSpk : ScriptPublicKey
  royalty : Option RoyaltyDetails
deriving DecidableEq, Inhabited

structure TransferInfo where
  tokenId : ℕ
  toSpk : ScriptPublicKey
deriving DecidableEq, Inhabited

structure DiscountInfo where
  toSpk : ScriptPublicKey
  fee : ℕ
deriving DecidableEq, Inhabited

structure ListingInfo where
  tokenId : ℕ
  utxoAddress : ScriptPublicKey
  redeemScript : List ℕ
deriving DecidableEq, Inhabited

structure SendInfo where
  tokenId : ℕ
  paymentAmount : ℕ
  buyer : Option ScriptPublicKey
  listingUtxoTxid : TransactionId
deriving DecidableEq, Inhabited

structure OperationCommon where
  tick : Tick
  txId : TransactionId
  blockTime : ℕ
  sender : ScriptPublicKey
  fee : ℕ
  acceptingBlockDaaScore : ℕ
deriving DecidableEq, Inhabited

inductive OperationInfo where
  | deploy (info : DeployInfo)
  | mint (info : MintInfo)
  | transfer (info : TransferInfo)
  | discount (info : DiscountInfo)
  | list (info : ListingInfo)
  | send (info : SendInfo)
deriving DecidableEq, Inhabited

structure Operation where
  common : OperationCommon
  info : OperationInfo
deriving DecidableEq, Inhabited

inductive CtxValidationError where
  | tickExists
  | tickReserved
  | insufficientRoyaltyFee
  | missingRoyaltyMintFee
  | invalidBeneficiaryForRoyaltyMintFee
  | tickNotFound
  | mintingFinished
  | tokenNotFound
  | wrongOwner
  | mintingNotStarted (tick : Tick) (currentAcceptingBlockDaaScore : ℕ)
      (startAcceptingBlockDaaScore : ℕ)
  | wrongDeployer
  | discountFeeOverflow
  | tokenAlreadyListed
  | listingNotFound
  | wrongListingUtxo
  | tokenIsListed
  | invalidListingP2sh
deriving DecidableEq, Inhabited

structure CheckedOperation where
  operation : Operation
  error : Option CtxValidationError
deriving DecidableEq, Inhabited

structure DeployInfoWithCommon where
  info : DeployInfo
  common : OperationCommon
deriving DecidableEq, Inhabited

structure MergesetOperation where
  blockIndexWithinMergeset : ℕ
  indexWithinMergedBlock : ℕ
  operation : Operation
deriving DecidableEq, Inhabited

structure Mergeset where
  operations : List MergesetOperation
  entropy : ℕ
  blueScore : ℕ
  acceptedChainBlockHash : RpcHash
deriving DecidableEq, Inhabited

structure VirtualChainChanges where
  removedChainBlockHashes : List RpcHash
  forcedRollbackBlueScore : Option ℕ
  mergesets : List Mergeset
deriving DecidableEq, Inhabited

end Krc721
