import Krc721.Model.KeyBytes
import Krc721.Model.NotificationCodec
import Krc721.Store.Encoding

/-! The rows of the partitions as the key-value store keeps them: a key by its own bytes, a value
in the Borsh format. -/

set_option autoImplicit false

namespace Krc721

open Borsh OrderedStore

/-- The bytes of a key, and the key that is read from bytes. -/
structure KeyFormat (K : Type) [LinearOrder K] where
  ownedKey : K → List ℕ
  fromKeyBytes : List ℕ → Option K
  fromKeyBytes_ownedKey : ∀ key, fromKeyBytes (ownedKey key) = some key
  lt_iff : ∀ {left right : K}, ownedKey left < ownedKey right ↔ left < right

/-! Keys. Reading is `none` where the source panics, and where `Tick::new_unchecked` would be
handed bytes that are no tick. -/

def Raw.Tick.checked (tick : Raw.Tick) : Option Krc721.Tick :=
  if head_le : 48 ≤ tick.bytes.headD 0 then some ⟨tick.bytes, tick.length_eq, head_le⟩ else none

@[simp] theorem Raw.Tick.checked_ofTick (tick : Krc721.Tick) :
    (Raw.Tick.ofTick tick).checked = some tick :=
  dif_pos tick.head_le

def u64Key : KeyFormat ℕ where
  ownedKey := u64Bytes
  fromKeyBytes := Raw.u64FromBytes
  fromKeyBytes_ownedKey := fromBeBytes_toBeBytes
  lt_iff := toBeBytes_lt_toBeBytes_iff (Nat.succ_pos 7) _ _

def hashKey : KeyFormat Hash where
  ownedKey := toBeBytes 32
  fromKeyBytes := fromBeBytes 32
  fromKeyBytes_ownedKey := fromBeBytes_toBeBytes
  lt_iff := toBeBytes_lt_toBeBytes_iff (Nat.succ_pos 31) _ _

def tickKey : KeyFormat Tick where
  ownedKey := Tick.bytes
  fromKeyBytes bytes := (Raw.Tick.newUnchecked bytes).bind Raw.Tick.checked
  fromKeyBytes_ownedKey tick := by
    have read := Raw.Tick.newUnchecked_bytes (.ofTick tick)
    rw [Raw.Tick.ofTick] at read
    rw [read]
    exact Raw.Tick.checked_ofTick tick
  lt_iff := Iff.rfl

def blueScoredChainBlockHashKey : KeyFormat BlueScoredChainBlockHash where
  ownedKey := BlueScoredChainBlockHash.ownedKey
  fromKeyBytes := Raw.Key.fromKeyBytes
  fromKeyBytes_ownedKey := Raw.BlueScoredChainBlockHash.roundTrips
  lt_iff := Iff.rfl

def deploymentKey : KeyFormat DeploymentKey where
  ownedKey := DeploymentKey.ownedKey
  fromKeyBytes bytes := (Raw.Key.fromKeyBytes bytes).bind fun key : Raw.DeploymentKey =>
    key.tick.checked.map fun tick => ⟨key.score, tick⟩
  fromKeyBytes_ownedKey key := by
    rw [Raw.DeploymentKey.fromKeyBytes_ownedKey, Option.bind_some, Raw.Tick.checked_ofTick]
    rfl
  lt_iff := Iff.rfl

def tokenMintsKey : KeyFormat TokenMintsKey where
  ownedKey := TokenMintsKey.ownedKey
  fromKeyBytes bytes := (Raw.Key.fromKeyBytes bytes).bind fun key : Raw.TokenMintsKey =>
    key.tick.checked.map fun tick => ⟨key.score, tick, key.tokenId, key.reversedSeqNumber⟩
  fromKeyBytes_ownedKey key := by
    rw [Raw.TokenMintsKey.fromKeyBytes_ownedKey, Option.bind_some, Raw.Tick.checked_ofTick]
    rfl
  lt_iff := Iff.rfl

def mintHistoryKey : KeyFormat MintHistoryKey where
  ownedKey := MintHistoryKey.ownedKey
  fromKeyBytes bytes := (Raw.Key.fromKeyBytes bytes).bind fun key : Raw.MintHistoryKey =>
    key.tick.checked.map fun tick => ⟨tick, key.reversedSeq, key.tokenId, key.score⟩
  fromKeyBytes_ownedKey key := by
    rw [Raw.MintHistoryKey.fromKeyBytes_ownedKey, Option.bind_some, Raw.Tick.checked_ofTick]
    rfl
  lt_iff := Iff.rfl

def ownershipHistoryKey : KeyFormat OwnershipHistoryKey where
  ownedKey := OwnershipHistoryKey.ownedKey
  fromKeyBytes bytes := (Raw.Key.fromKeyBytes bytes).bind fun key : Raw.OwnershipHistoryKey =>
    key.tick.checked.map fun tick => ⟨tick, key.tokenId, key.reversedScore⟩
  fromKeyBytes_ownedKey key := by
    rw [Raw.OwnershipHistoryKey.fromKeyBytes_ownedKey, Option.bind_some, Raw.Tick.checked_ofTick]
    rfl
  lt_iff := Iff.rfl

/-- The reading that the keys of a tick and a number share. -/
def fromTickAndNumber {K : Type} (build : Tick → ℕ → K) (bytes : List ℕ) : Option K :=
  (Raw.Key.fromKeyBytes bytes).bind fun key : Raw.OwnershipKey =>
    key.tick.checked.map fun tick => build tick key.tokenId

theorem fromTickAndNumber_append {K : Type} (build : Tick → ℕ → K) (tick : Tick) (number : ℕ) :
    fromTickAndNumber build (tick.bytes ++ u64Bytes number) = some (build tick number) := by
  have read : Raw.Key.fromKeyBytes (tick.bytes ++ u64Bytes number) =
      some (⟨.ofTick tick, number⟩ : Raw.OwnershipKey) :=
    Raw.OwnershipKey.fromKeyBytes_ownedKey ⟨tick, number⟩
  rw [fromTickAndNumber, read, Option.bind_some, Raw.Tick.checked_ofTick, Option.map_some]

def ownershipKey : KeyFormat OwnershipKey where
  ownedKey := OwnershipKey.ownedKey
  fromKeyBytes := fromTickAndNumber .mk
  fromKeyBytes_ownedKey key := fromTickAndNumber_append _ key.tick key.tokenId
  lt_iff := Iff.rfl

def rangeKey : KeyFormat RangeKey where
  ownedKey := RangeKey.ownedKey
  fromKeyBytes := fromTickAndNumber .mk
  fromKeyBytes_ownedKey key := fromTickAndNumber_append _ key.tick key.index
  lt_iff := Iff.rfl

def tokenMetaKey : KeyFormat TokenMetaKey where
  ownedKey := TokenMetaKey.ownedKey
  fromKeyBytes := fromTickAndNumber .mk
  fromKeyBytes_ownedKey key := fromTickAndNumber_append _ key.tick key.tokenId
  lt_iff := Iff.rfl

def listingByTickKey : KeyFormat ListingByTickKey where
  ownedKey := ListingByTickKey.ownedKey
  fromKeyBytes := fromTickAndNumber .mk
  fromKeyBytes_ownedKey key := fromTickAndNumber_append _ key.tick key.tokenId
  lt_iff := Iff.rfl

def addressHoldingKey : KeyFormat AddressHoldingKey where
  ownedKey := AddressHoldingKey.ownedKey
  fromKeyBytes bytes := (Raw.Key.fromKeyBytes bytes).bind fun key : Raw.AddressHoldingKey =>
    key.tick.checked.map fun tick => ⟨key.spk, tick, key.tokenId⟩
  fromKeyBytes_ownedKey key := by
    rw [Raw.AddressHoldingKey.fromKeyBytes_ownedKey, Option.bind_some, Raw.Tick.checked_ofTick]
    rfl
  lt_iff := Iff.rfl

def scoredDiscountKey : KeyFormat ScoredDiscountKey where
  ownedKey := ScoredDiscountKey.ownedKey
  fromKeyBytes bytes := (Raw.Key.fromKeyBytes bytes).bind fun key : Raw.ScoredDiscountKey =>
    key.tick.checked.map fun tick => ⟨key.score, tick, key.spk⟩
  fromKeyBytes_ownedKey key := by
    rw [Raw.ScoredDiscountKey.fromKeyBytes_ownedKey, Option.bind_some, Raw.Tick.checked_ofTick]
    rfl
  lt_iff := Iff.rfl

def vipKey : KeyFormat VipKey where
  ownedKey := VipKey.ownedKey
  fromKeyBytes bytes := (Raw.Key.fromKeyBytes bytes).bind fun key : Raw.VipKey =>
    key.tick.checked.map fun tick => ⟨key.spk, tick, key.reversedScore, key.fee⟩
  fromKeyBytes_ownedKey key := by
    rw [Raw.VipKey.fromKeyBytes_ownedKey, Option.bind_some, Raw.Tick.checked_ofTick]
    rfl
  lt_iff := Iff.rfl

inductive StatsKey where
  | indexerStats
deriving DecidableEq

/-- `StatsKey as u8`. -/
def StatsKey.code : StatsKey → ℕ
  | indexerStats => 1

theorem StatsKey.code_injective : Function.Injective code := by
  intro left right same
  cases left
  cases right
  rfl

instance : LinearOrder StatsKey := LinearOrder.lift' StatsKey.code StatsKey.code_injective

def statsKey : KeyFormat StatsKey where
  ownedKey key := [key.code]
  fromKeyBytes
    | 1 :: _ => some .indexerStats
    | _ => none
  fromKeyBytes_ownedKey key := by
    cases key
    rfl
  lt_iff := by
    intro left right
    cases left
    cases right
    exact iff_of_false (lt_irrefl _) (lt_irrefl _)

/-! Values. -/

/-- A constructor without a payload. -/
def constantVariant {Value : Type} [DecidableEq Value] (value : Value) : Variant Value where
  Payload := Unit
  codec := unit
  project given := if given = value then some () else none
  inject _ := value
  inject_project := by
    intro given payload projected
    split at projected
    · rename_i same
      exact same.symm
    · cases projected

def ctxValidationErrorCodec : Codec CtxValidationError :=
  enum [
    constantVariant .tickExists,
    constantVariant .tickReserved,
    constantVariant .insufficientRoyaltyFee,
    constantVariant .missingRoyaltyMintFee,
    constantVariant .invalidBeneficiaryForRoyaltyMintFee,
    constantVariant .tickNotFound,
    constantVariant .mintingFinished,
    constantVariant .tokenNotFound,
    constantVariant .wrongOwner,
    { Payload := Tick × ℕ × ℕ
      codec := pair tickCodec (pair u64Codec u64Codec)
      project := fun
        | .mintingNotStarted tick current start => some (tick, current, start)
        | _ => none
      inject := fun fields => .mintingNotStarted fields.1 fields.2.1 fields.2.2
      inject_project := by rintro ⟨⟩ _ ⟨⟩; rfl },
    constantVariant .wrongDeployer,
    constantVariant .discountFeeOverflow,
    constantVariant .tokenAlreadyListed,
    constantVariant .listingNotFound,
    constantVariant .wrongListingUtxo,
    constantVariant .tokenIsListed,
    constantVariant .invalidListingP2sh] (by decide)

def checkedOperationCodec : Codec CheckedOperation :=
  struct (pair operationCodec (option ctxValidationErrorCodec))
    (fun checked => (checked.operation, checked.error)) (fun fields => ⟨fields.1, fields.2⟩)
    fun _ => rfl

def deployInfoWithCommonCodec : Codec DeployInfoWithCommon :=
  struct (pair deployInfoCodec operationCommonCodec) (fun deploy => (deploy.info, deploy.common))
    (fun fields => ⟨fields.1, fields.2⟩) fun _ => rfl

def scoredDeployInfoWithCommonCodec : Codec ScoredDeployInfoWithCommon :=
  struct (pair u64Codec deployInfoWithCommonCodec) (fun entry => (entry.score, entry.info))
    (fun fields => ⟨fields.1, fields.2⟩) fun _ => rfl

def currentOwnershipValueCodec : Codec CurrentOwnershipValue :=
  struct (pair scriptPublicKeyCodec u64Codec) (fun value => (value.owner, value.modTxScore))
    (fun fields => ⟨fields.1, fields.2⟩) fun _ => rfl

def preModRangeCodec : Codec PreModRange :=
  struct (pair u64Codec (pair u64Codec (pair u64Codec (pair bool (pair bool bool)))))
    (fun range => (range.rangeIndex, range.start, range.size, range.removed, range.split,
      range.isInitial))
    (fun fields => ⟨fields.1, fields.2.1, fields.2.2.1, fields.2.2.2.1, fields.2.2.2.2.1,
      fields.2.2.2.2.2⟩) fun _ => rfl

def listingValueCodec : Codec ListingValue :=
  struct (pair scriptPublicKeyCodec (pair hashCodec (pair scriptPublicKeyCodec
      (pair numbers u64Codec))))
    (fun value => (value.seller, value.listingTxId, value.utxoAddress, value.redeemScript,
      value.opScore))
    (fun fields => ⟨fields.1, fields.2.1, fields.2.2.1, fields.2.2.2.1, fields.2.2.2.2⟩)
    fun _ => rfl

/-- The counters that both layouts of the statistics have. -/
def sharedStatsCodec : Codec (ℕ × ℕ × ℕ × ℕ × ℕ) :=
  pair u64Codec (pair u64Codec (pair u64Codec (pair u64Codec u64Codec)))

/-- A counter that older records lack. A read that fails takes what is left. -/
def readOrZero (bytes : Bytes) : ℕ × Bytes := (u64Codec.read bytes).getD (0, [])

theorem readOrZero_write {value : ℕ} {bytes : Bytes} (written : u64Codec.write value = some bytes)
    (rest : Bytes) : readOrZero (bytes ++ rest) = (value, rest) := by
  rw [readOrZero, u64Codec.read_write rest written, Option.getD_some]

/-- `Stats::deserialize_reader`. -/
def Stats.deserializeReader (bytes : Bytes) : Option (Stats × Bytes) := do
  let ((deployments, mints, transfers, royaltyFees, securityFees), bytes) ←
    sharedStatsCodec.read bytes
  let (listings, bytes) := readOrZero bytes
  let (sends, bytes) := readOrZero bytes
  some (⟨deployments, mints, transfers, royaltyFees, securityFees, listings, sends⟩, bytes)

def Stats.shared (stats : Stats) : ℕ × ℕ × ℕ × ℕ × ℕ :=
  (stats.deployments, stats.mints, stats.transfers, stats.royaltyFees, stats.securityFees)

def statsCodec : Codec Stats where
  write stats :=
    (pair sharedStatsCodec (pair u64Codec u64Codec)).write
      (stats.shared, stats.listings, stats.sends)
  read := Stats.deserializeReader
  read_write := by
    intro stats bytes rest written
    obtain ⟨front, writtenShared, written⟩ := Option.bind_eq_some_iff.1 written
    obtain ⟨back, writtenPair, rfl⟩ := Option.map_eq_some_iff.1 written
    obtain ⟨listings, writtenListings, writtenPair⟩ := Option.bind_eq_some_iff.1 writtenPair
    obtain ⟨sends, writtenSends, rfl⟩ := Option.map_eq_some_iff.1 writtenPair
    simp only at writtenShared writtenListings writtenSends
    simp only [Stats.deserializeReader, List.append_assoc,
      sharedStatsCodec.read_write _ writtenShared, readOrZero_write writtenListings,
      readOrZero_write writtenSends, Option.bind_eq_bind, Option.bind_some]
    rfl

/-- A record without the counters of the marketplace is read as one in which they are zero. -/
theorem statsCodec_fromSlice_shared {stats : Stats} {bytes : Bytes} (listings : stats.listings = 0)
    (sends : stats.sends = 0) (written : sharedStatsCodec.write stats.shared = some bytes) :
    statsCodec.fromSlice bytes = some stats := by
  have read := sharedStatsCodec.read_write [] written
  have short : readOrZero [] = (0, []) := rfl
  rw [List.append_nil] at read
  simp only [Codec.fromSlice, statsCodec, Stats.deserializeReader, read, short,
    Option.bind_eq_bind, Option.bind_some]
  rw [Stats.shared, ← listings]
  obtain ⟨_, _, _, _, _, _, _⟩ := stats
  simp only at listings sends
  rw [sends, listings]

/-! Rows. -/

/-- A partition of the key-value store. -/
abbrev ByteStore := Partition (List ℕ) Bytes

def KeyFormat.rows {K V : Type} [LinearOrder K] (key : KeyFormat K) (codec : Codec V) :
    RowFormat K V (List ℕ) Bytes where
  writeKey := key.ownedKey
  readKey := key.fromKeyBytes
  readKey_writeKey := key.fromKeyBytes_ownedKey
  lt_iff := key.lt_iff
  writeValue := codec.write
  readValue := codec.fromSlice
  readValue_of_writeValue := codec.fromSlice_write

end Krc721
