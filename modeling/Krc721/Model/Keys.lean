import Krc721.Model.Operation

/-! The keys of the database partitions with their byte layouts. Every partition iterates
in the byte order of its keys; for the fixed-width keys that order is the lexicographic
order of the fields. -/

set_option autoImplicit false

namespace Krc721

open OrderedStore

/-- What a key needs of its tick: ten bytes that determine it and that it is ordered by. -/
class TickBytes (T : Type) extends LinearOrder T where
  bytes : T → List ℕ
  length_eq : ∀ tick, (bytes tick).length = TICK_LENGTH
  bytes_injective : Function.Injective bytes
  lt_iff_bytes : ∀ {left right : T}, left < right ↔ bytes left < bytes right

instance : TickBytes Tick where
  bytes := Tick.bytes
  length_eq := Tick.length_eq
  bytes_injective := Tick.bytes_injective
  lt_iff_bytes := Tick.lt_iff

theorem Tick.tickBytes_eq (tick : Tick) : TickBytes.bytes tick = tick.bytes := rfl

namespace TickBytes

variable {T : Type} [TickBytes T] {left right : T}

theorem append_inj {rest rest' : List ℕ} :
    bytes left ++ rest = bytes right ++ rest' ↔ left = right ∧ rest = rest' := by
  constructor
  · intro equal
    obtain ⟨front, back⟩ := List.append_inj equal (by rw [length_eq, length_eq])
    exact ⟨bytes_injective front, back⟩
  · rintro ⟨rfl, rfl⟩
    rfl

theorem append_lt_iff (rest rest' : List ℕ) :
    bytes left ++ rest < bytes right ++ rest' ↔ left < right ∨ left = right ∧ rest < rest' := by
  rw [append_lt_append_iff _ _ (by rw [length_eq, length_eq]), bytes_injective.eq_iff,
    lt_iff_bytes]

end TickBytes

/-- `to_be_bytes` of a `u64`. -/
abbrev u64Bytes (value : ℕ) : List ℕ := toBeBytes 8 value

/-! Keys that begin with a score. -/

structure BlueScoredChainBlockHash where
  blueScore : ℕ
  blockHash : RpcHash
deriving DecidableEq, Inhabited

namespace BlueScoredChainBlockHash

def ownedKey (key : BlueScoredChainBlockHash) : List ℕ :=
  u64Bytes key.blueScore ++ toBeBytes 32 key.blockHash

theorem ownedKey_injective : Function.Injective ownedKey := by
  rintro ⟨blueScore, blockHash⟩ ⟨blueScore', blockHash'⟩ equal
  simpa [ownedKey, toBeBytes_append_inj] using equal

instance : LinearOrder BlueScoredChainBlockHash :=
  LinearOrder.lift' ownedKey ownedKey_injective

theorem lt_iff {left right : BlueScoredChainBlockHash} :
    left < right ↔ left.blueScore < right.blueScore ∨
      left.blueScore = right.blueScore ∧ left.blockHash < right.blockHash := by
  change ownedKey left < ownedKey right ↔ _
  rw [ownedKey, ownedKey, toBeBytes_append_lt_iff, toBeBytes_lt_toBeBytes_iff (by decide)]

theorem start_le_iff {blueScore : ℕ} {key : BlueScoredChainBlockHash} :
    ⟨blueScore, 0⟩ ≤ key ↔ blueScore ≤ key.blueScore := by
  rw [← not_lt, lt_iff]
  simp

end BlueScoredChainBlockHash

structure DeploymentKey (T : Type := Tick) where
  score : ℕ
  tick : T
deriving DecidableEq, Inhabited

namespace DeploymentKey

variable {T : Type} [TickBytes T]

def ownedKey (key : DeploymentKey T) : List ℕ :=
  u64Bytes key.score ++ TickBytes.bytes key.tick

theorem ownedKey_injective : Function.Injective (ownedKey : DeploymentKey T → List ℕ) := by
  rintro ⟨score, tick⟩ ⟨score', tick'⟩ equal
  simpa [ownedKey, toBeBytes_append_inj, TickBytes.bytes_injective.eq_iff] using equal

instance : LinearOrder (DeploymentKey T) := LinearOrder.lift' ownedKey ownedKey_injective

theorem lt_iff {left right : DeploymentKey T} :
    left < right ↔ left.score < right.score ∨
      left.score = right.score ∧ left.tick < right.tick := by
  change ownedKey left < ownedKey right ↔ _
  rw [ownedKey, ownedKey, toBeBytes_append_lt_iff, TickBytes.lt_iff_bytes]

theorem start_le_iff {score : ℕ} {key : DeploymentKey} :
    ⟨score, Tick.MIN⟩ ≤ key ↔ score ≤ key.score := by
  rw [← not_lt, lt_iff]
  simp [Tick.min_le]

end DeploymentKey

structure TokenMintsKey (T : Type := Tick) where
  score : ℕ
  tick : T
  tokenId : ℕ
  reversedSeqNumber : ℕ
deriving DecidableEq, Inhabited

namespace TokenMintsKey

variable {T : Type} [TickBytes T]

def withSeq (score : ℕ) (tick : Tick) (tokenId seq : ℕ) : TokenMintsKey :=
  ⟨score, tick, tokenId, u64Max - seq⟩

def ownedKey (key : TokenMintsKey T) : List ℕ :=
  u64Bytes key.score ++ (TickBytes.bytes key.tick ++
    (u64Bytes key.tokenId ++ u64Bytes key.reversedSeqNumber))

theorem ownedKey_injective : Function.Injective (ownedKey : TokenMintsKey T → List ℕ) := by
  rintro ⟨score, tick, tokenId, reversed⟩ ⟨score', tick', tokenId', reversed'⟩ equal
  simpa [ownedKey, toBeBytes_append_inj, TickBytes.append_inj] using equal

instance : LinearOrder (TokenMintsKey T) := LinearOrder.lift' ownedKey ownedKey_injective

theorem lt_iff {left right : TokenMintsKey T} :
    left < right ↔ left.score < right.score ∨ left.score = right.score ∧
      (left.tick < right.tick ∨ left.tick = right.tick ∧
        (left.tokenId < right.tokenId ∨ left.tokenId = right.tokenId ∧
          left.reversedSeqNumber < right.reversedSeqNumber)) := by
  change ownedKey left < ownedKey right ↔ _
  rw [ownedKey, ownedKey, toBeBytes_append_lt_iff, TickBytes.append_lt_iff,
    toBeBytes_append_lt_iff, toBeBytes_lt_toBeBytes_iff (by decide)]

theorem start_le_iff {score : ℕ} {key : TokenMintsKey} :
    ⟨score, Tick.MIN, 0, 0⟩ ≤ key ↔ score ≤ key.score := by
  rw [← not_lt, lt_iff]
  simp [Tick.min_le]

end TokenMintsKey

structure ScoredDiscountKey (T : Type := Tick) where
  score : ℕ
  tick : T
  spk : ScriptPublicKey
deriving DecidableEq, Inhabited

/-- The bytes of a script public key inside a key: a two-byte version and the script. -/
def ScriptPublicKey.keyBytes (spk : ScriptPublicKey) : List ℕ :=
  toBeBytes 2 spk.version ++ spk.script

theorem ScriptPublicKey.keyBytes_injective : Function.Injective ScriptPublicKey.keyBytes := by
  rintro ⟨version, script⟩ ⟨version', script'⟩ equal
  simpa [keyBytes, toBeBytes_append_inj] using equal

namespace ScoredDiscountKey

variable {T : Type} [TickBytes T]

def ownedKey (key : ScoredDiscountKey T) : List ℕ :=
  u64Bytes key.score ++ (TickBytes.bytes key.tick ++ key.spk.keyBytes)

theorem ownedKey_injective : Function.Injective (ownedKey : ScoredDiscountKey T → List ℕ) := by
  rintro ⟨score, tick, spk⟩ ⟨score', tick', spk'⟩ equal
  simpa [ownedKey, toBeBytes_append_inj, TickBytes.append_inj,
    ScriptPublicKey.keyBytes_injective.eq_iff] using equal

instance : LinearOrder (ScoredDiscountKey T) := LinearOrder.lift' ownedKey ownedKey_injective

end ScoredDiscountKey

/-! Keys that begin with a tick. -/

structure MintHistoryKey (T : Type := Tick) where
  tick : T
  reversedSeq : ℕ
  tokenId : ℕ
  score : ℕ
deriving DecidableEq, Inhabited

namespace MintHistoryKey

variable {T : Type} [TickBytes T]

def withSeq (tick : Tick) (seq tokenId score : ℕ) : MintHistoryKey :=
  ⟨tick, u64Max - seq, tokenId, score⟩

def ownedKey (key : MintHistoryKey T) : List ℕ :=
  TickBytes.bytes key.tick ++ (u64Bytes key.reversedSeq ++
    (u64Bytes key.tokenId ++ u64Bytes key.score))

theorem ownedKey_injective : Function.Injective (ownedKey : MintHistoryKey T → List ℕ) := by
  rintro ⟨tick, reversedSeq, tokenId, score⟩ ⟨tick', reversedSeq', tokenId', score'⟩ equal
  simpa [ownedKey, toBeBytes_append_inj, TickBytes.append_inj] using equal

instance : LinearOrder (MintHistoryKey T) := LinearOrder.lift' ownedKey ownedKey_injective

theorem lt_iff {left right : MintHistoryKey T} :
    left < right ↔ left.tick < right.tick ∨ left.tick = right.tick ∧
      (left.reversedSeq < right.reversedSeq ∨ left.reversedSeq = right.reversedSeq ∧
        (left.tokenId < right.tokenId ∨ left.tokenId = right.tokenId ∧
          left.score < right.score)) := by
  change ownedKey left < ownedKey right ↔ _
  rw [ownedKey, ownedKey, TickBytes.append_lt_iff, toBeBytes_append_lt_iff,
    toBeBytes_append_lt_iff, toBeBytes_lt_toBeBytes_iff (by decide)]

/-- The scan prefix of a tick selects exactly the keys of that tick. -/
theorem prefix_iff {tick : T} {key : MintHistoryKey T} :
    TickBytes.bytes tick <+: key.ownedKey ↔ key.tick = tick := by
  constructor
  · rintro ⟨rest, equal⟩
    exact ((TickBytes.append_inj.1 equal).1).symm
  · rintro rfl
    exact List.prefix_append _ _

end MintHistoryKey

structure OwnershipKey (T : Type := Tick) where
  tick : T
  tokenId : ℕ
deriving DecidableEq, Inhabited

namespace OwnershipKey

variable {T : Type} [TickBytes T]

def ownedKey (key : OwnershipKey T) : List ℕ :=
  TickBytes.bytes key.tick ++ u64Bytes key.tokenId

theorem ownedKey_injective : Function.Injective (ownedKey : OwnershipKey T → List ℕ) := by
  rintro ⟨tick, tokenId⟩ ⟨tick', tokenId'⟩ equal
  simpa [ownedKey, TickBytes.append_inj] using equal

instance : LinearOrder (OwnershipKey T) := LinearOrder.lift' ownedKey ownedKey_injective

theorem lt_iff {left right : OwnershipKey T} :
    left < right ↔ left.tick < right.tick ∨
      left.tick = right.tick ∧ left.tokenId < right.tokenId := by
  change ownedKey left < ownedKey right ↔ _
  rw [ownedKey, ownedKey, TickBytes.append_lt_iff, toBeBytes_lt_toBeBytes_iff (by decide)]

end OwnershipKey

structure OwnershipHistoryKey (T : Type := Tick) where
  tick : T
  tokenId : ℕ
  reversedScore : ℕ
deriving DecidableEq, Inhabited

namespace OwnershipHistoryKey

variable {T : Type} [TickBytes T]

def withScore (tick : Tick) (tokenId score : ℕ) : OwnershipHistoryKey :=
  ⟨tick, tokenId, u64Max - score⟩

def ownedKey (key : OwnershipHistoryKey T) : List ℕ :=
  TickBytes.bytes key.tick ++ (u64Bytes key.tokenId ++ u64Bytes key.reversedScore)

theorem ownedKey_injective : Function.Injective (ownedKey : OwnershipHistoryKey T → List ℕ) := by
  rintro ⟨tick, tokenId, reversedScore⟩ ⟨tick', tokenId', reversedScore'⟩ equal
  simpa [ownedKey, toBeBytes_append_inj, TickBytes.append_inj] using equal

instance : LinearOrder (OwnershipHistoryKey T) := LinearOrder.lift' ownedKey ownedKey_injective

theorem lt_iff {left right : OwnershipHistoryKey T} :
    left < right ↔ left.tick < right.tick ∨ left.tick = right.tick ∧
      (left.tokenId < right.tokenId ∨ left.tokenId = right.tokenId ∧
        left.reversedScore < right.reversedScore) := by
  change ownedKey left < ownedKey right ↔ _
  rw [ownedKey, ownedKey, TickBytes.append_lt_iff, toBeBytes_append_lt_iff,
    toBeBytes_lt_toBeBytes_iff (by decide)]

/-- The scan prefix of a token selects exactly the keys of that token. -/
theorem prefix_iff {token : OwnershipKey T} {key : OwnershipHistoryKey T} :
    token.ownedKey <+: key.ownedKey ↔ key.tick = token.tick ∧ key.tokenId = token.tokenId := by
  constructor
  · rintro ⟨rest, equal⟩
    simp only [OwnershipKey.ownedKey, ownedKey, List.append_assoc, TickBytes.append_inj,
      toBeBytes_append_inj] at equal
    exact ⟨equal.1.symm, equal.2.1.symm⟩
  · rintro ⟨tick, tokenId⟩
    rw [OwnershipKey.ownedKey, ownedKey, tick, tokenId, ← List.append_assoc]
    exact List.prefix_append _ _

end OwnershipHistoryKey

structure RangeKey (T : Type := Tick) where
  tick : T
  index : ℕ
deriving DecidableEq, Inhabited

namespace RangeKey

variable {T : Type} [TickBytes T]

def ownedKey (key : RangeKey T) : List ℕ :=
  TickBytes.bytes key.tick ++ u64Bytes key.index

theorem ownedKey_injective : Function.Injective (ownedKey : RangeKey T → List ℕ) := by
  rintro ⟨tick, index⟩ ⟨tick', index'⟩ equal
  simpa [ownedKey, TickBytes.append_inj] using equal

instance : LinearOrder (RangeKey T) := LinearOrder.lift' ownedKey ownedKey_injective

theorem lt_iff {left right : RangeKey T} :
    left < right ↔ left.tick < right.tick ∨ left.tick = right.tick ∧ left.index < right.index := by
  change ownedKey left < ownedKey right ↔ _
  rw [ownedKey, ownedKey, TickBytes.append_lt_iff, toBeBytes_lt_toBeBytes_iff (by decide)]

theorem between_iff {tick : Tick} {index : ℕ} {key : RangeKey} :
    ⟨tick, 0⟩ ≤ key ∧ key < ⟨tick, index⟩ ↔ key.tick = tick ∧ key.index < index := by
  rw [← not_lt, lt_iff, lt_iff]
  constructor
  · rintro ⟨notBelow, below⟩
    rcases below with less | same
    · exact absurd (.inl less) notBelow
    · exact same
  · rintro ⟨same, less⟩
    subst same
    exact ⟨by simp, .inr ⟨rfl, less⟩⟩

end RangeKey

structure TokenMetaKey (T : Type := Tick) where
  tick : T
  tokenId : ℕ
deriving DecidableEq, Inhabited

namespace TokenMetaKey

variable {T : Type} [TickBytes T]

def ownedKey (key : TokenMetaKey T) : List ℕ :=
  TickBytes.bytes key.tick ++ u64Bytes key.tokenId

theorem ownedKey_injective : Function.Injective (ownedKey : TokenMetaKey T → List ℕ) := by
  rintro ⟨tick, tokenId⟩ ⟨tick', tokenId'⟩ equal
  simpa [ownedKey, TickBytes.append_inj] using equal

instance : LinearOrder (TokenMetaKey T) := LinearOrder.lift' ownedKey ownedKey_injective

end TokenMetaKey

structure ListingByTickKey (T : Type := Tick) where
  tick : T
  tokenId : ℕ
deriving DecidableEq, Inhabited

namespace ListingByTickKey

variable {T : Type} [TickBytes T]

def ownedKey (key : ListingByTickKey T) : List ℕ :=
  TickBytes.bytes key.tick ++ u64Bytes key.tokenId

theorem ownedKey_injective : Function.Injective (ownedKey : ListingByTickKey T → List ℕ) := by
  rintro ⟨tick, tokenId⟩ ⟨tick', tokenId'⟩ equal
  simpa [ownedKey, TickBytes.append_inj] using equal

instance : LinearOrder (ListingByTickKey T) := LinearOrder.lift' ownedKey ownedKey_injective

theorem lt_iff {left right : ListingByTickKey T} :
    left < right ↔ left.tick < right.tick ∨
      left.tick = right.tick ∧ left.tokenId < right.tokenId := by
  change ownedKey left < ownedKey right ↔ _
  rw [ownedKey, ownedKey, TickBytes.append_lt_iff, toBeBytes_lt_toBeBytes_iff (by decide)]

end ListingByTickKey

/-! Keys that begin with a script of variable length. -/

structure AddressHoldingKey (T : Type := Tick) where
  spk : ScriptPublicKey
  tick : T
  tokenId : ℕ
deriving DecidableEq, Inhabited

namespace AddressHoldingKey

variable {T : Type} [TickBytes T]

def ownedKey (key : AddressHoldingKey T) : List ℕ :=
  key.spk.keyBytes ++ (TickBytes.bytes key.tick ++ u64Bytes key.tokenId)

theorem ownedKey_injective : Function.Injective (ownedKey : AddressHoldingKey T → List ℕ) := by
  rintro ⟨spk, tick, tokenId⟩ ⟨spk', tick', tokenId'⟩ equal
  have lengths : (TickBytes.bytes tick ++ u64Bytes tokenId).length =
      (TickBytes.bytes tick' ++ u64Bytes tokenId').length := by
    simp [TickBytes.length_eq]
  obtain ⟨scripts, tails⟩ := List.append_inj' equal lengths
  obtain ⟨rfl, ids⟩ := TickBytes.append_inj.1 tails
  rw [AddressHoldingKey.mk.injEq]
  exact ⟨ScriptPublicKey.keyBytes_injective scripts, rfl, toBeBytes_inj.1 ids⟩

instance : LinearOrder (AddressHoldingKey T) := LinearOrder.lift' ownedKey ownedKey_injective

end AddressHoldingKey

structure VipKey (T : Type := Tick) where
  spk : ScriptPublicKey
  tick : T
  reversedScore : ℕ
  fee : ℕ
deriving DecidableEq, Inhabited

namespace VipKey

variable {T : Type} [TickBytes T]

def ownedKey (key : VipKey T) : List ℕ :=
  key.spk.keyBytes ++ (TickBytes.bytes key.tick ++ (u64Bytes key.reversedScore ++ u64Bytes key.fee))

theorem ownedKey_injective : Function.Injective (ownedKey : VipKey T → List ℕ) := by
  rintro ⟨spk, tick, reversed, fee⟩ ⟨spk', tick', reversed', fee'⟩ equal
  have lengths : (TickBytes.bytes tick ++ (u64Bytes reversed ++ u64Bytes fee)).length =
      (TickBytes.bytes tick' ++ (u64Bytes reversed' ++ u64Bytes fee')).length := by
    simp [TickBytes.length_eq]
  obtain ⟨scripts, tails⟩ := List.append_inj' equal lengths
  simp only [TickBytes.append_inj, toBeBytes_append_inj, toBeBytes_inj] at tails
  rw [VipKey.mk.injEq]
  exact ⟨ScriptPublicKey.keyBytes_injective scripts, tails⟩

instance : LinearOrder (VipKey T) := LinearOrder.lift' ownedKey ownedKey_injective

end VipKey

end Krc721
