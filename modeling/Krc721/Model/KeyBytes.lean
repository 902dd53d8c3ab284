import Mathlib.Data.Prod.Lex
import Krc721.Store.Fields
import Krc721.Model.Database

/-! The keys of the partitions over any ten bytes of a tick, with the reading of a key from its
bytes. A key is read back from the bytes it is written to, and the keys of fixed width compare
as their fields do, one after the other. -/

set_option autoImplicit false

namespace Krc721.Raw

open OrderedStore

/-- `Tick::new_unchecked` takes any ten bytes. -/
structure Tick where
  bytes : List ℕ
  length_eq : bytes.length = TICK_LENGTH

namespace Tick

theorem bytes_injective : Function.Injective Tick.bytes := by
  rintro ⟨bytes, _⟩ ⟨bytes', _⟩ rfl
  rfl

instance : TickBytes Tick where
  toLinearOrder := LinearOrder.lift' Tick.bytes bytes_injective
  bytes := Tick.bytes
  length_eq := Tick.length_eq
  bytes_injective := bytes_injective
  lt_iff_bytes := Iff.rfl

@[simp] theorem tickBytes_eq (tick : Tick) : TickBytes.bytes tick = tick.bytes := rfl

/-- `try_into().unwrap()` and `Tick::new_unchecked`. -/
def newUnchecked (bytes : List ℕ) : Option Tick :=
  if length_eq : bytes.length = TICK_LENGTH then some ⟨bytes, length_eq⟩ else none

@[simp] theorem newUnchecked_bytes (tick : Tick) : newUnchecked tick.bytes = some tick :=
  dif_pos tick.length_eq

@[simp] theorem splitAt?_bytes_append (tick : Tick) (rest : List ℕ) :
    splitAt? (tick.bytes ++ rest) TICK_LENGTH = some (tick.bytes, rest) :=
  splitAt?_append tick.length_eq

@[simp] theorem splitEnd?_append_bytes (tick : Tick) (front : List ℕ) :
    splitEnd? (front ++ tick.bytes) TICK_LENGTH = some (front, tick.bytes) :=
  splitEnd?_append tick.length_eq

/-- The bytes of a checked tick. -/
def ofTick (tick : Krc721.Tick) : Tick := ⟨tick.bytes, tick.length_eq⟩

end Tick

/-- `from_be_bytes` of a `u64`. -/
abbrev u64FromBytes (bytes : List ℕ) : Option ℕ := fromBeBytes 8 bytes

/-- The script public key in a key: a two-byte version, and the rest is the script. -/
def scriptPublicKey (spkBytes : List ℕ) : Option ScriptPublicKey := do
  let (version, script) ← splitAt? spkBytes 2
  let version ← fromBeBytes 2 version
  some ⟨version, script⟩

@[simp] theorem scriptPublicKey_keyBytes (spk : ScriptPublicKey) :
    scriptPublicKey spk.keyBytes = some spk := by
  simp [scriptPublicKey, ScriptPublicKey.keyBytes]

/-- The trait `Key`. Reading panics where it is `none`. -/
class Key (K : Type) where
  ownedKey : K → List ℕ
  fromKeyBytes : List ℕ → Option K

/-- A key is read back from its bytes. -/
def Key.RoundTrips (K : Type) [Key K] : Prop :=
  ∀ key : K, fromKeyBytes (ownedKey key) = some key

/-- The bytes of keys compare as their fields do. -/
def Key.OrderedBy {K Fields : Type} [Key K] [LT Fields] (fields : K → Fields) : Prop :=
  ∀ left right : K, ownedKey left < ownedKey right ↔ fields left < fields right

theorem Key.RoundTrips.injective {K : Type} [Key K] (roundTrips : RoundTrips K) :
    Function.Injective (ownedKey : K → List ℕ) := by
  intro left right same
  have read : some left = some right := by rw [← roundTrips left, same, roundTrips right]
  exact Option.some.inj read

/-- The bytes of a key determine it, and it is read from them. -/
structure Key.Faithful (K : Type) [Key K] : Prop where
  roundTrips : RoundTrips K
  injective : Function.Injective (ownedKey : K → List ℕ)

theorem Key.RoundTrips.faithful {K : Type} [Key K] (roundTrips : RoundTrips K) : Faithful K :=
  ⟨roundTrips, roundTrips.injective⟩

open Key

/-! Keys that begin with a score. -/

instance : Key BlueScoredChainBlockHash where
  ownedKey := BlueScoredChainBlockHash.ownedKey
  fromKeyBytes keyBytes := do
    let (score, hash) ← splitAt? keyBytes 8
    let blueScore ← u64FromBytes score
    let blockHash ← fromBeBytes 32 hash
    some { blueScore, blockHash }

namespace BlueScoredChainBlockHash

def fields (key : BlueScoredChainBlockHash) : ℕ ×ₗ RpcHash :=
  toLex (key.blueScore, key.blockHash)

theorem roundTrips : RoundTrips BlueScoredChainBlockHash := by
  intro key
  simp [Key.fromKeyBytes, Key.ownedKey, Krc721.BlueScoredChainBlockHash.ownedKey]

theorem orderedBy_fields : OrderedBy fields := by
  intro left right
  rw [fields, fields, Prod.Lex.toLex_lt_toLex]
  exact BlueScoredChainBlockHash.lt_iff

end BlueScoredChainBlockHash

abbrev DeploymentKey := Krc721.DeploymentKey Tick

namespace DeploymentKey

instance : Key DeploymentKey where
  ownedKey := Krc721.DeploymentKey.ownedKey
  fromKeyBytes keyBytes := do
    let (score, tick) ← splitAt? keyBytes 8
    let score ← u64FromBytes score
    let tick ← Tick.newUnchecked tick
    some { score, tick }

def fields (key : DeploymentKey) : ℕ ×ₗ Tick := toLex (key.score, key.tick)

theorem roundTrips : RoundTrips DeploymentKey := by
  intro key
  simp [Key.fromKeyBytes, Key.ownedKey, Krc721.DeploymentKey.ownedKey]

theorem orderedBy_fields : OrderedBy fields := by
  intro left right
  simp only [fields, Prod.Lex.toLex_lt_toLex]
  exact Krc721.DeploymentKey.lt_iff

theorem fromKeyBytes_ownedKey (key : Krc721.DeploymentKey) :
    fromKeyBytes key.ownedKey = some (⟨key.score, .ofTick key.tick⟩ : DeploymentKey) :=
  roundTrips ⟨key.score, .ofTick key.tick⟩

end DeploymentKey

abbrev TokenMintsKey := Krc721.TokenMintsKey Tick

namespace TokenMintsKey

instance : Key TokenMintsKey where
  ownedKey := Krc721.TokenMintsKey.ownedKey
  fromKeyBytes keyBytes := do
    let (score, remaining) ← splitAt? keyBytes 8
    let score ← u64FromBytes score
    let (tick, remaining) ← splitAt? remaining TICK_LENGTH
    let (tokenId, reversedSeqNumber) ← splitAt? remaining 8
    let tick ← Tick.newUnchecked tick
    let tokenId ← u64FromBytes tokenId
    let reversedSeqNumber ← u64FromBytes reversedSeqNumber
    some { score, tick, tokenId, reversedSeqNumber }

def fields (key : TokenMintsKey) : ℕ ×ₗ Tick ×ₗ ℕ ×ₗ ℕ :=
  toLex (key.score, toLex (key.tick, toLex (key.tokenId, key.reversedSeqNumber)))

theorem roundTrips : RoundTrips TokenMintsKey := by
  intro key
  simp [Key.fromKeyBytes, Key.ownedKey, Krc721.TokenMintsKey.ownedKey]

theorem orderedBy_fields : OrderedBy fields := by
  intro left right
  simp only [fields, Prod.Lex.toLex_lt_toLex]
  exact Krc721.TokenMintsKey.lt_iff

theorem fromKeyBytes_ownedKey (key : Krc721.TokenMintsKey) :
    fromKeyBytes key.ownedKey =
      some (⟨key.score, .ofTick key.tick, key.tokenId, key.reversedSeqNumber⟩ : TokenMintsKey) :=
  roundTrips ⟨key.score, .ofTick key.tick, key.tokenId, key.reversedSeqNumber⟩

end TokenMintsKey

abbrev ScoredDiscountKey := Krc721.ScoredDiscountKey Tick

namespace ScoredDiscountKey

instance : Key ScoredDiscountKey where
  ownedKey := Krc721.ScoredDiscountKey.ownedKey
  fromKeyBytes keyBytes := do
    let (score, remaining) ← splitAt? keyBytes 8
    let (tick, spk) ← splitAt? remaining TICK_LENGTH
    let spk ← scriptPublicKey spk
    let score ← u64FromBytes score
    let tick ← Tick.newUnchecked tick
    some { score, tick, spk }

theorem roundTrips : RoundTrips ScoredDiscountKey := by
  intro key
  simp [Key.fromKeyBytes, Key.ownedKey, Krc721.ScoredDiscountKey.ownedKey]

theorem fromKeyBytes_ownedKey (key : Krc721.ScoredDiscountKey) :
    fromKeyBytes key.ownedKey =
      some (⟨key.score, .ofTick key.tick, key.spk⟩ : ScoredDiscountKey) :=
  roundTrips ⟨key.score, .ofTick key.tick, key.spk⟩

end ScoredDiscountKey

/-! Keys that begin with a tick. -/

abbrev MintHistoryKey := Krc721.MintHistoryKey Tick

namespace MintHistoryKey

instance : Key MintHistoryKey where
  ownedKey := Krc721.MintHistoryKey.ownedKey
  fromKeyBytes keyBytes := do
    let (tick, remaining) ← splitAt? keyBytes TICK_LENGTH
    let tick ← Tick.newUnchecked tick
    let (reversedSeq, remaining) ← splitAt? remaining 8
    let (tokenId, score) ← splitAt? remaining 8
    let reversedSeq ← u64FromBytes reversedSeq
    let tokenId ← u64FromBytes tokenId
    let score ← u64FromBytes score
    some { tick, reversedSeq, tokenId, score }

def fields (key : MintHistoryKey) : Tick ×ₗ ℕ ×ₗ ℕ ×ₗ ℕ :=
  toLex (key.tick, toLex (key.reversedSeq, toLex (key.tokenId, key.score)))

theorem roundTrips : RoundTrips MintHistoryKey := by
  intro key
  simp [Key.fromKeyBytes, Key.ownedKey, Krc721.MintHistoryKey.ownedKey]

theorem orderedBy_fields : OrderedBy fields := by
  intro left right
  simp only [fields, Prod.Lex.toLex_lt_toLex]
  exact Krc721.MintHistoryKey.lt_iff

/-- The `seq_no` that `last_minted_token_seq_no` returns. -/
def seqNo (key : MintHistoryKey) : ℕ := u64Max - key.reversedSeq

/-- The first row under the prefix of a tick has the largest sequence number. -/
theorem first_under_tick {Value : Type} {rows : Partition MintHistoryKey Value}
    {key : MintHistoryKey} (present : (rows.get key).isSome) :
    ∃ first value, rows.firstWhere (fun row => key.tick.bytes.isPrefixOf (Key.ownedKey row)) =
      some (first, value) ∧ first.tick = key.tick ∧ key.seqNo ≤ first.seqNo := by
  obtain ⟨first, value, found, matched, before⟩ := @Partition.exists_firstWhere _ _ _ rows
    (fun row => key.tick.bytes.isPrefixOf (Key.ownedKey row)) key present
    (List.isPrefixOf_iff_prefix.2
      ((@Krc721.MintHistoryKey.prefix_iff _ _ key.tick key).2 rfl))
  have sameTick : first.tick = key.tick :=
    Krc721.MintHistoryKey.prefix_iff.1 (List.isPrefixOf_iff_prefix.1 matched)
  refine ⟨first, value, found, sameTick, ?_⟩
  have ordered : ¬ fields key < fields first := fun less =>
    not_lt.2 before ((orderedBy_fields key first).2 less)
  simp only [fields, Prod.Lex.toLex_lt_toLex, sameTick, lt_self_iff_false, true_and,
    false_or] at ordered
  unfold seqNo
  omega

theorem fromKeyBytes_ownedKey (key : Krc721.MintHistoryKey) :
    fromKeyBytes key.ownedKey =
      some (⟨.ofTick key.tick, key.reversedSeq, key.tokenId, key.score⟩ : MintHistoryKey) :=
  roundTrips ⟨.ofTick key.tick, key.reversedSeq, key.tokenId, key.score⟩

end MintHistoryKey

abbrev OwnershipKey := Krc721.OwnershipKey Tick

namespace OwnershipKey

instance : Key OwnershipKey where
  ownedKey := Krc721.OwnershipKey.ownedKey
  fromKeyBytes keyBytes := do
    let (tick, tokenId) ← splitAt? keyBytes TICK_LENGTH
    let tick ← Tick.newUnchecked tick
    let tokenId ← u64FromBytes tokenId
    some { tick, tokenId }

def fields (key : OwnershipKey) : Tick ×ₗ ℕ := toLex (key.tick, key.tokenId)

theorem roundTrips : RoundTrips OwnershipKey := by
  intro key
  simp [Key.fromKeyBytes, Key.ownedKey, Krc721.OwnershipKey.ownedKey]

theorem orderedBy_fields : OrderedBy fields := by
  intro left right
  simp only [fields, Prod.Lex.toLex_lt_toLex]
  exact Krc721.OwnershipKey.lt_iff

theorem fromKeyBytes_ownedKey (key : Krc721.OwnershipKey) :
    fromKeyBytes key.ownedKey = some (⟨.ofTick key.tick, key.tokenId⟩ : OwnershipKey) :=
  roundTrips ⟨.ofTick key.tick, key.tokenId⟩

end OwnershipKey

abbrev OwnershipHistoryKey := Krc721.OwnershipHistoryKey Tick

namespace OwnershipHistoryKey

instance : Key OwnershipHistoryKey where
  ownedKey := Krc721.OwnershipHistoryKey.ownedKey
  fromKeyBytes keyBytes := do
    let (tick, remaining) ← splitAt? keyBytes TICK_LENGTH
    let tick ← Tick.newUnchecked tick
    let (tokenId, reversedScore) ← splitAt? remaining 8
    let tokenId ← u64FromBytes tokenId
    let reversedScore ← u64FromBytes reversedScore
    some { tick, tokenId, reversedScore }

def fields (key : OwnershipHistoryKey) : Tick ×ₗ ℕ ×ₗ ℕ :=
  toLex (key.tick, toLex (key.tokenId, key.reversedScore))

theorem roundTrips : RoundTrips OwnershipHistoryKey := by
  intro key
  simp [Key.fromKeyBytes, Key.ownedKey, Krc721.OwnershipHistoryKey.ownedKey]

theorem orderedBy_fields : OrderedBy fields := by
  intro left right
  simp only [fields, Prod.Lex.toLex_lt_toLex]
  exact Krc721.OwnershipHistoryKey.lt_iff

def score (key : OwnershipHistoryKey) : ℕ := u64Max - key.reversedScore

/-- The first row under the prefix of a token has the largest score. -/
theorem first_under_token {Value : Type} {rows : Partition OwnershipHistoryKey Value}
    {token : OwnershipKey} {key : OwnershipHistoryKey} (present : (rows.get key).isSome)
    (sameToken : key.tick = token.tick ∧ key.tokenId = token.tokenId) :
    ∃ first value, rows.firstWhere (fun row =>
        (Key.ownedKey token).isPrefixOf (Key.ownedKey row)) = some (first, value) ∧
      (first.tick = token.tick ∧ first.tokenId = token.tokenId) ∧ key.score ≤ first.score := by
  obtain ⟨first, value, found, matched, before⟩ := @Partition.exists_firstWhere _ _ _ rows
    (fun row => (Key.ownedKey token).isPrefixOf (Key.ownedKey row)) key present
    (List.isPrefixOf_iff_prefix.2 (Krc721.OwnershipHistoryKey.prefix_iff.2 sameToken))
  have ofToken := Krc721.OwnershipHistoryKey.prefix_iff.1 (List.isPrefixOf_iff_prefix.1 matched)
  refine ⟨first, value, found, ofToken, ?_⟩
  have ordered : ¬ fields key < fields first := fun less =>
    not_lt.2 before ((orderedBy_fields key first).2 less)
  simp only [fields, Prod.Lex.toLex_lt_toLex, ofToken, sameToken, lt_self_iff_false, true_and,
    false_or] at ordered
  unfold score
  omega

theorem fromKeyBytes_ownedKey (key : Krc721.OwnershipHistoryKey) :
    fromKeyBytes key.ownedKey =
      some (⟨.ofTick key.tick, key.tokenId, key.reversedScore⟩ : OwnershipHistoryKey) :=
  roundTrips ⟨.ofTick key.tick, key.tokenId, key.reversedScore⟩

end OwnershipHistoryKey

/-! Keys that begin with a script of variable length are read from their end. -/

abbrev AddressHoldingKey := Krc721.AddressHoldingKey Tick

namespace AddressHoldingKey

instance : Key AddressHoldingKey where
  ownedKey := Krc721.AddressHoldingKey.ownedKey
  fromKeyBytes keyBytes := do
    let (remaining, tokenIdBytes) ← splitEnd? keyBytes 8
    let tokenId ← u64FromBytes tokenIdBytes
    let (spkBytes, tickBytes) ← splitEnd? remaining TICK_LENGTH
    let tick ← Tick.newUnchecked tickBytes
    let spk ← scriptPublicKey spkBytes
    some { spk, tick, tokenId }

theorem roundTrips : RoundTrips AddressHoldingKey := by
  intro key
  simp only [Key.fromKeyBytes, Key.ownedKey, Krc721.AddressHoldingKey.ownedKey, ← List.append_assoc,
    Tick.tickBytes_eq, splitEnd?_append_toBeBytes,
    Tick.splitEnd?_append_bytes, fromBeBytes_toBeBytes, Tick.newUnchecked_bytes,
    scriptPublicKey_keyBytes, Option.bind_eq_bind, Option.bind_some]

theorem fromKeyBytes_ownedKey (key : Krc721.AddressHoldingKey) :
    fromKeyBytes key.ownedKey =
      some (⟨key.spk, .ofTick key.tick, key.tokenId⟩ : AddressHoldingKey) :=
  roundTrips ⟨key.spk, .ofTick key.tick, key.tokenId⟩

end AddressHoldingKey

abbrev VipKey := Krc721.VipKey Tick

namespace VipKey

instance : Key VipKey where
  ownedKey := Krc721.VipKey.ownedKey
  fromKeyBytes keyBytes := do
    let (remaining, feeBytes) ← splitEnd? keyBytes 8
    let fee ← u64FromBytes feeBytes
    let (remaining, scoreBytes) ← splitEnd? remaining 8
    let reversedScore ← u64FromBytes scoreBytes
    let (spkBytes, tickBytes) ← splitEnd? remaining TICK_LENGTH
    let tick ← Tick.newUnchecked tickBytes
    let spk ← scriptPublicKey spkBytes
    some { spk, tick, reversedScore, fee }

theorem roundTrips : RoundTrips VipKey := by
  intro key
  simp only [Key.fromKeyBytes, Key.ownedKey, Krc721.VipKey.ownedKey, ← List.append_assoc,
    Tick.tickBytes_eq, splitEnd?_append_toBeBytes,
    Tick.splitEnd?_append_bytes, fromBeBytes_toBeBytes, Tick.newUnchecked_bytes,
    scriptPublicKey_keyBytes, Option.bind_eq_bind, Option.bind_some]

theorem fromKeyBytes_ownedKey (key : Krc721.VipKey) :
    fromKeyBytes key.ownedKey =
      some (⟨key.spk, .ofTick key.tick, key.reversedScore, key.fee⟩ : VipKey) :=
  roundTrips ⟨key.spk, .ofTick key.tick, key.reversedScore, key.fee⟩

end VipKey

/-- Every key is read back from its bytes, so distinct keys have distinct bytes. Keys of fixed
width compare as their fields, so the first row under a tick has the largest sequence number
and the first row under a token the largest score. -/
theorem keys_faithful :
    (Faithful BlueScoredChainBlockHash ∧ Faithful DeploymentKey ∧ Faithful TokenMintsKey ∧
      Faithful MintHistoryKey ∧ Faithful OwnershipHistoryKey ∧ Faithful OwnershipKey ∧
      Faithful AddressHoldingKey ∧ Faithful ScoredDiscountKey ∧ Faithful VipKey) ∧
    (OrderedBy BlueScoredChainBlockHash.fields ∧ OrderedBy DeploymentKey.fields ∧
      OrderedBy TokenMintsKey.fields ∧ OrderedBy MintHistoryKey.fields ∧
      OrderedBy OwnershipHistoryKey.fields ∧ OrderedBy OwnershipKey.fields) ∧
    (∀ {Value : Type} (rows : Partition MintHistoryKey Value) (key : MintHistoryKey),
      (rows.get key).isSome → ∃ first value,
        rows.firstWhere (fun row => key.tick.bytes.isPrefixOf (Key.ownedKey row)) =
          some (first, value) ∧ first.tick = key.tick ∧ key.seqNo ≤ first.seqNo) ∧
    ∀ {Value : Type} (rows : Partition OwnershipHistoryKey Value) (token : OwnershipKey)
      (key : OwnershipHistoryKey), (rows.get key).isSome →
      key.tick = token.tick ∧ key.tokenId = token.tokenId → ∃ first value,
        rows.firstWhere (fun row => (Key.ownedKey token).isPrefixOf (Key.ownedKey row)) =
          some (first, value) ∧
        (first.tick = token.tick ∧ first.tokenId = token.tokenId) ∧
        key.score ≤ first.score := by
  refine ⟨⟨?_, ?_, ?_, ?_, ?_, ?_, ?_, ?_, ?_⟩, ⟨?_, ?_, ?_, ?_, ?_, ?_⟩, ?_, ?_⟩
  · exact BlueScoredChainBlockHash.roundTrips.faithful
  · exact DeploymentKey.roundTrips.faithful
  · exact TokenMintsKey.roundTrips.faithful
  · exact MintHistoryKey.roundTrips.faithful
  · exact OwnershipHistoryKey.roundTrips.faithful
  · exact OwnershipKey.roundTrips.faithful
  · exact AddressHoldingKey.roundTrips.faithful
  · exact ScoredDiscountKey.roundTrips.faithful
  · exact VipKey.roundTrips.faithful
  · exact BlueScoredChainBlockHash.orderedBy_fields
  · exact DeploymentKey.orderedBy_fields
  · exact TokenMintsKey.orderedBy_fields
  · exact MintHistoryKey.orderedBy_fields
  · exact OwnershipHistoryKey.orderedBy_fields
  · exact OwnershipKey.orderedBy_fields
  · intro Value rows key present
    exact MintHistoryKey.first_under_tick present
  · intro Value rows token key present sameToken
    exact OwnershipHistoryKey.first_under_token present sameToken

end Krc721.Raw
