import Krc721.Storage.Keyspace

/-! The lookups that scan a partition, as they read the bytes of the store. On the bytes of a
database they find what the lookups of the model find. -/

set_option autoImplicit false

namespace Krc721

open OrderedStore Transition

/-- `next().transpose()` of an iterator. -/
def nextItem {Item : Type} : List (Except StoreError Item) → Except StoreError (Option Item)
  | [] => .ok none
  | item :: _ => item.map some

theorem nextItem_map_ok {Row Item : Type} (rows : List Row) (item : Row → Item) :
    nextItem (rows.map fun row => .ok (item row)) = .ok (rows.head?.map item) := by
  cases rows <;> rfl

namespace AcceptedBlocksPartition

def lastAcceptedBlockWtx : DbProgram (Except StoreError (Option BlueScoredChainBlockHash)) :=
  .ask (.wtx .chainBlockScores .lastKey) .done

end AcceptedBlocksPartition

namespace MintHistoryPartition

/-- The token id, the score and the number of the last mint. -/
def lastMintedTokenSeqNoWtx (tick : Tick) :
    DbProgram (Except StoreError (Option (ℕ × ℕ × ℕ))) :=
  .ask (.wtx .mintHistory (.keysWithPrefix tick.bytes))
    fun keys : List (Except StoreError MintHistoryKey) =>
    .done ((nextItem keys).map fun found => found.map fun key =>
      (key.tokenId, key.score, u64Max - key.reversedSeq))

end MintHistoryPartition

namespace OwnershipHistoryPartition

def lastOwnerWithTxModScoreWtx (token : OwnershipKey) :
    DbProgram (Except StoreError (Option (ScriptPublicKey × ℕ))) :=
  .ask (.wtx .ownershipHistory (.withPrefix token.ownedKey)) fun
      rows : List (Except StoreError (OwnershipHistoryKey × ScriptPublicKey)) =>
    .done ((nextItem rows).map fun found =>
      found.map fun row => (row.2, u64Max - row.1.reversedScore))

end OwnershipHistoryPartition

namespace VipPartition

def lastFeeWtx (spk : ScriptPublicKey) (tick : Tick) : DbProgram (Except StoreError (Option ℕ)) :=
  .ask (.wtx .vip (.rangeKeys (.included (⟨spk, tick, 0, 0⟩ : VipKey))
      (.excluded (⟨spk, tick, u64Max, u64Max⟩ : VipKey)))) fun
      keys : List (Except StoreError VipKey) =>
    .done ((nextItem keys).map fun found => found.map VipKey.fee)

end VipPartition

namespace ScoredDiscountsPartition

def rangeFromScoreWtx (txScore : ℕ) :
    DbProgram (List (Except StoreError (ScoredDiscountKey × ℕ))) :=
  .ask (.wtx .scoreToDiscount (.rangeFrom (u64Bytes txScore))) .done

end ScoredDiscountsPartition

/-- On the bytes of a database every scan finds what it finds in the model. -/
theorem DbBytes.scans {bytes : DbBytes} {db : Db} {rejections : RejectionStore}
    (encodes : bytes.Encodes (.of (db.rows rejections))) :
    (AcceptedBlocksPartition.lastAcceptedBlockWtx.run DbBytes.answer bytes).1 =
        .ok db.lastAcceptedBlock ∧
      (∀ tick, ((MintHistoryPartition.lastMintedTokenSeqNoWtx tick).run DbBytes.answer bytes).1.map
        (fun found => found.map fun last => last.2.2) = .ok (db.lastMintedTokenSeqNo tick)) ∧
      (∀ token, ((OwnershipHistoryPartition.lastOwnerWithTxModScoreWtx token).run DbBytes.answer
        bytes).1 = .ok (db.lastOwnerWithTxModScore token)) ∧
      (∀ spk tick, ((VipPartition.lastFeeWtx spk tick).run DbBytes.answer bytes).1 =
        .ok (lastFee db.vip spk tick)) ∧
      ∀ txScore, ((ScoredDiscountsPartition.rangeFromScoreWtx txScore).run DbBytes.answer bytes).1 =
        (rangeFromScore db.scoreToDiscount txScore).map .ok := by
  refine ⟨?_, ?_, ?_, ?_, ?_⟩
  · rw [(DbBytes.run_eq _ encodes).1]
    rfl
  · intro tick
    rw [(DbBytes.run_eq _ encodes).1]
    have keys : ((MintHistoryPartition.lastMintedTokenSeqNoWtx tick).run DbRows.answer
        (.of (db.rows rejections))).1 =
          (nextItem ((db.mintHistory.entries.filter fun row =>
            tick.bytes.isPrefixOf row.1.ownedKey).map fun row => .ok row.1)).map fun found =>
              found.map fun key => (key.tokenId, key.score, u64Max - key.reversedSeq) := rfl
    rw [keys, nextItem_map_ok, List.head?_filter, OwnershipStore.lastMintedTokenSeqNo,
      Partition.firstWhere]
    simp only [Except.map, Option.map_map, Function.comp_def]
  · intro token
    rw [(DbBytes.run_eq _ encodes).1]
    have rows : ((OwnershipHistoryPartition.lastOwnerWithTxModScoreWtx token).run DbRows.answer
        (.of (db.rows rejections))).1 =
          (nextItem ((db.ownershipHistory.entries.filter fun row =>
            token.ownedKey.isPrefixOf row.1.ownedKey).map fun row => .ok row)).map fun found =>
              found.map fun row => (row.2, u64Max - row.1.reversedScore) := rfl
    rw [rows, nextItem_map_ok, List.head?_filter, OwnershipStore.lastOwnerWithTxModScore,
      Partition.firstWhere, Option.map_id']
    rfl
  · intro spk tick
    rw [(DbBytes.run_eq _ encodes).1]
    have keys : ((VipPartition.lastFeeWtx spk tick).run DbRows.answer
        (.of (db.rows rejections))).1 =
          (nextItem ((db.vip.entries.filter fun row => decide (⟨spk, tick, 0, 0⟩ ≤ row.1) &&
            decide (row.1 < ⟨spk, tick, u64Max, u64Max⟩)).map fun row => .ok row.1)).map
              fun found => found.map VipKey.fee := rfl
    rw [keys, nextItem_map_ok, List.head?_filter, lastFee, Partition.firstWhere]
    simp only [Except.map, Option.map_map, Function.comp_def]
  · intro txScore
    rw [(DbBytes.run_eq _ encodes).1]
    rfl

end Krc721
