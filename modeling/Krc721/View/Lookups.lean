import Krc721.View.Records

/-! The queries of the read view for one record: a collection, a listing, and an operation by its
transaction. -/

set_option autoImplicit false

namespace Krc721

open OrderedStore

structure ScoredCheckedOperation where
  opscore : ℕ
  checkedOperation : CheckedOperation
deriving DecidableEq

namespace Db

variable (db : Db)

/-- A last mint that is not in the log leaves the time of the deployment; the list of collections
panics there. -/
def krc721CollectionLookup (tick : Tick) (restrictedProtocols : List String) : Option Collection :=
  match db.collectionRegistry.get tick with
  | none => none
  | some collection =>
      if collection.info.hasIncompatibleUriPrefix restrictedProtocols then none
      else
        let lastMintSeq := db.lastMintedToken tick
        let mtsMod := lastMintSeq.bind fun last =>
          (db.operationHistory.get last.score).map fun checked => checked.operation.common.blockTime
        some {
          deployInfoWithCommon := collection.info
          minted := (lastMintSeq.map (·.seqNo)).getD 0
          opScoreModified := (lastMintSeq.map (·.score)).getD collection.score
          state := .deployed
          mtsMod := mtsMod.getD collection.info.common.blockTime
          opScoreAdded := collection.score }

def krc721ListingLookup (tick : Tick) (tokenId : ℕ) : Option ListingValue :=
  db.listings.get ⟨tick, tokenId⟩

def krc721OpByTxid (txid : TransactionId) : Option ScoredCheckedOperation :=
  match db.txIdToOpscore.get txid with
  | none => none
  | some score => (db.operationHistory.get score).map fun op => ⟨score, op⟩

variable {db} {tick : Tick} {restrictedProtocols : List String} {collection : Collection}

theorem registered_of_krc721CollectionLookup
    (found : db.krc721CollectionLookup tick restrictedProtocols = some collection) :
    db.collectionRegistry.get tick =
      some ⟨collection.opScoreAdded, collection.deployInfoWithCommon⟩ := by
  unfold krc721CollectionLookup at found
  split at found
  · cases found
  · rename_i entry registered
    split at found
    · cases found
    · cases found
      exact registered

/-- Where the last mint is logged, the lookup of a collection is its record in the list. -/
theorem collection_eq_ok_of_lookup
    (logged : ∀ last, db.lastMintedToken tick = some last →
      (db.operationHistory.get last.score).isSome)
    (found : db.krc721CollectionLookup tick restrictedProtocols = some collection) :
    db.collection ⟨collection.opScoreAdded, tick⟩ collection.deployInfoWithCommon =
      .ok collection := by
  unfold krc721CollectionLookup at found
  split at found
  · cases found
  · split at found
    · cases found
    · cases found
      unfold Db.collection
      cases last : db.lastMintedToken tick with
      | none => rfl
      | some lastMint =>
          obtain ⟨checked, stored⟩ := Option.isSome_iff_exists.1 (logged lastMint last)
          simp only [stored, Option.map_some, Option.bind_some, Option.getD_some]

end Db

end Krc721
