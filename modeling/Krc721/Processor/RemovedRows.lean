import Krc721.Processor.RemovalProperties
import Krc721.Processor.ChainFrame

/-! What a removal can leave behind, whatever is in the database. No row is new but the owners that
it reads off the history and the listings that it restores, and the rows of the threshold and above
are gone. -/

set_option autoImplicit false

namespace Krc721

open OrderedStore

theorem isSome_foldl_erase {Key Value Item : Type} [LinearOrder Key]
    {partition : Partition Key Value} {items : List Item} (keyOf : Item → Key) {key : Key} :
    ((items.foldl (fun rows item => rows.erase (keyOf item)) partition).get key).isSome ↔
      (partition.get key).isSome ∧ ∀ item ∈ items, keyOf item ≠ key := by
  rw [Partition.get_foldl_erase]
  by_cases erased : ∃ item ∈ items, keyOf item = key
  · rw [if_pos erased]
    obtain ⟨item, member, same⟩ := erased
    exact iff_of_false (by simp) fun kept => kept.2 item member same
  · rw [if_neg erased]
    simp only [not_exists, not_and] at erased
    exact ⟨fun present => ⟨present, erased⟩, And.left⟩

/-! The log. -/

/-- The row that a removal makes of an accepted send in the log. -/
def LogStore.Restores (log : LogStore) (token : OwnershipKey) (listing : ListingValue) : Prop :=
  ∃ score common info, log.operationHistory.get score = some ⟨⟨common, .send info⟩, none⟩ ∧
    token = ⟨common.tick, info.tokenId⟩ ∧ listing.listingTxId = info.listingUtxoTxid ∧
    log.txIdToOpscore.get info.listingUtxoTxid = some listing.opScore

/-- What removing operations from the log leaves. -/
structure LogCleared (db db' : Db) : Prop where
  owned : db'.toOwnershipStore = db.toOwnershipStore
  collections : db'.toCollectionStore = db.toCollectionStore
  log : ∀ {score checked}, db'.operationHistory.get score = some checked →
    db.operationHistory.get score = some checked
  index : ∀ {txId score}, db'.txIdToOpscore.get txId = some score →
    db.txIdToOpscore.get txId = some score
  listings : ∀ {token listing}, db'.listings.get token = some listing →
    db.listings.get token = some listing ∨ db.toLogStore.Restores token listing

namespace LogCleared

variable {db middle db' : Db}

theorem refl (db : Db) : LogCleared db db := ⟨rfl, rfl, id, id, .inl⟩

theorem trans (first : LogCleared db middle) (second : LogCleared middle db') :
    LogCleared db db' where
  owned := second.owned.trans first.owned
  collections := second.collections.trans first.collections
  log := fun logged => first.log (second.log logged)
  index := fun indexed => first.index (second.index indexed)
  listings := by
    intro token listing found
    rcases second.listings found with kept | restored
    · exact first.listings kept
    · obtain ⟨score, common, info, logged, same, txId, indexed⟩ := restored
      exact .inr ⟨score, common, info, first.log logged, same, txId, first.index indexed⟩

/-- One row of the log and one row of its index go. -/
theorem erase (db : Db) (txId : TransactionId) (score : ℕ) : LogCleared db { db with
    txIdToOpscore := db.txIdToOpscore.erase txId
    operationHistory := db.operationHistory.erase score } where
  owned := rfl
  collections := rfl
  log := by
    intro score' checked logged
    rw [Partition.get_erase] at logged
    split at logged
    · cases logged
    · exact logged
  index := by
    intro txId' score' indexed
    rw [Partition.get_erase] at indexed
    split at indexed
    · cases indexed
    · exact indexed
  listings := .inl

end LogCleared

section Log

variable {db db' : Db} {diff diff' : StatsDiffs}

theorem restoreListingForReorgedSend_history (db : Db) (common : OperationCommon)
    (info : SendInfo) : (restoreListingForReorgedSend db common info).toLogStore = db.toLogStore ∧
      (restoreListingForReorgedSend db common info).toOwnershipStore = db.toOwnershipStore ∧
      (restoreListingForReorgedSend db common info).toCollectionStore = db.toCollectionStore := by
  unfold restoreListingForReorgedSend
  split
  · exact ⟨rfl, rfl, rfl⟩
  · split
    · exact ⟨rfl, rfl, rfl⟩
    · split
      · exact ⟨rfl, rfl, rfl⟩
      · split
        · exact ⟨rfl, rfl, rfl⟩
        · exact ⟨rfl, rfl, rfl⟩

theorem restoreListingForReorgedSend_listings {common : OperationCommon} {info : SendInfo}
    {token : OwnershipKey} {listing : ListingValue}
    (found : (restoreListingForReorgedSend db common info).listings.get token = some listing) :
    db.listings.get token = some listing ∨ token = ⟨common.tick, info.tokenId⟩ ∧
      listing.listingTxId = info.listingUtxoTxid ∧
      db.txIdToOpscore.get info.listingUtxoTxid = some listing.opScore := by
  unfold restoreListingForReorgedSend at found
  split at found
  · exact .inl found
  · rename_i listScore indexed
    split at found
    · exact .inl found
    · split at found
      · exact .inl found
      · split at found
        · simp only [Db.insertListing, Partition.get_insert] at found
          split at found
          · rename_i same
            cases found
            exact .inr ⟨same.symm, rfl, indexed⟩
          · exact .inl found
        · exact .inl found

theorem CheckedOperation.eq_accepted {checked : CheckedOperation} {info : OperationInfo}
    (kind : checked.operation.info = info) (accepted : ¬ checked.error.isSome) :
    checked = ⟨⟨checked.operation.common, info⟩, none⟩ := by
  obtain ⟨⟨common, _⟩, error⟩ := checked
  rw [Option.not_isSome_iff_eq_none] at accepted
  subst accepted
  rw [← kind]

theorem removeOperation_cleared {score : ℕ} {op : CheckedOperation}
    (success : removeOperation db diff score op = .ok (db', diff')) :
    LogCleared db db' ∧ db'.operationHistory.get score = none := by
  have erased := LogCleared.erase db op.operation.common.txId score
  simp only [removeOperation] at success
  split at success
  · cases success
  · rename_i checked logged
    split at success
    · cases success
      exact ⟨erased, Partition.get_erase_self _ _⟩
    · rename_i accepted
      cases success
      split
      · rename_i info kind
        obtain ⟨log, owned, collections⟩ := restoreListingForReorgedSend_history { db with
          txIdToOpscore := db.txIdToOpscore.erase op.operation.common.txId
          operationHistory := db.operationHistory.erase score } checked.operation.common info
        refine ⟨⟨owned, collections, ?_, ?_, ?_⟩, ?_⟩
        · intro score' checked' found
          rw [congrArg LogStore.operationHistory log] at found
          exact erased.log found
        · intro txId score' found
          rw [congrArg LogStore.txIdToOpscore log] at found
          exact erased.index found
        · intro token listing found
          rcases restoreListingForReorgedSend_listings found with kept | ⟨same, txId, indexed⟩
          · exact .inl kept
          · rw [CheckedOperation.eq_accepted kind accepted] at logged
            exact .inr ⟨score, checked.operation.common, info, logged, same, txId,
              erased.index indexed⟩
        · rw [congrArg LogStore.operationHistory log]
          exact Partition.get_erase_self _ _
      · exact ⟨erased, Partition.get_erase_self _ _⟩

theorem removeOperations_cleared {ops : List (ℕ × CheckedOperation)}
    (success : removeOperations db diff ops = .ok (db', diff')) :
    LogCleared db db' ∧ ∀ op ∈ ops, db'.operationHistory.get op.1 = none := by
  induction ops generalizing db diff with
  | nil =>
      cases success
      exact ⟨.refl _, by simp⟩
  | cons op ops ih =>
      obtain ⟨score, op⟩ := op
      rw [removeOperations] at success
      split at success
      · cases success
      · rename_i middle diff turn
        obtain ⟨first, gone⟩ := removeOperation_cleared turn
        obtain ⟨rest, others⟩ := ih success
        refine ⟨first.trans rest, List.forall_mem_cons.2 ⟨?_, others⟩⟩
        rw [Option.eq_none_iff_forall_ne_some]
        intro checked found
        rw [rest.log found] at gone
        cases gone

theorem removeAffectedOperations_log {threshold : ℕ}
    (success : removeAffectedOperations db threshold = .ok (db', diff)) :
    LogCleared db db' ∧
      ∀ score, (db'.operationHistory.get score).isSome → score < threshold := by
  obtain ⟨cleared, gone⟩ := removeOperations_cleared success
  refine ⟨cleared, fun score logged => not_le.1 fun reached => ?_⟩
  obtain ⟨checked, found⟩ := Option.isSome_iff_exists.1 logged
  rw [gone (score, checked) (Partition.mem_entriesFrom.2 ⟨cleared.log found, reached⟩)] at found
  cases found

end Log

/-! Collections and listings. -/

/-- The collections that are left are those that no removed deployment names. -/
theorem CollectionStore.removeAffectedDeployments_rows (store : CollectionStore)
    (threshold : ℕ) :
    (∀ key, ((store.removeAffectedDeployments threshold).1.collectionDeployments.get key).isSome ↔
      (store.collectionDeployments.get key).isSome ∧ key.score < threshold) ∧
    ∀ tick entry,
      (store.removeAffectedDeployments threshold).1.collectionRegistry.get tick = some entry ↔
        store.collectionRegistry.get tick = some entry ∧
          ∀ score, (store.collectionDeployments.get ⟨score, tick⟩).isSome → score < threshold := by
  obtain ⟨deployments, registry, _⟩ := foldl_deployments
    (store.collectionDeployments.keysFrom ⟨threshold, Tick.MIN⟩) store ∅ (by simp)
  have reached : ∀ key, key ∈ store.collectionDeployments.keysFrom ⟨threshold, Tick.MIN⟩ ↔
      (store.collectionDeployments.get key).isSome ∧ threshold ≤ key.score := by
    intro key
    rw [Partition.mem_keysFrom, DeploymentKey.start_le_iff]
  constructor
  · intro key
    have cleared : (store.removeAffectedDeployments threshold).1.collectionDeployments = _ :=
      deployments
    rw [cleared]
    refine (isSome_foldl_erase id).trans ?_
    constructor
    · intro kept
      exact ⟨kept.1, not_le.1 fun high => kept.2 key ((reached key).2 ⟨kept.1, high⟩) rfl⟩
    · intro kept
      refine ⟨kept.1, fun other member same => kept.2.not_ge ?_⟩
      exact same ▸ ((reached other).1 member).2
  · intro tick entry
    have cleared : (store.removeAffectedDeployments threshold).1.collectionRegistry = _ :=
      registry
    rw [cleared, Partition.get_foldl_erase]
    split
    · rename_i removed
      obtain ⟨key, member, same⟩ := removed
      obtain ⟨present, high⟩ := (reached key).1 member
      subst same
      exact iff_of_false (by simp) fun kept => (kept.2 key.score present).not_ge high
    · rename_i spared
      refine ⟨fun found => ⟨found, fun score present => not_le.1 fun high => ?_⟩, And.left⟩
      exact spared ⟨⟨score, tick⟩, (reached _).2 ⟨present, high⟩, rfl⟩

theorem removeAffectedListings_rows (db : Db) (threshold : ℕ) :
    (removeAffectedListings db threshold).toLogStore = db.toLogStore ∧
    (removeAffectedListings db threshold).toOwnershipStore = db.toOwnershipStore ∧
    (removeAffectedListings db threshold).toCollectionStore = db.toCollectionStore ∧
    ∀ token listing, (removeAffectedListings db threshold).listings.get token = some listing →
      db.listings.get token = some listing ∧ listing.opScore < threshold := by
  have cleared : removeAffectedListings db threshold = _ := foldl_removeListing db
    (db.listings.entries.filter fun entry => threshold ≤ entry.2.opScore)
  rw [cleared]
  refine ⟨rfl, rfl, rfl, fun token listing found => ?_⟩
  simp only [Partition.get_foldl_erase] at found
  split at found
  · cases found
  · rename_i spared
    refine ⟨found, not_le.1 fun reached => spared ⟨(token, listing), ?_, rfl⟩⟩
    exact List.mem_filter.2 ⟨Partition.mem_entries.2 found, decide_eq_true reached⟩

/-! Ownership. -/

section Ownership

variable {premintFromRemoved : Partition Tick ℕ} {db db' : Db} {threshold : ℕ}

theorem removeTokenOperation_rows {key : TokenMintsKey} {holder : Option ScriptPublicKey}
    (success : removeTokenOperation premintFromRemoved db key = .ok (db', holder)) :
    ∃ ranges, db' = { db with
      toRangeStore := ranges
      mintHistory := db.mintHistory.erase key.mintKey
      ownershipChanges := db.ownershipChanges.erase key
      ownershipHistory := db.ownershipHistory.erase key.historyKey } := by
  simp only [removeTokenOperation] at success
  split at success
  · split at success
    · cases success
    · split at success
      · split at success
        · cases success
        · rename_i ranges _
          cases success
          exact ⟨ranges, rfl⟩
      · cases success
        exact ⟨_, rfl⟩
  · cases success
    exact ⟨_, rfl⟩

theorem removeTokenOperations_rows {keys : List TokenMintsKey}
    {affected : List (TokenMintsKey × Option ScriptPublicKey)}
    (success : removeTokenOperations premintFromRemoved db keys = .ok (db', affected)) :
    affected.map Prod.fst = keys ∧ ∃ ranges, db' = { db with
      toRangeStore := ranges
      mintHistory := keys.foldl (fun mints key => mints.erase key.mintKey) db.mintHistory
      ownershipChanges := keys.foldl (fun changes key => changes.erase key) db.ownershipChanges
      ownershipHistory :=
        keys.foldl (fun history key => history.erase key.historyKey) db.ownershipHistory } := by
  induction keys generalizing db affected with
  | nil =>
      cases success
      exact ⟨rfl, _, rfl⟩
  | cons key keys ih =>
      rw [removeTokenOperations] at success
      split at success
      · cases success
      · rename_i middle holder turn
        split at success
        · cases success
        · rename_i last others rest
          cases success
          obtain ⟨ranges, same⟩ := removeTokenOperation_rows turn
          obtain ⟨keys_eq, ranges', last_eq⟩ := ih rest
          subst same
          exact ⟨congrArg (key :: ·) keys_eq, ranges', last_eq⟩

/-- What undoing the changes of owner from the threshold on leaves. An owner is one that a row of
the history names, or none of the changes was about its token. -/
structure OwnersCleared (threshold : ℕ) (old new : OwnershipStore) : Prop where
  changes : ∀ {key}, (new.ownershipChanges.get key).isSome ↔
    (old.ownershipChanges.get key).isSome ∧ key.score < threshold
  mints : ∀ {key}, (new.mintHistory.get key).isSome → (old.mintHistory.get key).isSome ∧
    ∀ change ∈ affectedKeys old threshold, change.mintKey ≠ key
  history : ∀ {key}, (new.ownershipHistory.get key).isSome →
    (old.ownershipHistory.get key).isSome ∧
      ∀ change ∈ affectedKeys old threshold, change.historyKey ≠ key
  owned : ∀ {token}, (new.currentOwnership.get token).isSome →
    (∃ reversed, (new.ownershipHistory.get ⟨token.tick, token.tokenId, reversed⟩).isSome) ∨
    (old.currentOwnership.get token).isSome ∧ ∀ change ∈ affectedKeys old threshold,
      (⟨change.tick, change.tokenId⟩ : OwnershipKey) ≠ token

/-- A rebuilt owner is read off the history. -/
theorem OwnershipStore.owned_rebuild {store : OwnershipStore}
    {affected : List (TokenMintsKey × Option ScriptPublicKey)} {token : OwnershipKey}
    (owned : (((store.removeOwnershipRecords affected).rebuildOwnershipState
      affected).currentOwnership.get token).isSome) :
    (∃ reversed, (store.ownershipHistory.get ⟨token.tick, token.tokenId, reversed⟩).isSome) ∨
      (store.currentOwnership.get token).isSome ∧ ¬ Touched affected token := by
  have rebuilt := currentOwnership_rebuild (store.removeOwnershipRecords affected) affected token
  have kept : ((store.removeOwnershipRecords affected).currentOwnership.get token).isSome ↔
      (store.currentOwnership.get token).isSome ∧ ∀ entry ∈ affected,
        (⟨entry.1.tick, entry.1.tokenId⟩ : OwnershipKey) ≠ token :=
    isSome_foldl_erase _
  by_cases touched : Touched affected token
  · rw [rebuilt.1 touched] at owned
    cases last : (store.removeOwnershipRecords affected).lastOwnerWithTxModScore token with
    | some row =>
        obtain ⟨reversed, _, found, _⟩ := lastOwner_eq_some_iff.1 last
        exact .inl ⟨reversed, Option.isSome_iff_exists.2 ⟨_, found⟩⟩
    | none =>
        simp only [last] at owned
        obtain ⟨entry, member, same⟩ := touched
        exact absurd same ((kept.1 owned).2 entry member)
  · rw [rebuilt.2 touched] at owned
    exact .inr ⟨(kept.1 owned).1, touched⟩

theorem reconstructTokenOwnership_rows
    (success : reconstructTokenOwnership db threshold premintFromRemoved = .ok db') :
    db'.toLogStore = db.toLogStore ∧ db'.toCollectionStore = db.toCollectionStore ∧
    db'.listings = db.listings ∧
    OwnersCleared threshold db.toOwnershipStore db'.toOwnershipStore := by
  simp only [reconstructTokenOwnership] at success
  split at success
  · cases success
  · rename_i cleared affected loop
    cases success
    obtain ⟨keys_eq, ranges, same⟩ := removeTokenOperations_rows loop
    have rebuilt := OwnershipStore.rebuildOwnershipState_history
      (cleared.removeOwnershipRecords affected) affected
    subst same
    refine ⟨rfl, rfl, rfl, ?_⟩
    constructor
    case changes =>
      intro key
      rw [rebuilt.2.1]
      refine (isSome_foldl_erase id).trans ?_
      constructor
      · intro kept
        exact ⟨kept.1, not_le.1 fun high =>
          kept.2 key (mem_affectedKeys.2 ⟨kept.1, high⟩) rfl⟩
      · intro kept
        refine ⟨kept.1, fun change member equal => kept.2.not_ge ?_⟩
        exact equal ▸ (mem_affectedKeys.1 member).2
    case mints =>
      intro key minted
      rw [rebuilt.1] at minted
      exact (isSome_foldl_erase TokenMintsKey.mintKey).1 minted
    case history =>
      intro key held
      rw [rebuilt.2.2] at held
      exact (isSome_foldl_erase TokenMintsKey.historyKey).1 held
    case owned =>
      intro token owned
      rcases OwnershipStore.owned_rebuild owned with remembered | ⟨owned, untouched⟩
      · left
        rw [rebuilt.2.2]
        exact remembered
      · refine .inr ⟨owned, fun change member equal => untouched ?_⟩
        rw [affectedKeys, ← keys_eq, List.mem_map] at member
        obtain ⟨entry, member, same⟩ := member
        exact ⟨entry, member, by rw [same, equal]⟩

end Ownership

/-! The whole removal. -/

/-- What a removal leaves that cuts at a score. -/
structure Cleared (threshold : ℕ) (db db' : Db) : Prop
    extends OwnersCleared threshold db.toOwnershipStore db'.toOwnershipStore where
  deployments : ∀ {key}, (db'.collectionDeployments.get key).isSome ↔
    (db.collectionDeployments.get key).isSome ∧ key.score < threshold
  registry : ∀ {tick entry}, db'.collectionRegistry.get tick = some entry ↔
    db.collectionRegistry.get tick = some entry ∧
      ∀ score, (db.collectionDeployments.get ⟨score, tick⟩).isSome → score < threshold
  log : ∀ {score checked}, db'.operationHistory.get score = some checked →
    db.operationHistory.get score = some checked ∧ score < threshold
  index : ∀ {txId score}, db'.txIdToOpscore.get txId = some score →
    db.txIdToOpscore.get txId = some score
  listings : ∀ {token listing}, db'.listings.get token = some listing →
    listing.opScore < threshold ∧
      (db.listings.get token = some listing ∨ db.toLogStore.Restores token listing)

theorem processRemoval_cleared {kaspa : Kaspa} {db db' : Db} {removed : List RpcHash}
    {forced : Option ℕ} {diff : StatsDiffs}
    (success : processRemoval kaspa db removed forced = .ok (db', diff)) :
    db' = db ∨ ∃ minBlueScore,
      (db.identifyReorgBlocksAndDelete removed forced).2 = some minBlueScore ∧
      Cleared (calculateTxScoreFromBlue kaspa minBlueScore) db db' := by
  simp only [processRemoval] at success
  split at success
  · rename_i notFound
    cases success
    left
    rw [(db.toChainStore.identifyReorgBlocksAndDelete_blocks removed forced).2 notFound]
  · rename_i minBlueScore found
    refine .inr ⟨minBlueScore, found, ?_⟩
    generalize calculateTxScoreFromBlue kaspa minBlueScore = threshold at success ⊢
    split at success
    · cases success
    · rename_i uncovered counters operations
      split at success
      · cases success
      · rename_i rebuilt reconstruction
        cases success
        obtain ⟨uncovers, below⟩ := removeAffectedOperations_log operations
        obtain ⟨deployments, registry⟩ := uncovered.removeAffectedDeployments_rows threshold
        obtain ⟨sameLog, sameOwners, sameCollections, unlisted⟩ := removeAffectedListings_rows
          (removeDiscounts { uncovered with
            toCollectionStore := (uncovered.removeAffectedDeployments threshold).1 } threshold)
          threshold
        obtain ⟨log, collections, listings, owners⟩ :=
          reconstructTokenOwnership_rows reconstruction
        have logEq : db'.toLogStore = uncovered.toLogStore := log.trans sameLog
        have collectionsEq := collections.trans sameCollections
        have storeEq : uncovered.toCollectionStore = db.toCollectionStore := uncovers.collections
        have ownersEq : uncovered.toOwnershipStore = db.toOwnershipStore := uncovers.owned
        rw [sameOwners] at owners
        rw [storeEq] at deployments registry
        constructor
        case toOwnersCleared => exact ownersEq ▸ owners
        case deployments =>
          intro key
          rw [congrArg CollectionStore.collectionDeployments collectionsEq, ← deployments,
            ← storeEq]
          rfl
        case registry =>
          intro tick entry
          rw [congrArg CollectionStore.collectionRegistry collectionsEq, ← registry, ← storeEq]
          rfl
        case log =>
          intro score checked found
          rw [congrArg LogStore.operationHistory logEq] at found
          exact ⟨uncovers.log found, below score (by rw [found]; rfl)⟩
        case index =>
          intro txId score found
          rw [congrArg LogStore.txIdToOpscore logEq] at found
          exact uncovers.index found
        case listings =>
          intro token listing found
          rw [listings] at found
          obtain ⟨kept, low⟩ := unlisted token listing found
          exact ⟨low, uncovers.listings kept⟩

end Krc721
