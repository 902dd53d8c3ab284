import Krc721.Processor.Operations

/-! A chain reorganisation: the blocks at or above a blue score go, then the operations,
deployments, discounts and listings they carried, and the owners of the touched tokens are
rebuilt from the history that remains. -/

set_option autoImplicit false

namespace Krc721

open OrderedStore

def BLOCK_TX_CAPACITY : ℕ := 1000

/-- `calculate_tx_score`; a release build wraps at the width of a `u64`. -/
def calculateTxScore (kaspa : Kaspa)
    (blueScore blockTxIndexWithinMergeset txIndexWithinMergedBlock : ℕ) : ℕ :=
  (blueScore * kaspa.mergeSetLimit * BLOCK_TX_CAPACITY +
    blockTxIndexWithinMergeset * BLOCK_TX_CAPACITY + txIndexWithinMergedBlock) % 2 ^ 64

def calculateTxScoreFromBlue (kaspa : Kaspa) (blueScore : ℕ) : ℕ :=
  calculateTxScore kaspa blueScore 0 0

/-! Chain blocks. -/

namespace ChainStore

/-- `lookup_removed_block_score`: the reverse index, or the tip when its entry is missing. -/
def lookupRemovedBlockScore (chain : ChainStore) (block : RpcHash) : Option ℕ :=
  match chain.blockhashToScore.get block with
  | some score => some score
  | none =>
      match chain.lastAcceptedBlock with
      | none => none
      | some lastAccepted =>
          if lastAccepted.blockHash = block then some lastAccepted.blueScore else none

def removeChainStateFromBlueScore (chain : ChainStore) (minBlueScore : ℕ) : ChainStore :=
  let blocksToRemove := chain.chainBlockScores.keysFrom ⟨minBlueScore, 0⟩
  blocksToRemove.foldl (fun chain block =>
    { chainBlockScores := chain.chainBlockScores.erase block
      blockhashToScore := chain.blockhashToScore.erase block.blockHash }) chain

/-- The state of the loop over the removed blocks. -/
structure RemovedBlocks where
  chain : ChainStore
  minBlueScore : ℕ
  foundRemovedBlock : Bool

def removeBlock (state : RemovedBlocks) (block : RpcHash) : RemovedBlocks :=
  match state.chain.lookupRemovedBlockScore block with
  | none => state
  | some score =>
      { chain := { state.chain with
          blockhashToScore := state.chain.blockhashToScore.erase block }
        minBlueScore := min state.minBlueScore score
        foundRemovedBlock := true }

def identifyReorgBlocksAndDelete (chain : ChainStore) (removedBlocks : List RpcHash)
    (forcedRollbackBlueScore : Option ℕ) : ChainStore × Option ℕ :=
  let state := removedBlocks.foldl removeBlock ⟨chain, u64Max, false⟩
  let state :=
    match forcedRollbackBlueScore with
    | none => state
    | some score =>
        { state with
          minBlueScore := min state.minBlueScore score
          foundRemovedBlock := true }
  if state.foundRemovedBlock then
    (state.chain.removeChainStateFromBlueScore state.minBlueScore, some state.minBlueScore)
  else (state.chain, none)

end ChainStore

/-! Operations. -/

/-- `restore_listing_for_reorged_send`: the listing a reorged send had consumed returns when
its list operation is still in the log. -/
def restoreListingForReorgedSend (db : Db) (common : OperationCommon) (sendInfo : SendInfo) :
    Db :=
  match db.txIdToOpscore.get sendInfo.listingUtxoTxid with
  | none => db
  | some listOpScore =>
      match db.operationHistory.get listOpScore with
      | none => db
      | some checked =>
          if checked.error.isSome then db
          else
            match checked.operation.info with
            | .list listInfo =>
                db.insertListing common.tick sendInfo.tokenId {
                  seller := checked.operation.common.sender
                  listingTxId := sendInfo.listingUtxoTxid
                  utxoAddress := listInfo.utxoAddress
                  redeemScript := listInfo.redeemScript
                  opScore := listOpScore }
            | _ => db

namespace StatsDiffs

/-- What a removed operation takes off the counters. -/
def remove (diff : StatsDiffs) (common : OperationCommon) (info : OperationInfo) :
    StatsDiffs :=
  let diff := { diff with securityFees := wrappingAdd diff.securityFees common.fee }
  match info with
  | .deploy info => { diff with
      deployments := wrappingAdd diff.deployments 1
      royaltyFees := wrappingAdd diff.royaltyFees (royaltyFee info.royalty) }
  | .mint info => { diff with
      mints := wrappingAdd diff.mints 1
      royaltyFees := wrappingAdd diff.royaltyFees (royaltyFee info.royalty) }
  | .transfer _ => { diff with transfers := wrappingAdd diff.transfers 1 }
  | .discount _ => diff
  | .list _ => { diff with listings := wrappingAdd diff.listings 1 }
  | .send _ => { diff with sends := wrappingAdd diff.sends 1 }

end StatsDiffs

/-- One turn of the loop in `remove_affected_operations`. -/
def removeOperation (db : Db) (diff : StatsDiffs) (score : ℕ) (op : CheckedOperation) :
    Except Fault (Db × StatsDiffs) :=
  let db := { db with
    txIdToOpscore := db.txIdToOpscore.erase op.operation.common.txId }
  match db.operationHistory.get score with
  | none => .error (.panic "called `Option::unwrap()` on a `None` value")
  | some checked =>
      let db := { db with operationHistory := db.operationHistory.erase score }
      if checked.error.isSome then .ok (db, diff)
      else
        let db :=
          match checked.operation.info with
          | .send sendInfo =>
              restoreListingForReorgedSend db checked.operation.common sendInfo
          | _ => db
        .ok (db, StatsDiffs.remove diff checked.operation.common checked.operation.info)

def removeOperations :
    Db → StatsDiffs → List (ℕ × CheckedOperation) → Except Fault (Db × StatsDiffs)
  | db, diff, [] => .ok (db, diff)
  | db, diff, (score, op) :: ops =>
      match removeOperation db diff score op with
      | .error fault => .error fault
      | .ok (db, diff) => removeOperations db diff ops

def removeAffectedOperations (db : Db) (scoreThreshold : ℕ) : Except Fault (Db × StatsDiffs) :=
  removeOperations db 0 (db.operationHistory.entriesFrom scoreThreshold)

/-! Deployments, discounts and listings. -/

/-- `remove_affected_deployments`, with the premint of every deployment that is removed. -/
def CollectionStore.removeAffectedDeployments (store : CollectionStore) (scoreThreshold : ℕ) :
    CollectionStore × Partition Tick ℕ :=
  let deploymentsToDelete := store.collectionDeployments.keysFrom ⟨scoreThreshold, Tick.MIN⟩
  deploymentsToDelete.foldl (fun (store, premintCount) key =>
    ({ collectionDeployments := store.collectionDeployments.erase key
       collectionRegistry := store.collectionRegistry.erase key.tick },
      match store.collectionRegistry.get key.tick with
      | some deployment => premintCount.insert key.tick deployment.info.info.premint
      | none => premintCount)) (store, ∅)

/-- `remove_discounts`; `score_to_discount` itself keeps its entries. -/
def removeDiscounts (db : Db) (txScoreThreshold : ℕ) : Db :=
  { db with
    vip := (rangeFromScore db.scoreToDiscount txScoreThreshold).foldl (fun vip entry =>
      vip.erase ⟨entry.1.spk, entry.1.tick, u64Max - entry.1.score, entry.2⟩) db.vip }

def removeAffectedListings (db : Db) (scoreThreshold : ℕ) : Db :=
  let allListings := db.listings.entries.filter fun entry => scoreThreshold ≤ entry.2.opScore
  allListings.foldl (fun db entry =>
    db.removeListing entry.1.tick entry.1.tokenId entry.2.seller) db

/-! Ownership. -/

/-- The premint of a tick: that of its removed deployment, else that of the registry. -/
def premintOf (premintFromRemoved : Partition Tick ℕ) (store : CollectionStore) (tick : Tick) :
    Option ℕ :=
  match premintFromRemoved.get tick with
  | some premint => some premint
  | none => (store.collectionRegistry.get tick).map (·.info.info.premint)

/-- One affected key of `get_affected_token_operations`: its history row, its change row and,
for a mint, its mint row and range go. -/
def removeTokenOperation (premintFromRemoved : Partition Tick ℕ) (db : Db)
    (key : TokenMintsKey) : Except Fault (Db × Option ScriptPublicKey) :=
  let historyKey := OwnershipHistoryKey.withScore key.tick key.tokenId key.score
  let mintKey : MintHistoryKey := ⟨key.tick, key.reversedSeqNumber, key.tokenId, key.score⟩
  let holder := db.ownershipHistory.get historyKey
  let minted := (db.mintHistory.get mintKey).isSome
  let db := { db with
    ownershipHistory := db.ownershipHistory.erase historyKey
    ownershipChanges := db.ownershipChanges.erase key
    mintHistory := db.mintHistory.erase mintKey }
  if minted then
    match premintOf premintFromRemoved db.toCollectionStore key.tick with
    | none => .error (.panic "Fallback should not fail")
    | some premint =>
        if premint < key.tokenId then
          match db.rollbackTokenGeneration key.tick key.tokenId with
          | .error fault => .error fault
          | .ok ranges => .ok ({ db with toRangeStore := ranges }, holder)
        else .ok (db, holder)
  else .ok (db, holder)

def removeTokenOperations (premintFromRemoved : Partition Tick ℕ) :
    Db → List TokenMintsKey → Except Fault (Db × List (TokenMintsKey × Option ScriptPublicKey))
  | db, [] => .ok (db, [])
  | db, key :: keys =>
      match removeTokenOperation premintFromRemoved db key with
      | .error fault => .error fault
      | .ok (db, holder) =>
          match removeTokenOperations premintFromRemoved db keys with
          | .error fault => .error fault
          | .ok (db, affected) => .ok (db, (key, holder) :: affected)

/-- `get_affected_token_operations`, newest change first. -/
def getAffectedTokenOperations (db : Db) (scoreThreshold : ℕ)
    (premintFromRemoved : Partition Tick ℕ) :
    Except Fault (Db × List (TokenMintsKey × Option ScriptPublicKey)) :=
  removeTokenOperations premintFromRemoved db
    (db.ownershipChanges.keysFrom ⟨scoreThreshold, Tick.MIN, 0, 0⟩).reverse

namespace OwnershipStore

def removeOwnershipRecords (store : OwnershipStore)
    (affectedTokens : List (TokenMintsKey × Option ScriptPublicKey)) : OwnershipStore :=
  { store with
    currentOwnership := affectedTokens.foldl (fun currentOwnership affected =>
      currentOwnership.erase ⟨affected.1.tick, affected.1.tokenId⟩) store.currentOwnership }

/-- One turn of the loop in `rebuild_ownership_state`. -/
def rebuildToken (store : OwnershipStore) (key : TokenMintsKey)
    (holder : Option ScriptPublicKey) : OwnershipStore :=
  let store :=
    match holder with
    | some spk => { store with
        addressHoldings := store.addressHoldings.erase ⟨spk, key.tick, key.tokenId⟩ }
    | none => store
  match store.lastOwnerWithTxModScore ⟨key.tick, key.tokenId⟩ with
  | some (owner, modTxScore) => { store with
      currentOwnership := store.currentOwnership.insert ⟨key.tick, key.tokenId⟩
        ⟨owner, modTxScore⟩
      addressHoldings := store.addressHoldings.insert ⟨owner, key.tick, key.tokenId⟩
        modTxScore }
  | none => store

def rebuildOwnershipState (store : OwnershipStore)
    (affectedTokens : List (TokenMintsKey × Option ScriptPublicKey)) : OwnershipStore :=
  affectedTokens.foldl (fun store affected => store.rebuildToken affected.1 affected.2) store

end OwnershipStore

def reconstructTokenOwnership (db : Db) (scoreThreshold : ℕ)
    (premintFromRemoved : Partition Tick ℕ) : Except Fault Db :=
  match getAffectedTokenOperations db scoreThreshold premintFromRemoved with
  | .error fault => .error fault
  | .ok (db, affectedTokens) =>
      .ok { db with
        toOwnershipStore := (db.removeOwnershipRecords affectedTokens).rebuildOwnershipState
          affectedTokens }

def processRemoval (kaspa : Kaspa) (db : Db) (removedBlocks : List RpcHash)
    (forcedRollbackBlueScore : Option ℕ) : Except Fault (Db × StatsDiffs) :=
  let (chain, minBlueScore) :=
    db.identifyReorgBlocksAndDelete removedBlocks forcedRollbackBlueScore
  let db := { db with toChainStore := chain }
  match minBlueScore with
  | none => .ok (db, 0)
  | some minBlueScore =>
      let txScoreThreshold := calculateTxScoreFromBlue kaspa minBlueScore
      match removeAffectedOperations db txScoreThreshold with
      | .error fault => .error fault
      | .ok (db, statDiffs) =>
          let (collections, premintFromRemoved) :=
            db.removeAffectedDeployments txScoreThreshold
          let db := { db with toCollectionStore := collections }
          let db := removeDiscounts db txScoreThreshold
          let db := removeAffectedListings db txScoreThreshold
          match reconstructTokenOwnership db txScoreThreshold premintFromRemoved with
          | .error fault => .error fault
          | .ok db => .ok (db, statDiffs)

end Krc721
