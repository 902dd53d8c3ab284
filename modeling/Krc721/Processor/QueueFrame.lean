import Krc721.Processor.Chain

/-! Processing a notification neither reads nor writes the queue: over any other queue it does the
same. -/

set_option autoImplicit false

namespace Krc721

open OrderedStore

/-- The database with another queue. -/
abbrev Db.withQueue (queue : Partition ℕ VirtualChainChanges) (db : Db) : Db :=
  { db with notificationQueue := queue }

/-- Another queue in the database of a result. -/
abbrev requeue {Value : Type} (queue : Partition ℕ VirtualChainChanges) :
    Except Fault (Db × Value) → Except Fault (Db × Value) :=
  Except.map (Prod.map (Db.withQueue queue) id)

section

variable {kaspa : Kaspa} {db : Db} {queue : Partition ℕ VirtualChainChanges}

/-! Additions. -/

theorem processMint_withQueue {entropy score : ℕ} {common : OperationCommon} {info : MintInfo}
    {isDeployment : Bool} :
    processMint (db.withQueue queue) entropy score common info isDeployment =
      requeue queue (processMint db entropy score common info isDeployment) := by
  unfold processMint
  simp only [Db.withQueue]
  split
  · rfl
  · rename_i entry _
    split
    · rfl
    · split
      · rfl
      · generalize (if (decide (0 < entry.info.info.premint) && decide
          ((db.lastMintedTokenSeqNo common.tick).getD 0 < entry.info.info.premint)) = true then none
          else royaltyViolation db.vip common.tick info.toSpk entry.info.info.royalty
            info.royalty) = royalties
        cases royalties with
        | some error => rfl
        | none =>
            dsimp only
            repeat' split
            all_goals rfl

theorem premintLoop_withQueue {common : OperationCommon} {info : DeployInfo} {score count : ℕ} :
    premintLoop common info score count (db.withQueue queue) =
      requeue queue (premintLoop common info score count db) := by
  induction count generalizing db with
  | zero => rfl
  | succ count ih =>
      rw [premintLoop, premintLoop, processMint_withQueue]
      cases processMint db 0 score common ⟨0, info.deployer, none⟩ true with
      | error fault => rfl
      | ok result =>
          obtain ⟨db', outcome⟩ := result
          cases outcome with
          | error error => rfl
          | ok minted => exact ih

theorem processDeployment_withQueue {score : ℕ} {common : OperationCommon} {info : DeployInfo} :
    processDeployment (db.withQueue queue) score common info =
      requeue queue (processDeployment db score common info) := by
  unfold processDeployment
  simp only [Db.withQueue]
  split
  · split
    · rfl
    · rfl
  · exact @premintLoop_withQueue { db with
      collectionRegistry := db.collectionRegistry.insert common.tick ⟨score, info, common⟩
      collectionDeployments := db.collectionDeployments.insert ⟨score, common.tick⟩
        ⟨info, common⟩ } queue common info score info.premint

theorem processTransfer_withQueue {score : ℕ} {common : OperationCommon} {info : TransferInfo} :
    processTransfer (db.withQueue queue) score common info =
      Prod.map (Db.withQueue queue) id (processTransfer db score common info) := by
  unfold processTransfer
  simp only [Db.withQueue]
  repeat' split
  all_goals rfl

theorem processDiscount_withQueue {score : ℕ} {common : OperationCommon} {info : DiscountInfo} :
    processDiscount (db.withQueue queue) score common info =
      Prod.map (Db.withQueue queue) id (processDiscount db score common info) := by
  unfold processDiscount
  simp only [Db.withQueue]
  repeat' split
  all_goals rfl

theorem processList_withQueue {score : ℕ} {common : OperationCommon} {info : ListingInfo} :
    processList kaspa (db.withQueue queue) score common info =
      Prod.map (Db.withQueue queue) id (processList kaspa db score common info) := by
  unfold processList
  simp only [Db.withQueue]
  repeat' split
  all_goals rfl

theorem processSend_withQueue {score : ℕ} {common : OperationCommon} {info : SendInfo} :
    processSend (db.withQueue queue) score common info =
      Prod.map (Db.withQueue queue) id (processSend db score common info) := by
  unfold processSend
  simp only [Db.withQueue]
  repeat' split
  all_goals rfl

theorem applyOperation_withQueue {context : ContextOperation} :
    applyOperation kaspa (db.withQueue queue) context =
      requeue queue (applyOperation kaspa db context) := by
  unfold applyOperation
  cases context.operation.info with
  | deploy info =>
      simp only [processDeployment_withQueue]
      cases processDeployment db context.txScore context.operation.common info <;> rfl
  | mint info =>
      simp only [processMint_withQueue]
      cases processMint db context.mergesetEntropy context.txScore context.operation.common info
        false with
      | error fault => rfl
      | ok result =>
          obtain ⟨db', outcome⟩ := result
          cases outcome <;> rfl
  | transfer info => simp only [processTransfer_withQueue]; rfl
  | discount info => simp only [processDiscount_withQueue]; rfl
  | list info => simp only [processList_withQueue]; rfl
  | send info => simp only [processSend_withQueue]; rfl

theorem processNftOperations_withQueue {diff : StatsDiffs} {contexts : List ContextOperation} :
    processNftOperations kaspa (db.withQueue queue) diff contexts =
      requeue queue (processNftOperations kaspa db diff contexts) := by
  induction contexts generalizing db diff with
  | nil => rfl
  | cons context contexts ih =>
      rw [processNftOperations, processNftOperations, processNftOperation, processNftOperation,
        applyOperation_withQueue]
      cases applyOperation kaspa db context with
      | error fault => rfl
      | ok result => exact @ih (result.1.recordOperation context.txScore result.2) _

theorem processMergeset_withQueue {lastAcceptedBlueScore : ℕ} {diff : StatsDiffs}
    {mergeset : Mergeset} :
    processMergeset kaspa lastAcceptedBlueScore (db.withQueue queue) diff mergeset =
      requeue queue (processMergeset kaspa lastAcceptedBlueScore db diff mergeset) := by
  unfold processMergeset
  split
  · rfl
  · dsimp only
    split
    · rfl
    · have framed := @processNftOperations_withQueue kaspa
        { db with toChainStore := db.toChainStore.accept mergeset } queue 0
        (scoredOperations kaspa { db with toChainStore := db.toChainStore.accept mergeset }
          mergeset)
      have same : scoredOperations kaspa
          { db.withQueue queue with toChainStore := db.toChainStore.accept mergeset } mergeset =
        scoredOperations kaspa { db with toChainStore := db.toChainStore.accept mergeset }
          mergeset := rfl
      dsimp only at framed same
      rw [same, framed]
      cases processNftOperations kaspa
        { db with toChainStore := db.toChainStore.accept mergeset } 0
        (scoredOperations kaspa { db with toChainStore := db.toChainStore.accept mergeset }
          mergeset) <;> rfl

theorem processMergesets_withQueue {lastAcceptedBlueScore : ℕ} {diff : StatsDiffs}
    {mergesets : List Mergeset} :
    processMergesets kaspa lastAcceptedBlueScore (db.withQueue queue) diff mergesets =
      requeue queue (processMergesets kaspa lastAcceptedBlueScore db diff mergesets) := by
  induction mergesets generalizing db diff with
  | nil => rfl
  | cons mergeset mergesets ih =>
      rw [processMergesets, processMergesets, processMergeset_withQueue]
      cases processMergeset kaspa lastAcceptedBlueScore db diff mergeset with
      | error fault => rfl
      | ok result => exact ih

theorem additionPhase_withQueue {vcc : VirtualChainChanges} :
    additionPhase kaspa (db.withQueue queue) vcc =
      (additionPhase kaspa db vcc).map (Db.withQueue queue) := by
  unfold additionPhase processAdditions
  split
  · rw [processMergesets_withQueue]
    dsimp only
    cases processMergesets kaspa ((db.lastAcceptedBlock.map (·.blueScore)).getD 0) db 0
      vcc.mergesets <;> rfl
  · rfl

/-! Removals. -/

theorem restoreListingForReorgedSend_withQueue {common : OperationCommon} {info : SendInfo} :
    restoreListingForReorgedSend (db.withQueue queue) common info =
      (restoreListingForReorgedSend db common info).withQueue queue := by
  unfold restoreListingForReorgedSend
  simp only [Db.withQueue]
  repeat' split
  all_goals rfl

theorem removeOperation_withQueue {diff : StatsDiffs} {score : ℕ} {op : CheckedOperation} :
    removeOperation (db.withQueue queue) diff score op =
      requeue queue (removeOperation db diff score op) := by
  unfold removeOperation
  dsimp only
  split
  · rfl
  · rename_i checked _
    split
    · rfl
    · cases checked.operation.info with
      | send info =>
          have framed := @restoreListingForReorgedSend_withQueue { db with
            txIdToOpscore := db.txIdToOpscore.erase op.operation.common.txId
            operationHistory := db.operationHistory.erase score } queue
            checked.operation.common info
          dsimp only at framed ⊢
          rw [framed]
          rfl
      | _ => rfl

theorem removeOperations_withQueue {diff : StatsDiffs} {ops : List (ℕ × CheckedOperation)} :
    removeOperations (db.withQueue queue) diff ops =
      requeue queue (removeOperations db diff ops) := by
  induction ops generalizing db diff with
  | nil => rfl
  | cons op ops ih =>
      rw [removeOperations, removeOperations, removeOperation_withQueue]
      cases removeOperation db diff op.1 op.2 with
      | error fault => rfl
      | ok result => exact ih

theorem removeAffectedOperations_withQueue {threshold : ℕ} :
    removeAffectedOperations (db.withQueue queue) threshold =
      requeue queue (removeAffectedOperations db threshold) :=
  removeOperations_withQueue

theorem removeAffectedListings_withQueue {threshold : ℕ} :
    removeAffectedListings (db.withQueue queue) threshold =
      (removeAffectedListings db threshold).withQueue queue := by
  unfold removeAffectedListings
  dsimp only
  generalize db.listings.entries.filter (fun entry => threshold ≤ entry.2.opScore) = rows
  induction rows generalizing db with
  | nil => rfl
  | cons row rows ih =>
      rw [List.foldl_cons, List.foldl_cons]
      exact @ih (db.removeListing row.1.tick row.1.tokenId row.2.seller)

theorem removeTokenOperation_withQueue {premints : Partition Tick ℕ} {key : TokenMintsKey} :
    removeTokenOperation premints (db.withQueue queue) key =
      requeue queue (removeTokenOperation premints db key) := by
  unfold removeTokenOperation
  simp only
  repeat' split
  all_goals rfl

theorem removeTokenOperations_withQueue {premints : Partition Tick ℕ}
    {keys : List TokenMintsKey} :
    removeTokenOperations premints (db.withQueue queue) keys =
      requeue queue (removeTokenOperations premints db keys) := by
  induction keys generalizing db with
  | nil => rfl
  | cons key keys ih =>
      rw [removeTokenOperations, removeTokenOperations, removeTokenOperation_withQueue]
      cases removeTokenOperation premints db key with
      | error fault => rfl
      | ok result =>
          have framed := @ih result.1
          simp only [requeue, Except.map, Prod.map] at framed ⊢
          rw [framed]
          cases removeTokenOperations premints result.1 keys <;> rfl

theorem reconstructTokenOwnership_withQueue {threshold : ℕ} {premints : Partition Tick ℕ} :
    reconstructTokenOwnership (db.withQueue queue) threshold premints =
      (reconstructTokenOwnership db threshold premints).map (Db.withQueue queue) := by
  unfold reconstructTokenOwnership getAffectedTokenOperations
  rw [removeTokenOperations_withQueue]
  dsimp only
  cases removeTokenOperations premints db
    (db.ownershipChanges.keysFrom ⟨threshold, Tick.MIN, 0, 0⟩).reverse <;> rfl

/-- What `process_removal` does after the operations are gone. -/
theorem dropAffected_withQueue {threshold : ℕ} {premints : Partition Tick ℕ} :
    reconstructTokenOwnership (removeAffectedListings (removeDiscounts (db.withQueue queue)
      threshold) threshold) threshold premints =
      (reconstructTokenOwnership (removeAffectedListings (removeDiscounts db threshold) threshold)
        threshold premints).map (Db.withQueue queue) := by
  have discounts : removeDiscounts (db.withQueue queue) threshold =
      (removeDiscounts db threshold).withQueue queue := rfl
  rw [discounts, removeAffectedListings_withQueue, reconstructTokenOwnership_withQueue]

theorem processRemoval_withQueue {removed : List RpcHash} {forced : Option ℕ} :
    processRemoval kaspa (db.withQueue queue) removed forced =
      requeue queue (processRemoval kaspa db removed forced) := by
  unfold processRemoval
  dsimp only
  split
  · rfl
  · rename_i minBlueScore _
    generalize (db.identifyReorgBlocksAndDelete removed forced).1 = chain
    generalize calculateTxScoreFromBlue kaspa minBlueScore = threshold
    have framed := @removeAffectedOperations_withQueue { db with toChainStore := chain } queue
      threshold
    rw [framed]
    cases removeAffectedOperations { db with toChainStore := chain } threshold with
    | error fault => rfl
    | ok result =>
        obtain ⟨cleared, diff⟩ := result
        have rebuilt := @dropAffected_withQueue { cleared with
          toCollectionStore := (cleared.removeAffectedDeployments threshold).1 } queue threshold
          (cleared.removeAffectedDeployments threshold).2
        simp only [requeue, Except.map, Prod.map, id]
        rw [rebuilt]
        cases reconstructTokenOwnership (removeAffectedListings (removeDiscounts { cleared with
          toCollectionStore := (cleared.removeAffectedDeployments threshold).1 } threshold)
          threshold) threshold (cleared.removeAffectedDeployments threshold).2 <;> rfl

theorem removalPhase_withQueue {vcc : VirtualChainChanges} :
    removalPhase kaspa (db.withQueue queue) vcc =
      (removalPhase kaspa db vcc).map (Db.withQueue queue) := by
  unfold removalPhase
  rw [processRemoval_withQueue]
  split
  · cases processRemoval kaspa db vcc.removedChainBlockHashes vcc.forcedRollbackBlueScore <;> rfl
  · rfl

/-- A notification does the same over every queue. -/
theorem processChainChangesWtx_withQueue {vcc : VirtualChainChanges} :
    processChainChangesWtx kaspa (db.withQueue queue) vcc =
      (processChainChangesWtx kaspa db vcc).map (Db.withQueue queue) := by
  unfold processChainChangesWtx
  rw [removalPhase_withQueue]
  cases removalPhase kaspa db vcc with
  | error fault => rfl
  | ok removed => exact additionPhase_withQueue

end

end Krc721
