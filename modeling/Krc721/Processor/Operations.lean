import Krc721.Processor.TokenId

/-! The six operations: what each validates against the database and what it writes. -/

set_option autoImplicit false

namespace Krc721

open OrderedStore

/-- What the processor takes from the `kaspa` crates: the bound on the blocks of a mergeset
at ten blocks per second, and the script that pays to the hash of a redeem script. -/
structure Kaspa where
  mergeSetLimit : ℕ
  mergeSetLimit_pos : 0 < mergeSetLimit
  payToScriptHashScript : List ℕ → ScriptPublicKey

/-! The ownership rows of a mint and of a transfer or sale. -/

namespace OwnershipStore

/-- The rows `process_mint` writes. -/
def recordMint (store : OwnershipStore) (tick : Tick) (tokenSeqNo tokenId score : ℕ)
    (toSpk : ScriptPublicKey) : OwnershipStore where
  mintHistory := store.mintHistory.insert (.withSeq tick tokenSeqNo tokenId score) ()
  ownershipChanges := store.ownershipChanges.insert (.withSeq score tick tokenId tokenSeqNo) ()
  ownershipHistory := store.ownershipHistory.insert (.withScore tick tokenId score) toSpk
  currentOwnership := store.currentOwnership.insert ⟨tick, tokenId⟩ ⟨toSpk, score⟩
  addressHoldings := store.addressHoldings.insert ⟨toSpk, tick, tokenId⟩ score

/-- The rows `process_transfer` and a sale in `process_send` write. -/
def recordTransfer (store : OwnershipStore) (tick : Tick) (tokenId score : ℕ)
    (fromSpk toSpk : ScriptPublicKey) : OwnershipStore where
  mintHistory := store.mintHistory
  ownershipChanges := store.ownershipChanges.insert (.withSeq score tick tokenId 0) ()
  ownershipHistory := store.ownershipHistory.insert (.withScore tick tokenId score) toSpk
  currentOwnership := store.currentOwnership.insert ⟨tick, tokenId⟩ ⟨toSpk, score⟩
  addressHoldings :=
    (store.addressHoldings.erase ⟨fromSpk, tick, tokenId⟩).insert ⟨toSpk, tick, tokenId⟩ score

end OwnershipStore

/-- The royalty rule of a mint that is not a premint. -/
def royaltyViolation (vip : Partition VipKey Unit) (tick : Tick) (toSpk : ScriptPublicKey) :
    Option RoyaltyDetails → Option RoyaltyDetails → Option CtxValidationError
  | some deployRoyalty, some mintRoyalty =>
      let requiredFee := (lastFee vip toSpk tick).getD deployRoyalty.fee
      if mintRoyalty.fee < requiredFee then some .insufficientRoyaltyFee
      else if deployRoyalty.beneficiary ≠ mintRoyalty.beneficiary then
        some .invalidBeneficiaryForRoyaltyMintFee
      else none
  | some _, none => some .missingRoyaltyMintFee
  | none, _ => none

/-- `process_mint`. A validation error leaves the token id of the operation untouched. -/
def processMint (db : Db) (mergesetEntropy score : ℕ) (common : OperationCommon)
    (info : MintInfo) (isDeployment : Bool) :
    Except Fault (Db × Except CtxValidationError MintInfo) :=
  match db.collectionRegistry.get common.tick with
  | none => .ok (db, .error .tickNotFound)
  | some entry =>
      let deploy := entry.info.info
      if !isDeployment && decide (common.acceptingBlockDaaScore < deploy.mintStartDaa) then
        .ok (db, .error (.mintingNotStarted common.tick common.acceptingBlockDaaScore
          deploy.mintStartDaa))
      else if deploy.max = 0 then
        .ok (db, .error .mintingFinished)
      else
        let lastMint := (db.lastMintedTokenSeqNo common.tick).getD 0
        let shouldPremint := decide (0 < deploy.premint) && decide (lastMint < deploy.premint)
        let royalties :=
          if shouldPremint then none
          else royaltyViolation db.vip common.tick info.toSpk deploy.royalty info.royalty
        match royalties with
        | some error => .ok (db, .error error)
        | none =>
            let tokenSeqNo := lastMint + 1
            if deploy.max < tokenSeqNo then
              .ok (db, .error .mintingFinished)
            else if !shouldPremint && decide (deploy.premint < deploy.max) then
              match db.generateTokenId common.tick mergesetEntropy deploy.max deploy.premint with
              | .error fault => .error fault
              | .ok (ranges, tokenId) =>
                  .ok ({ db with
                    toRangeStore := ranges
                    toOwnershipStore := db.recordMint common.tick tokenSeqNo tokenId score
                      info.toSpk }, .ok { info with tokenId })
            else
              .ok ({ db with
                toOwnershipStore := db.recordMint common.tick tokenSeqNo tokenSeqNo score
                  info.toSpk }, .ok { info with tokenId := tokenSeqNo })

/-- The premint loop of `process_deployment`: `count` more mints to the deployer. -/
def premintLoop (common : OperationCommon) (info : DeployInfo) (txScore : ℕ) :
    ℕ → Db → Except Fault (Db × Option CtxValidationError)
  | 0, db => .ok (db, none)
  | count + 1, db =>
      match processMint db 0 txScore common ⟨0, info.deployer, none⟩ true with
      | .error fault => .error fault
      | .ok (db, .error error) => .ok (db, some error)
      | .ok (db, .ok _) => premintLoop common info txScore count db

def processDeployment (db : Db) (txScore : ℕ) (common : OperationCommon) (info : DeployInfo) :
    Except Fault (Db × Option CtxValidationError) :=
  match db.collectionRegistry.get common.tick with
  | some entry =>
      if txScore ≤ entry.score then .error .unexpectedKaspaNodeBehaviour
      else .ok (db, some .tickExists)
  | none =>
      premintLoop common info txScore info.premint { db with
        collectionRegistry := db.collectionRegistry.insert common.tick ⟨txScore, info, common⟩
        collectionDeployments :=
          db.collectionDeployments.insert ⟨txScore, common.tick⟩ ⟨info, common⟩ }

def processTransfer (db : Db) (txScore : ℕ) (common : OperationCommon) (info : TransferInfo) :
    Db × Option CtxValidationError :=
  match db.currentOwnership.get ⟨common.tick, info.tokenId⟩ with
  | none => (db, some .tokenNotFound)
  | some current =>
      if current.owner ≠ common.sender then (db, some .wrongOwner)
      else if (db.listings.get ⟨common.tick, info.tokenId⟩).isSome then
        (db, some .tokenIsListed)
      else
        ({ db with
           toOwnershipStore := db.recordTransfer common.tick info.tokenId txScore
             current.owner info.toSpk }, none)

def processDiscount (db : Db) (score : ℕ) (common : OperationCommon) (info : DiscountInfo) :
    Db × Option CtxValidationError :=
  match db.collectionRegistry.get common.tick with
  | none => (db, some .tickNotFound)
  | some deployment =>
      if common.sender ≠ deployment.info.info.deployer then (db, some .wrongDeployer)
      else if (deployment.info.info.royalty.map (·.fee)).getD 0 ≤ info.fee then
        (db, some .discountFeeOverflow)
      else
        ({ db with
           scoreToDiscount := db.scoreToDiscount.insert ⟨score, common.tick, info.toSpk⟩ info.fee
           vip := db.vip.insert ⟨info.toSpk, common.tick, u64Max - score, info.fee⟩ () }, none)

/-- Store a listing in its three partitions. -/
def Db.insertListing (db : Db) (tick : Tick) (tokenId : ℕ) (value : ListingValue) : Db :=
  { db with
    listings := db.listings.insert ⟨tick, tokenId⟩ value
    listingsByTick := db.listingsByTick.insert ⟨tick, tokenId⟩ ()
    addressListings := db.addressListings.insert ⟨value.seller, tick, tokenId⟩ value.opScore }

/-- Remove the listing of a token by `seller` from the three partitions. -/
def Db.removeListing (db : Db) (tick : Tick) (tokenId : ℕ) (seller : ScriptPublicKey) : Db :=
  { db with
    listings := db.listings.erase ⟨tick, tokenId⟩
    listingsByTick := db.listingsByTick.erase ⟨tick, tokenId⟩
    addressListings := db.addressListings.erase ⟨seller, tick, tokenId⟩ }

def processList (kaspa : Kaspa) (db : Db) (txScore : ℕ) (common : OperationCommon)
    (info : ListingInfo) : Db × Option CtxValidationError :=
  if kaspa.payToScriptHashScript info.redeemScript ≠ info.utxoAddress then
    (db, some .invalidListingP2sh)
  else if (db.collectionRegistry.get common.tick).isNone then (db, some .tickNotFound)
  else
    match db.currentOwnership.get ⟨common.tick, info.tokenId⟩ with
    | none => (db, some .tokenNotFound)
    | some current =>
        if current.owner ≠ common.sender then (db, some .wrongOwner)
        else if (db.listings.get ⟨common.tick, info.tokenId⟩).isSome then
          (db, some .tokenAlreadyListed)
        else
          (db.insertListing common.tick info.tokenId {
            seller := common.sender
            listingTxId := common.txId
            utxoAddress := info.utxoAddress
            redeemScript := info.redeemScript
            opScore := txScore }, none)

/-- `process_send`. Without a buyer the listing is cancelled and the owner stays. -/
def processSend (db : Db) (txScore : ℕ) (common : OperationCommon) (info : SendInfo) :
    Db × Option CtxValidationError :=
  match db.listings.get ⟨common.tick, info.tokenId⟩ with
  | none => (db, some .listingNotFound)
  | some listing =>
      if info.listingUtxoTxid ≠ listing.listingTxId then (db, some .wrongListingUtxo)
      else
        let settled : Db :=
          match info.buyer with
          | some buyer => { db with
              toOwnershipStore := db.recordTransfer common.tick info.tokenId txScore
                listing.seller buyer }
          | none => db
        (settled.removeListing common.tick info.tokenId listing.seller, none)

/-! The loop over the operations of a mergeset. -/

structure ContextOperation where
  txScore : ℕ
  operation : Operation
  mergesetEntropy : ℕ

def wrappingAdd (left right : ℕ) : ℕ := (left + right) % 2 ^ 64

def royaltyFee (royalty : Option RoyaltyDetails) : ℕ := (royalty.map (·.fee)).getD 0

namespace StatsDiffs

/-- What an accepted operation adds to the counters of its mergeset. -/
def accept (diff : StatsDiffs) (common : OperationCommon) : OperationInfo → StatsDiffs
  | .deploy info => { diff with
      mints := wrappingAdd diff.mints info.premint
      securityFees := wrappingAdd diff.securityFees common.fee
      deployments := wrappingAdd diff.deployments 1
      royaltyFees := wrappingAdd diff.royaltyFees (royaltyFee info.royalty) }
  | .mint info => { diff with
      securityFees := wrappingAdd diff.securityFees common.fee
      mints := wrappingAdd diff.mints 1
      royaltyFees := wrappingAdd diff.royaltyFees (royaltyFee info.royalty) }
  | .transfer _ => { diff with
      securityFees := wrappingAdd diff.securityFees common.fee
      transfers := wrappingAdd diff.transfers 1 }
  | .discount _ => { diff with
      securityFees := wrappingAdd diff.securityFees common.fee }
  | .list _ => { diff with
      securityFees := wrappingAdd diff.securityFees common.fee
      listings := wrappingAdd diff.listings 1 }
  | .send _ => { diff with
      securityFees := wrappingAdd diff.securityFees common.fee
      sends := wrappingAdd diff.sends 1 }

end StatsDiffs

/-- Validate and apply one operation. The operation is returned as it will be logged: a
mint carries the token id that was drawn. -/
def applyOperation (kaspa : Kaspa) (db : Db) (context : ContextOperation) :
    Except Fault (Db × CheckedOperation) :=
  let common := context.operation.common
  match context.operation.info with
  | .deploy info =>
      match processDeployment db context.txScore common info with
      | .error fault => .error fault
      | .ok (db, error) => .ok (db, ⟨context.operation, error⟩)
  | .mint info =>
      match processMint db context.mergesetEntropy context.txScore common info false with
      | .error fault => .error fault
      | .ok (db, .error error) => .ok (db, ⟨context.operation, some error⟩)
      | .ok (db, .ok info) => .ok (db, ⟨⟨common, .mint info⟩, none⟩)
  | .transfer info =>
      let (db, error) := processTransfer db context.txScore common info
      .ok (db, ⟨context.operation, error⟩)
  | .discount info =>
      let (db, error) := processDiscount db context.txScore common info
      .ok (db, ⟨context.operation, error⟩)
  | .list info =>
      let (db, error) := processList kaspa db context.txScore common info
      .ok (db, ⟨context.operation, error⟩)
  | .send info =>
      let (db, error) := processSend db context.txScore common info
      .ok (db, ⟨context.operation, error⟩)

/-- Record a processed operation under its score and its transaction. -/
def Db.recordOperation (db : Db) (txScore : ℕ) (checked : CheckedOperation) : Db :=
  { db with
    operationHistory := db.operationHistory.insert txScore checked
    txIdToOpscore := db.txIdToOpscore.insert checked.operation.common.txId txScore }

/-- One turn of the loop in `process_nft_operations`. -/
def processNftOperation (kaspa : Kaspa) (db : Db) (diff : StatsDiffs)
    (context : ContextOperation) : Except Fault (Db × StatsDiffs) :=
  match applyOperation kaspa db context with
  | .error fault => .error fault
  | .ok (db, checked) =>
      let diff :=
        if checked.error.isNone then
          StatsDiffs.accept diff checked.operation.common checked.operation.info
        else diff
      .ok (db.recordOperation context.txScore checked, diff)

def processNftOperations (kaspa : Kaspa) :
    Db → StatsDiffs → List ContextOperation → Except Fault (Db × StatsDiffs)
  | db, diff, [] => .ok (db, diff)
  | db, diff, context :: contexts =>
      match processNftOperation kaspa db diff context with
      | .error fault => .error fault
      | .ok (db, diff) => processNftOperations kaspa db diff contexts

end Krc721
