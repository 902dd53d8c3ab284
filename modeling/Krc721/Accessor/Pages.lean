import Krc721.Analyzer.Inscription
import Krc721.Paging.Walk
import Krc721.Stream.Reader
import Krc721.View.Records

/-! The accessor: requests that may leave out their arguments, and answers in which scripts are
shown as addresses. -/

set_option autoImplicit false

namespace Krc721

open SymbolStream

inductive CoreError where
  | view (error : ViewError)
  | txScript (error : TxScriptError)
deriving DecidableEq

structure IteratorRequest (Offset : Type) where
  offset : Option Offset
  direction : Option Direction
  limit : Option ℕ

def MAX_ITERATOR_LIMIT : ℕ := 50

/-- Where a listing by a `u64` starts. -/
def Direction.start : Direction → ℕ
  | .forward => 0
  | .backward => u64Max

def resolveU64IterArgs (iterArgs : IteratorRequest ℕ) : IteratorArgs ℕ :=
  let direction := iterArgs.direction.getD .forward
  { offset := iterArgs.offset.getD direction.start
    direction
    limit := min (iterArgs.limit.getD MAX_ITERATOR_LIMIT) MAX_ITERATOR_LIMIT }

abbrev Pagination := Paging.Page

section

variable {Value Item Offset : Type}

def toPaginated (splitLast : Option (List Value × Value)) (limit : ℕ)
    (convertElementToOffset : Value → Offset) : Pagination Value Offset :=
  match splitLast with
  | none => ⟨[], none⟩
  | some (container, lastElement) =>
      if container.length < limit then ⟨container ++ [lastElement], none⟩
      else ⟨container, some (convertElementToOffset lastElement)⟩

/-- The page of a query, of which every element on it is rendered. -/
def renderedPage (splitLast : Except ViewError (Option (List Value × Value))) (limit : ℕ)
    (convertElementToOffset : Value → Offset) (render : Value → Except TxScriptError Item) :
    Except CoreError (Pagination Item Offset) :=
  match splitLast with
  | .error error => .error (.view error)
  | .ok splitLast =>
      let paginated := toPaginated splitLast limit convertElementToOffset
      match collect (paginated.data.map render) with
      | .error error => .error (.txScript error)
      | .ok data => .ok ⟨data, paginated.nextPageOffset⟩

/-- The page of a query, of which every element is rendered before the last one is split off. -/
def renderedBefore (splitLast : Except ViewError (Option (List Value × Value))) (limit : ℕ)
    (convertElementToOffset : Item → Offset) (render : Value → Except TxScriptError Item) :
    Except CoreError (Pagination Item Offset) :=
  match splitLast with
  | .error error => .error (.view error)
  | .ok none => .ok ⟨[], none⟩
  | .ok (some (collection, last)) =>
      match collect (collection.map render) with
      | .error error => .error (.txScript error)
      | .ok collection =>
          match render last with
          | .error error => .error (.txScript error)
          | .ok last => .ok (toPaginated (some (collection, last)) limit convertElementToOffset)

end

structure OperationMetaWrapper where
  protocol : Protocol
  deployer : Address
  royaltyTo : Option Address
  toAddress : Option Address
  operation : CheckedOperation
  opScore : ℕ
  fee : ℕ

/-- The deployment of the API; the database has a type of this name of its own. -/
structure Api.ScoredDeployInfoWithCommon where
  deployer : Address
  royaltyTo : Option Address
  deployInfoWithCommon : DeployInfoWithCommon
  opScore : ℕ

structure CollectionMetaWrapper where
  deployer : Address
  royaltyTo : Option Address
  collection : Collection

structure HistoryEntity where
  owner : String
  opScoreModified : ℕ
  txId : TransactionId

structure Token where
  tick : Tick
  tokenId : ℕ
  owner : Address
  opScoreModified : ℕ
  status : TokenStatus

/-- The royalty beneficiary that an operation shows. -/
def OperationInfo.royaltyTo : OperationInfo → Option ScriptPublicKey
  | .deploy info => info.royalty.map (·.beneficiary)
  | _ => none

/-- The recipient that an operation shows. -/
def OperationInfo.recipient : OperationInfo → Option ScriptPublicKey
  | .transfer info => some info.toSpk
  | .mint info => some info.toSpk
  | .send info => info.buyer
  | _ => none

/-- The configuration of the accessor, and what it takes from the `kaspa` crates. -/
structure Accessor where
  extractScriptPubKeyAddress : ScriptPublicKey → Prefix → Except TxScriptError Address
  addressText : Address → String
  addressPrefix : Prefix
  restrictedProtocols : List String

namespace Accessor

variable (accessor : Accessor) (db : Db)

/-- A script as an address of the network of the accessor. -/
def addressOf (spk : ScriptPublicKey) : Except TxScriptError Address :=
  accessor.extractScriptPubKeyAddress spk accessor.addressPrefix

def addressOf? : Option ScriptPublicKey → Except TxScriptError (Option Address)
  | none => .ok none
  | some spk => (accessor.addressOf spk).map some

/-- `OperationMetaWrapper::try_from`. -/
def operationMetaWrapper (score : ℕ) (op : CheckedOperation) :
    Except TxScriptError OperationMetaWrapper := do
  let deployer ← accessor.addressOf op.operation.common.sender
  let royaltyTo ← accessor.addressOf? op.operation.info.royaltyTo
  let toAddress ← accessor.addressOf? op.operation.info.recipient
  .ok {
    protocol := .krc721
    deployer
    royaltyTo
    toAddress
    operation := op
    opScore := score
    fee := op.operation.common.fee }

/-- `ScoredDeployInfoWithCommon::try_from`. -/
def scoredDeployInfoWithCommon (score : ℕ) (deployment : DeployInfoWithCommon) :
    Except TxScriptError Api.ScoredDeployInfoWithCommon := do
  let deployer ← accessor.addressOf deployment.common.sender
  let royaltyTo ← accessor.addressOf? (deployment.info.royalty.map (·.beneficiary))
  .ok {
    deployer
    royaltyTo
    deployInfoWithCommon := deployment
    opScore := score }

/-- `CollectionMetaWrapper::try_from`. -/
def collectionMetaWrapper (collection : Collection) :
    Except TxScriptError CollectionMetaWrapper := do
  let deployer ← accessor.addressOf collection.deployInfoWithCommon.info.deployer
  let royaltyTo ←
    accessor.addressOf? (collection.deployInfoWithCommon.info.royalty.map (·.beneficiary))
  .ok {
    deployer
    royaltyTo
    collection }

def token (tick : Tick) (ownership : Ownership) : Except TxScriptError Token := do
  let owner ← accessor.addressOf ownership.owner
  .ok {
    tick
    tokenId := ownership.tokenId
    owner
    opScoreModified := ownership.modTxScore
    status := tokenStatus ownership.listing }

def historyEntity (record : TokenHistoryRecord) : Except TxScriptError HistoryEntity := do
  let owner ← accessor.addressOf record.owner
  .ok {
    owner := accessor.addressText owner
    opScoreModified := record.modTxScore
    txId := record.txId }

/-! The queries. -/

def krc721CollectionList (iterArgs : IteratorRequest ℕ) :
    Except CoreError (Pagination CollectionMetaWrapper ℕ) :=
  let args := resolveU64IterArgs iterArgs
  renderedBefore (db.krc721CollectionList args accessor.restrictedProtocols) args.limit
    (fun last => last.collection.opScoreAdded) accessor.collectionMetaWrapper

def krc721TokenList (tick : Tick) (iterArgs : IteratorRequest ℕ) :
    Except CoreError (Pagination Token ℕ) :=
  let args := resolveU64IterArgs iterArgs
  renderedPage (db.krc721TokenList tick args accessor.restrictedProtocols) args.limit
    (fun ownership => ownership.tokenId) (accessor.token tick)

def krc721TokenLookup (tick : Tick) (tokenId : ℕ) : Except CoreError (Option Token) :=
  match db.krc721TokenLookup tick tokenId accessor.restrictedProtocols with
  | none => .ok none
  | some entry =>
      match accessor.token tick ⟨tokenId, entry.owner, entry.modTxScore, entry.listing⟩ with
      | .error error => .error (.txScript error)
      | .ok token => .ok (some token)

def krc721TokenHistory (tick : Tick) (tokenId : ℕ) (iterArgs : IteratorRequest ℕ) :
    Except CoreError (Pagination HistoryEntity ℕ) :=
  let args := resolveU64IterArgs iterArgs
  renderedPage (db.krc721TokenHistoryList tick tokenId args accessor.restrictedProtocols)
    args.limit (fun record => record.modTxScore) accessor.historyEntity

def krc721OpList (iterArgs : IteratorRequest ℕ) :
    Except CoreError (Pagination OperationMetaWrapper ℕ) :=
  let args := resolveU64IterArgs iterArgs
  renderedPage (db.krc721OpList args) args.limit (fun entry => entry.1) fun entry =>
    accessor.operationMetaWrapper entry.1 entry.2

def krc721OpByScore (score : ℕ) : Except CoreError (Option OperationMetaWrapper) :=
  match db.krc721OpByScore score with
  | none => .ok none
  | some op =>
      match accessor.operationMetaWrapper score op with
      | .error error => .error (.txScript error)
      | .ok wrapper => .ok (some wrapper)

def krc721DeploymentList (iterArgs : IteratorRequest ℕ) :
    Except CoreError (Pagination Api.ScoredDeployInfoWithCommon ℕ) :=
  let args := resolveU64IterArgs iterArgs
  renderedPage (db.krc721DeploymentList args accessor.restrictedProtocols) args.limit
    (fun entry => entry.1) fun entry => accessor.scoredDeployInfoWithCommon entry.1 entry.2

end Accessor

end Krc721
