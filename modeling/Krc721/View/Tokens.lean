import Krc721.View.Listings

/-! The paginated queries of the read view that follow a row into another partition: the list of
collections, the history of a token, and the tokens of an address. -/

set_option autoImplicit false

namespace Krc721

open OrderedStore

def DeployInfoWithCommon.hasIncompatibleUriPrefix (info : DeployInfoWithCommon)
    (acceptableUriPrefixes : List String) : Bool :=
  info.info.metadata.hasIncompatibleUriPrefix acceptableUriPrefixes

structure TokenIdScoreSeqNo where
  tokenId : ℕ
  score : ℕ
  seqNo : ℕ
deriving DecidableEq

/-- `last_minted_token_seq_no_rtx`, with the whole row. -/
def OwnershipStore.lastMintedToken (store : OwnershipStore) (tick : Tick) :
    Option TokenIdScoreSeqNo :=
  (store.mintHistory.firstWhere fun key => tick.bytes.isPrefixOf key.ownedKey).map fun entry =>
    { tokenId := entry.1.tokenId
      score := entry.1.score
      seqNo := u64Max - entry.1.reversedSeq }

inductive CollectionState where
  | deployed
  | finished
deriving DecidableEq

structure Collection where
  deployInfoWithCommon : DeployInfoWithCommon
  minted : ℕ
  opScoreModified : ℕ
  state : CollectionState
  mtsMod : ℕ
  opScoreAdded : ℕ

inductive TokenListingState where
  | unlisted
  | listed
deriving DecidableEq

structure TokenStatus where
  state : TokenListingState
  listingTxId : Option TransactionId
  opScore : Option ℕ
deriving DecidableEq

def tokenStatus : Option ListingValue → TokenStatus
  | some listing => ⟨.listed, some listing.listingTxId, some listing.opScore⟩
  | none => ⟨.unlisted, none, none⟩

structure TokenHistoryRecord where
  owner : ScriptPublicKey
  modTxScore : ℕ
  txId : TransactionId
deriving DecidableEq

structure AddressNftInfo where
  tick : Tick
  tickMetadata : Option Metadata
  tokenId : ℕ
  opScoreModified : ℕ
  status : TokenStatus
deriving DecidableEq

namespace Db

/-! Collections. -/

/-- `process_fn` of `krc721_collection_list`. -/
def collection (db : Db) (key : DeploymentKey) (info : DeployInfoWithCommon) :
    Except ViewError Collection :=
  match db.lastMintedToken key.tick with
  | none => .ok {
      deployInfoWithCommon := info
      minted := 0
      opScoreModified := key.score
      state := .deployed
      mtsMod := info.common.blockTime
      opScoreAdded := key.score }
  | some lastMint =>
      match db.operationHistory.get lastMint.score with
      | none => .error (.panic "called `Option::unwrap()` on a `None` value")
      | some checked => .ok {
          deployInfoWithCommon := info
          minted := lastMint.seqNo
          opScoreModified := lastMint.score
          state := .deployed
          mtsMod := checked.operation.common.blockTime
          opScoreAdded := key.score }

/-- The rows that `krc721_collection_list` scans. -/
def deploymentRows (db : Db) (args : IteratorArgs ℕ) :
    List (DeploymentKey × DeployInfoWithCommon) :=
  match args.direction with
  | .forward => db.collectionDeployments.entriesFrom ⟨args.offset, Tick.MIN⟩
  | .backward => (db.collectionDeployments.entries.filter fun entry =>
      entry.1 ≤ ⟨args.offset, Tick.MAX⟩).reverse

def krc721CollectionList (db : Db) (args : IteratorArgs ℕ) (restrictedProtocols : List String) :
    Except ViewError (Option (List Collection × Collection)) :=
  processIter ((db.deploymentRows args).filter fun entry =>
    !entry.2.hasIncompatibleUriPrefix restrictedProtocols) args.limit fun entry =>
      db.collection entry.1 entry.2

/-! The history of a token. -/

/-- `processed_fn` of `krc721_token_history_list`. -/
def tokenHistoryRecord (db : Db) (key : OwnershipHistoryKey) (owner : ScriptPublicKey) :
    Except ViewError TokenHistoryRecord :=
  let score := u64Max - key.reversedScore
  match db.operationHistory.get score with
  | none => .error (.panic "operation must exist")
  | some checked => .ok {
      owner
      modTxScore := score
      txId := checked.operation.common.txId }

/-- The rows that `krc721_token_history_list` scans; the newest change has the least key. -/
def historyRows (db : Db) (tick : Tick) (tokenId : ℕ) (args : IteratorArgs ℕ) :
    List (OwnershipHistoryKey × ScriptPublicKey) :=
  match args.direction with
  | .forward => ((db.ownershipHistory.entriesFrom ⟨tick, tokenId, 0⟩).filter fun entry =>
      entry.1 ≤ .withScore tick tokenId args.offset).reverse
  | .backward => (db.ownershipHistory.entriesFrom
      (.withScore tick tokenId args.offset)).filter fun entry => entry.1 ≤ ⟨tick, tokenId, u64Max⟩

def krc721TokenHistoryList (db : Db) (tick : Tick) (tokenId : ℕ) (args : IteratorArgs ℕ)
    (restrictedProtocols : List String) :
    Except ViewError (Option (List TokenHistoryRecord × TokenHistoryRecord)) :=
  match db.collectionRegistry.get tick with
  | none => .ok none
  | some dinfo =>
      if dinfo.info.hasIncompatibleUriPrefix restrictedProtocols then .ok none
      else
        processIter (db.historyRows tick tokenId args) args.limit fun entry =>
          db.tokenHistoryRecord entry.1 entry.2

/-! The tokens of an address. -/

/-- The variables of the loop in `krc721_address_nft_list`. `last_tick_info` starts with the
default, whose tick is `Tick::MIN`. -/
structure AddressNfts where
  collected : List AddressNftInfo := []
  lastTickInfo : DeployInfoWithCommon := default
  lastIncompatible : Bool := false

def AddressNfts.push (nfts : AddressNfts) (db : Db) (info : DeployInfoWithCommon)
    (key : AddressHoldingKey) (modTxScore : ℕ) : AddressNfts :=
  { nfts with
    collected := nfts.collected ++ [{
      tick := key.tick
      tickMetadata := some info.info.metadata
      tokenId := key.tokenId
      opScoreModified := modTxScore
      status := tokenStatus (db.listings.get ⟨key.tick, key.tokenId⟩) }] }

/-- `conditional_push`, without its look at the limit. -/
def conditionalPush (db : Db) (restrictedProtocols : List String) (nfts : AddressNfts)
    (key : AddressHoldingKey) (modTxScore : ℕ) : Except ViewError AddressNfts :=
  if nfts.lastTickInfo.common.tick = key.tick ∧ ¬ nfts.lastIncompatible then
    .ok (nfts.push db nfts.lastTickInfo key modTxScore)
  else if nfts.lastTickInfo.common.tick ≠ key.tick then
    match db.collectionRegistry.get key.tick with
    | none => .error (.panic "called `Option::unwrap()` on a `None` value")
    | some depl =>
        let nfts := { nfts with
          lastTickInfo := depl.info
          lastIncompatible := depl.info.hasIncompatibleUriPrefix restrictedProtocols }
        if nfts.lastIncompatible then .ok nfts
        else .ok (nfts.push db depl.info key modTxScore)
  else .ok nfts

/-- The loop of `krc721_address_nft_list`, which ends when one more than the limit is collected. -/
def addressNfts (db : Db) (restrictedProtocols : List String) (limit : ℕ) :
    AddressNfts → List (AddressHoldingKey × ℕ) → Except ViewError AddressNfts
  | nfts, [] => .ok nfts
  | nfts, (key, modTxScore) :: rest =>
      match db.conditionalPush restrictedProtocols nfts key modTxScore with
      | .error error => .error error
      | .ok nfts =>
          if nfts.collected.length < limit + 1 then
            addressNfts db restrictedProtocols limit nfts rest
          else .ok nfts

/-- The rows that `krc721_address_nft_list` scans. -/
def holdingRows (db : Db) (spk : ScriptPublicKey) (args : IteratorArgs TickTokenOffset) :
    List (AddressHoldingKey × ℕ) :=
  let offset : AddressHoldingKey := ⟨spk, args.offset.tick, args.offset.tokenId⟩
  match args.direction with
  | .forward => (db.addressHoldings.entriesFrom offset).filter fun entry =>
      entry.1 < ⟨spk, Tick.MAX, u64Max⟩
  | .backward => ((db.addressHoldings.entriesFrom ⟨spk, Tick.MIN, 0⟩).filter fun entry =>
      entry.1 ≤ offset).reverse

def krc721AddressNftList (db : Db) (spk : ScriptPublicKey) (args : IteratorArgs TickTokenOffset)
    (restrictedProtocols : List String) :
    Except ViewError (Option (List AddressNftInfo × AddressNftInfo)) :=
  match db.addressNfts restrictedProtocols args.limit {} (db.holdingRows spk args) with
  | .error error => .error error
  | .ok nfts => .ok (nfts.collected.getLast?.map fun last => (nfts.collected.dropLast, last))

end Db

end Krc721
