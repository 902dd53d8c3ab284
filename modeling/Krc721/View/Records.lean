import Krc721.View.Tokens

/-! The queries of the read view that show stored records as they are: operations, deployments,
tokens, and the tokens of an address in one collection. -/

set_option autoImplicit false

namespace Krc721

open OrderedStore

structure TokenLookupEntry where
  owner : ScriptPublicKey
  modTxScore : ℕ
  listing : Option ListingValue
deriving DecidableEq

structure Ownership where
  tokenId : ℕ
  owner : ScriptPublicKey
  modTxScore : ℕ
  listing : Option ListingValue
deriving DecidableEq

structure NftLookupEntry where
  tokenId : ℕ
  modTxScore : ℕ
  listing : Option ListingValue
deriving DecidableEq

namespace Db

def tokenListing (db : Db) (tick : Tick) (tokenId : ℕ) : Option ListingValue :=
  db.listings.get ⟨tick, tokenId⟩

/-- The collection of a tick, if it is registered and its metadata is not restricted. -/
def shownCollection (db : Db) (tick : Tick) (restrictedProtocols : List String) :
    Option ScoredDeployInfoWithCommon :=
  match db.collectionRegistry.get tick with
  | none => none
  | some dinfo =>
      if dinfo.info.hasIncompatibleUriPrefix restrictedProtocols then none else some dinfo

/-! Operations. -/

/-- The rows that `krc721_op_list` scans. -/
def operationRows (db : Db) (args : IteratorArgs ℕ) : List (ℕ × CheckedOperation) :=
  match args.direction with
  | .forward => db.operationHistory.entriesFrom args.offset
  | .backward => (db.operationHistory.entries.filter fun entry => entry.1 ≤ args.offset).reverse

def krc721OpList (db : Db) (args : IteratorArgs ℕ) :
    Except ViewError (Option (List (ℕ × CheckedOperation) × (ℕ × CheckedOperation))) :=
  processIter (db.operationRows args) args.limit .ok

def krc721OpByScore (db : Db) (score : ℕ) : Option CheckedOperation :=
  db.operationHistory.get score

/-! Deployments. -/

def krc721DeploymentList (db : Db) (args : IteratorArgs ℕ) (restrictedProtocols : List String) :
    Except ViewError (Option (List (ℕ × DeployInfoWithCommon) × (ℕ × DeployInfoWithCommon))) :=
  processIter ((db.deploymentRows args).filter fun entry =>
    !entry.2.hasIncompatibleUriPrefix restrictedProtocols) args.limit fun entry =>
      .ok (entry.1.score, entry.2)

/-! Tokens. -/

def krc721TokenLookup (db : Db) (tick : Tick) (tokenId : ℕ) (restrictedProtocols : List String) :
    Option TokenLookupEntry :=
  match db.currentOwnership.get ⟨tick, tokenId⟩ with
  | none => none
  | some current =>
      match db.shownCollection tick restrictedProtocols with
      | none => none
      | some _ => some ⟨current.owner, current.modTxScore, db.tokenListing tick tokenId⟩

/-- The rows that `krc721_token_list` scans. -/
def ownershipRows (db : Db) (tick : Tick) (args : IteratorArgs ℕ) :
    List (OwnershipKey × CurrentOwnershipValue) :=
  match args.direction with
  | .forward => (db.currentOwnership.entriesFrom ⟨tick, args.offset⟩).filter fun entry =>
      entry.1 ≤ ⟨tick, u64Max⟩
  | .backward => ((db.currentOwnership.entriesFrom ⟨tick, 0⟩).filter fun entry =>
      entry.1 ≤ ⟨tick, args.offset⟩).reverse

def krc721TokenList (db : Db) (tick : Tick) (args : IteratorArgs ℕ)
    (restrictedProtocols : List String) : Except ViewError (Option (List Ownership × Ownership)) :=
  match db.shownCollection tick restrictedProtocols with
  | none => .ok none
  | some _ => processIter (db.ownershipRows tick args) args.limit fun entry =>
      .ok ⟨entry.1.tokenId, entry.2.owner, entry.2.modTxScore,
        db.tokenListing tick entry.1.tokenId⟩

/-! The tokens of an address in one collection. -/

/-- The rows that `krc721_address_nft_lookup` scans. -/
def tickHoldingRows (db : Db) (tick : Tick) (spk : ScriptPublicKey) (args : IteratorArgs ℕ) :
    List (AddressHoldingKey × ℕ) :=
  match args.direction with
  | .forward => (db.addressHoldings.entriesFrom ⟨spk, tick, args.offset⟩).filter fun entry =>
      entry.1 < ⟨spk, tick, u64Max⟩
  | .backward => ((db.addressHoldings.entriesFrom ⟨spk, tick, 0⟩).filter fun entry =>
      entry.1 ≤ ⟨spk, tick, args.offset⟩).reverse

def krc721AddressNftLookup (db : Db) (tick : Tick) (spk : ScriptPublicKey) (args : IteratorArgs ℕ)
    (restrictedProtocols : List String) :
    Except ViewError (Option (List NftLookupEntry × NftLookupEntry)) :=
  match db.shownCollection tick restrictedProtocols with
  | none => .ok none
  | some _ => processIter (db.tickHoldingRows tick spk args) args.limit fun entry =>
      .ok ⟨entry.1.tokenId, entry.2, db.tokenListing tick entry.1.tokenId⟩

end Db

end Krc721
