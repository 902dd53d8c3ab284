import Krc721.Accessor.ActiveListings
import Krc721.Market.EffectiveRoyalty
import Krc721.View.AvailableRanges
import Krc721.View.Lookups

/-! The queries of the accessor for one record. -/

set_option autoImplicit false

namespace Krc721

namespace Accessor

variable (accessor : Accessor) (db : Db)

/-- `map`, `transpose` and `?`: what was found is rendered. -/
def renderedRecord {Value Item : Type} (render : Value → Except TxScriptError Item) :
    Option Value → Except CoreError (Option Item)
  | none => .ok none
  | some value =>
      match render value with
      | .error error => .error (.txScript error)
      | .ok item => .ok (some item)

def krc721CollectionLookup (tick : Tick) : Except CoreError (Option CollectionMetaWrapper) :=
  renderedRecord accessor.collectionMetaWrapper
    (db.krc721CollectionLookup tick accessor.restrictedProtocols)

def krc721ListingLookup (tick : Tick) (tokenId : ℕ) :
    Except CoreError (Option ListingMetaWrapper) :=
  renderedRecord (fun listing => accessor.listingEntryToMeta {
    tick
    tokenId
    seller := listing.seller
    listingTxId := listing.listingTxId
    redeemScript := listing.redeemScript
    opScore := listing.opScore }) (db.krc721ListingLookup tick tokenId)

def krc721OpByTxid (txid : TransactionId) : Except CoreError (Option OperationMetaWrapper) :=
  renderedRecord (fun op => accessor.operationMetaWrapper op.opscore op.checkedOperation)
    (db.krc721OpByTxid txid)

/-- The fee is shown as a number in decimals. -/
def krc721RoyaltyFee (crates : Crates) (address : String) (tick : Tick) :
    Except AddressError (Option String) :=
  match crates.parseAddress address with
  | .error error => .error error
  | .ok address => .ok ((db.krc721RoyaltyFee (crates.payToAddressScript address) tick
      accessor.restrictedProtocols).map toString)

end Accessor

end Krc721
