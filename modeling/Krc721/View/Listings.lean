import Krc721.Model.Script
import Krc721.Model.Database

/-! The two paginated listing queries of the read view. -/

set_option autoImplicit false

namespace Krc721

open OrderedStore

inductive Direction where
  | forward
  | backward
deriving DecidableEq, Inhabited

structure IteratorArgs (Offset : Type) where
  offset : Offset
  direction : Direction
  limit : ℕ

structure TickTokenOffset where
  tick : Tick
  tokenId : ℕ

/-- `Tick::MAX`, an upper bound for iterators only. -/
def Tick.MAX : Tick := ⟨List.replicate TICK_LENGTH 255, rfl, by decide⟩

/-- A listing entry returned from view queries. -/
structure ListingEntry where
  tick : Tick
  tokenId : ℕ
  seller : ScriptPublicKey
  listingTxId : TransactionId
  redeemScript : List ℕ
  opScore : ℕ
deriving DecidableEq

/-- What ends a query early: an error, or a failed `expect` or `unwrap`. -/
inductive ViewError where
  | custom (message : String)
  | panic (message : String)
deriving DecidableEq

/-- The loop of `collect_split_last_result`: the last item is kept apart, the first error
ends it. -/
def collectSplitLastResult {Item : Type} :
    List Item → Option Item → List (Except ViewError Item) →
      Except ViewError (Option (List Item × Item))
  | init, last, [] => .ok (last.map fun last => (init, last))
  | init, last, .ok value :: items =>
      collectSplitLastResult (init ++ last.toList) (some value) items
  | _, _, .error error :: _ => .error error

/-- `process_iter` over the keys of an iterator. -/
def processIter {Key Item : Type} (iter : List Key) (limit : ℕ)
    (f : Key → Except ViewError Item) : Except ViewError (Option (List Item × Item)) :=
  collectSplitLastResult [] none ((iter.map f).take (limit + 1))

namespace Db

/-- What both queries look up for a token of their index. -/
def listingEntry (db : Db) (tick : Tick) (tokenId : ℕ) : Except ViewError ListingEntry :=
  match db.listings.get ⟨tick, tokenId⟩ with
  | none => .error (.custom "listing index inconsistency")
  | some listing => .ok {
      tick
      tokenId
      seller := listing.seller
      listingTxId := listing.listingTxId
      redeemScript := listing.redeemScript
      opScore := listing.opScore }

def krc721ActiveListings (db : Db) (tick : Tick) (args : IteratorArgs ℕ) :
    Except ViewError (Option (List ListingEntry × ListingEntry)) :=
  if (db.collectionRegistry.get tick).isNone then .ok none
  else
    let processedFn := fun (key : ListingByTickKey) => db.listingEntry key.tick key.tokenId
    match args.direction with
    | .forward =>
        processIter (db.listingsByTick.keysBetween ⟨tick, args.offset⟩ ⟨tick, u64Max⟩)
          args.limit processedFn
    | .backward =>
        processIter (db.listingsByTick.keysBetween ⟨tick, 0⟩ ⟨tick, args.offset⟩).reverse
          args.limit processedFn

def krc721AddressListings (db : Db) (spk : ScriptPublicKey)
    (args : IteratorArgs TickTokenOffset) :
    Except ViewError (Option (List ListingEntry × ListingEntry)) :=
  let processedFn := fun (key : AddressHoldingKey) => db.listingEntry key.tick key.tokenId
  match args.direction with
  | .forward =>
      processIter (db.addressListings.keysBetween ⟨spk, args.offset.tick, args.offset.tokenId⟩
        ⟨spk, Tick.MAX, u64Max⟩) args.limit processedFn
  | .backward =>
      processIter (db.addressListings.keysBetween ⟨spk, Tick.MIN, 0⟩
        ⟨spk, args.offset.tick, args.offset.tokenId⟩).reverse args.limit processedFn

end Db

end Krc721
