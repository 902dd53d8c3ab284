import Krc721.Registry.Tokens
import Krc721.Store.KeyList
import Krc721.Processor.LedgerProperties

/-! The ledger as a registry of tokens, and its log as a list of events. -/

set_option autoImplicit false

namespace Krc721

open OrderedStore TokenRegistry

def RoyaltyDetails.royalty (details : RoyaltyDetails) : Royalty ScriptPublicKey :=
  ⟨details.beneficiary, details.fee⟩

def DeployInfo.terms (info : DeployInfo) : Terms ScriptPublicKey where
  deployer := info.deployer
  supply := info.max
  premint := info.premint
  opens := info.mintStartDaa
  royalty := info.royalty.map RoyaltyDetails.royalty

/-- The test for the discounts of an address in a collection. -/
def grantedTo (tick : Tick) (spk : ScriptPublicKey) (key : VipKey) : Bool :=
  decide (key.spk = spk) && decide (key.tick = tick)

/-- The rows of the ledger, without their scores and their indexes. -/
def Ledger.view (ledger : Ledger) : Registry Tick ScriptPublicKey TransactionId where
  terms := fun tick => (ledger.collectionRegistry.get tick).map fun entry => entry.info.info.terms
  owner := fun token => (ledger.currentOwnership.get ⟨token.1, token.2⟩).map (·.owner)
  offer := fun token => (ledger.listings.get ⟨token.1, token.2⟩).map (·.listingTxId)
  discount := fun grant =>
    (ledger.vip.firstWhere (grantedTo grant.1 grant.2)).map fun entry => entry.1.fee

/-- The event that a logged operation stands for. -/
def Operation.event (kaspa : Kaspa) (operation : Operation) :
    Event Tick ScriptPublicKey TransactionId :=
  let common := operation.common
  match operation.info with
  | .deploy info => .deploy common.tick info.terms
  | .mint info => .mint (common.tick, info.tokenId) info.toSpk
      (info.royalty.map RoyaltyDetails.royalty) common.acceptingBlockDaaScore
  | .transfer info => .transfer (common.tick, info.tokenId) common.sender info.toSpk
  | .discount info => .discount common.tick common.sender info.toSpk info.fee
  | .list info => .list (common.tick, info.tokenId) common.sender common.txId
      (kaspa.payToScriptHashScript info.redeemScript = info.utxoAddress)
  | .send info => .settle (common.tick, info.tokenId) info.listingUtxoTxid info.buyer

/-- The accepted operations of the log, in the order of their scores. -/
def LogStore.events (kaspa : Kaspa) (log : LogStore) :
    List (Event Tick ScriptPublicKey TransactionId) :=
  log.operationHistory.entries.filterMap fun entry =>
    if entry.2.error.isNone then some (entry.2.operation.event kaspa) else none

theorem LogStore.events_record {kaspa : Kaspa} {log : LogStore} {bound score : ℕ}
    (wf : log.Wf bound) (reached : bound ≤ score) (checked : CheckedOperation)
    (index : Partition TransactionId ℕ) :
    LogStore.events kaspa ⟨log.operationHistory.insert score checked, index⟩ =
      log.events kaspa ++ if checked.error.isNone then [checked.operation.event kaspa] else [] := by
  rw [events, Partition.entries_insert, List.filterMap_append, events]
  · congr 1
    cases accepted : checked.error.isNone with
    | true => rw [List.filterMap_cons_some (b := checked.operation.event kaspa)] <;> simp [accepted]
    | false => rw [List.filterMap_cons_none] <;> simp [accepted]
  · intro stored present
    obtain ⟨row, found⟩ := Option.isSome_iff_exists.1 present
    exact (wf.under stored row found).trans_le reached

/-! The owners that an operation leaves. -/

namespace OwnershipStore

variable {store : OwnershipStore} {tick : Tick} {score seq count tokenId : ℕ}
variable {toSpk fromSpk : ScriptPublicKey}

/-- The premints own the numbers after the first `seq`. -/
theorem owner_premints (count : ℕ) (token : OwnershipKey) :
    ((store.premints tick score toSpk seq count).currentOwnership.get token).map (·.owner) =
      (if token.tick = tick ∧ seq + 1 ≤ token.tokenId ∧ token.tokenId ≤ seq + count then some toSpk
        else none).or ((store.currentOwnership.get token).map (·.owner)) := by
  induction count generalizing store seq with
  | zero =>
      rw [premints, if_neg, Option.none_or]
      intro within
      omega
  | succ count ih =>
      rw [premints, ih]
      by_cases later : token.tick = tick ∧ seq + 1 + 1 ≤ token.tokenId ∧
          token.tokenId ≤ seq + 1 + count
      · rw [if_pos later, if_pos ⟨later.1, by omega, by omega⟩]
        rfl
      · rw [if_neg later, Option.none_or, recordMint, Partition.get_insert]
        by_cases same : (⟨tick, seq + 1⟩ : OwnershipKey) = token
        · rw [if_pos same, ← same, if_pos ⟨rfl, le_rfl, by simp only; omega⟩]
          rfl
        · rw [if_neg same, if_neg, Option.none_or]
          intro within
          obtain ⟨sameTick, low, high⟩ := within
          have first : token.tokenId = seq + 1 := by
            by_contra different
            exact later ⟨sameTick, by omega, by omega⟩
          apply same
          rw [← sameTick, ← first]

end OwnershipStore

/-! Rows for one token. -/

section Rows

variable {tick : Tick} {tokenId : ℕ}

theorem owner_insert (current : Partition OwnershipKey CurrentOwnershipValue)
    (value : CurrentOwnershipValue) (token : Tick × ℕ) :
    ((current.insert ⟨tick, tokenId⟩ value).get ⟨token.1, token.2⟩).map (·.owner) =
      (if token = (tick, tokenId) then some value.owner else none).or
        ((current.get ⟨token.1, token.2⟩).map (·.owner)) := by
  rw [Partition.get_insert]
  by_cases same : token = (tick, tokenId)
  · subst same
    rw [if_pos rfl, if_pos rfl]
    rfl
  · rw [if_neg same, if_neg, Option.none_or]
    intro sameKey
    injection sameKey with sameTick sameId
    exact same (Prod.ext sameTick.symm sameId.symm)

theorem offer_insert (listings : Partition OwnershipKey ListingValue) (value : ListingValue) :
    (fun token : Tick × ℕ =>
      ((listings.insert ⟨tick, tokenId⟩ value).get ⟨token.1, token.2⟩).map (·.listingTxId)) =
      Function.update (fun token : Tick × ℕ =>
        (listings.get ⟨token.1, token.2⟩).map (·.listingTxId)) (tick, tokenId)
        (some value.listingTxId) := by
  funext token
  rw [Partition.get_insert]
  by_cases same : token = (tick, tokenId)
  · subst same
    rw [Function.update_self, if_pos rfl]
    rfl
  · rw [Function.update_of_ne same, if_neg]
    intro sameKey
    injection sameKey with sameTick sameId
    exact same (Prod.ext sameTick.symm sameId.symm)

theorem offer_erase (listings : Partition OwnershipKey ListingValue) :
    (fun token : Tick × ℕ =>
      ((listings.erase ⟨tick, tokenId⟩).get ⟨token.1, token.2⟩).map (·.listingTxId)) =
      Function.update (fun token : Tick × ℕ =>
        (listings.get ⟨token.1, token.2⟩).map (·.listingTxId)) (tick, tokenId) none := by
  funext token
  rw [Partition.get_erase]
  by_cases same : token = (tick, tokenId)
  · subst same
    rw [Function.update_self, if_pos rfl]
    rfl
  · rw [Function.update_of_ne same, if_neg]
    intro sameKey
    injection sameKey with sameTick sameId
    exact same (Prod.ext sameTick.symm sameId.symm)

end Rows

end Krc721
