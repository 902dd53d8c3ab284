import Mathlib.Data.Set.Card
import Krc721.Accessor.Lookups
import Krc721.Market.Owners
import Krc721.Registry.Simulation
import Krc721.View.TokenProperties

/-! What the accessor answers about a collection, a token, a listing or a royalty is what the
registry says about it. -/

set_option autoImplicit false

namespace Krc721

open OrderedStore SymbolStream TokenRegistry

/-- The collection is registered, and its metadata keeps it from being shown. -/
def Db.Hides (db : Db) (restrictedProtocols : List String) (tick : Tick) : Prop :=
  ∃ entry, db.collectionRegistry.get tick = some entry ∧
    entry.info.hasIncompatibleUriPrefix restrictedProtocols = true

namespace Accessor

variable (accessor : Accessor)

/-- The terms of a collection as they are shown, with the number of its tokens. -/
def shownTerms (minted : ℕ) (terms : Terms ScriptPublicKey) :
    Except TxScriptError (Terms ScriptPublicKey × ℕ × Address × Option Address) := do
  let deployer ← accessor.addressOf terms.deployer
  let royaltyTo ← accessor.addressOf? (terms.royalty.map (·.beneficiary))
  .ok (terms, minted, deployer, royaltyTo)

/-- An owner as it is shown, with the offer of the token. -/
def shownOwner {Offer : Type} (offer : Offer) (owner : ScriptPublicKey) :
    Except TxScriptError (Address × Offer) := do
  let address ← accessor.addressOf owner
  .ok (address, offer)

/-- The accessor answers from the registry. What is not in the registry or hidden is not found;
an error is a script that has no address. -/
structure Answers (crates : Crates) (db : Db)
    (registry : Registry Tick ScriptPublicKey TransactionId) : Prop where
  collection : ∀ tick, ¬ db.Hides accessor.restrictedProtocols tick →
    (accessor.krc721CollectionLookup db tick).map (Option.map fun answer =>
      (answer.collection.deployInfoWithCommon.info.terms, answer.collection.minted,
        answer.deployer, answer.royaltyTo)) =
      renderedRecord (accessor.shownTerms (registry.owned tick).ncard) (registry.terms tick)
  listed : ∀ {tick collection},
    db.krc721CollectionLookup tick accessor.restrictedProtocols = some collection →
      (⟨collection.opScoreAdded, tick⟩, collection.deployInfoWithCommon) ∈
          db.collectionDeployments.entries ∧
        db.collection ⟨collection.opScoreAdded, tick⟩ collection.deployInfoWithCommon =
          .ok collection
  token : ∀ tick tokenId, ¬ db.Hides accessor.restrictedProtocols tick →
    (accessor.krc721TokenLookup db tick tokenId).map (Option.map fun answer =>
      (answer.owner, answer.status.listingTxId)) =
      renderedRecord (accessor.shownOwner (registry.offer (tick, tokenId)))
        (registry.owner (tick, tokenId))
  listing : ∀ tick tokenId,
    (accessor.krc721ListingLookup db tick tokenId).map (Option.map fun answer =>
      (answer.seller, some answer.listingTxId)) =
      renderedRecord (accessor.shownOwner (registry.offer (tick, tokenId)))
        ((registry.offer (tick, tokenId)).bind fun _ => registry.owner (tick, tokenId))
  royalty : ∀ text address tick, crates.parseAddress text = .ok address →
    ¬ db.Hides accessor.restrictedProtocols tick →
      accessor.krc721RoyaltyFee db crates text tick =
        .ok ((registry.fee tick (crates.payToAddressScript address)).map toString)
  hidden : ∀ tick, db.Hides accessor.restrictedProtocols tick →
    accessor.krc721CollectionLookup db tick = .ok none ∧
      (∀ tokenId, accessor.krc721TokenLookup db tick tokenId = .ok none) ∧
      ∀ text address, crates.parseAddress text = .ok address →
        accessor.krc721RoyaltyFee db crates text tick = .ok none
  operation : ∀ {score checked}, db.operationHistory.get score = some checked →
    accessor.krc721OpByTxid db checked.operation.common.txId = accessor.krc721OpByScore db score
  unknown : ∀ txid, (∀ score checked, db.operationHistory.get score = some checked →
    checked.operation.common.txId ≠ txid) → accessor.krc721OpByTxid db txid = .ok none

variable {accessor} {crates : Crates} {db : Db} {bound : ℕ}

/-- The collection of a tick is shown unless it is hidden. -/
theorem shown_of_not_hides {restrictedProtocols : List String} {tick : Tick}
    {entry : ScoredDeployInfoWithCommon} (shown : ¬ db.Hides restrictedProtocols tick)
    (found : db.collectionRegistry.get tick = some entry) :
    entry.info.hasIncompatibleUriPrefix restrictedProtocols = false := by
  rw [Bool.eq_false_iff]
  intro hidden
  exact shown ⟨entry, found, hidden⟩

/-- The last mint has the number of tokens of its collection as its sequence number. -/
theorem minted_eq_ncard (wf : db.toLedger.Wf bound) (tick : Tick) :
    ((db.lastMintedToken tick).map (·.seqNo)).getD 0 = (db.toLedger.view.owned tick).ncard := by
  obtain ⟨max, premint, ids, supply⟩ : ∃ max premint ids,
      Supply db.toOwnershipStore db.toRangeStore tick max premint ids := by
    cases found : db.collectionRegistry.get tick with
    | none => exact ⟨0, 0, [], wf.undeployed found 0 0⟩
    | some entry =>
        obtain ⟨_, ids, supply⟩ := wf.deployed found
        exact ⟨_, _, ids, supply⟩
  have counted := supply.issued.lastMintedTokenSeqNo
  have same : (db.lastMintedToken tick).map (·.seqNo) = db.lastMintedTokenSeqNo tick := by
    rw [OwnershipStore.lastMintedToken, OwnershipStore.lastMintedTokenSeqNo, Option.map_map]
    rfl
  have members : db.toLedger.view.owned tick = ids.toFinset := by
    ext tokenId
    rw [Finset.mem_coe, List.mem_toFinset, ← supply.owned_iff wf.owned]
    simp [Registry.owned, Ledger.view, OwnershipStore.Owned]
  rw [same, counted, members, Set.ncard_coe_finset, List.toFinset_card_of_nodup supply.distinct]

/-! The answers one by one. -/

theorem krc721CollectionLookup_eq (wf : db.toLedger.Wf bound) {tick : Tick}
    (shown : ¬ db.Hides accessor.restrictedProtocols tick) :
    (accessor.krc721CollectionLookup db tick).map (Option.map fun answer =>
      (answer.collection.deployInfoWithCommon.info.terms, answer.collection.minted,
        answer.deployer, answer.royaltyTo)) =
      renderedRecord (accessor.shownTerms (db.toLedger.view.owned tick).ncard)
        (db.toLedger.view.terms tick) := by
  have minted := minted_eq_ncard wf tick
  unfold krc721CollectionLookup Db.krc721CollectionLookup
  simp only [Ledger.view]
  cases found : db.collectionRegistry.get tick with
  | none => rfl
  | some entry =>
      have visible := shown_of_not_hides shown found
      simp only [visible, Bool.false_eq_true, if_false, minted, Option.map_some]
      have sameBeneficiary : entry.info.info.terms.royalty.map (·.beneficiary) =
          entry.info.info.royalty.map (·.beneficiary) := by
        simp only [DeployInfo.terms, Option.map_map]
        rfl
      simp only [renderedRecord, collectionMetaWrapper, shownTerms, sameBeneficiary]
      simp only [DeployInfo.terms]
      cases accessor.addressOf entry.info.info.deployer with
      | error error => rfl
      | ok deployer =>
          cases accessor.addressOf? (entry.info.info.royalty.map (·.beneficiary)) with
          | error error => rfl
          | ok royaltyTo => rfl

/-- The lookup of a collection is what the list of collections shows for its row. -/
theorem listed_of_krc721CollectionLookup (wf : db.toLedger.Wf bound)
    (referenced : db.toLedger.Referenced) {tick : Tick} {restrictedProtocols : List String}
    {collection : Collection}
    (found : db.krc721CollectionLookup tick restrictedProtocols = some collection) :
    (⟨collection.opScoreAdded, tick⟩, collection.deployInfoWithCommon) ∈
        db.collectionDeployments.entries ∧
      db.collection ⟨collection.opScoreAdded, tick⟩ collection.deployInfoWithCommon =
        .ok collection := by
  constructor
  · rw [Partition.mem_entries, wf.collections.deployments]
    exact Db.registered_of_krc721CollectionLookup found
  · apply Db.collection_eq_ok_of_lookup _ found
    intro last minted
    obtain ⟨row, stored, same⟩ := OwnershipStore.lastMintedToken_some minted
    have changed := (wf.owned.mints.1 stored).1
    rw [← same]
    exact referenced.logged changed

theorem krc721TokenLookup_eq (sound : TokenRegistry.Sound db.toLedger.view) {tick : Tick}
    (shown : ¬ db.Hides accessor.restrictedProtocols tick) (tokenId : ℕ) :
    (accessor.krc721TokenLookup db tick tokenId).map (Option.map fun answer =>
      (answer.owner, answer.status.listingTxId)) =
      renderedRecord (accessor.shownOwner (db.toLedger.view.offer (tick, tokenId)))
        (db.toLedger.view.owner (tick, tokenId)) := by
  have registered := sound.owned (tick, tokenId)
  unfold krc721TokenLookup Db.krc721TokenLookup
  simp only [Ledger.view, Db.tokenListing] at registered ⊢
  cases found : db.currentOwnership.get ⟨tick, tokenId⟩ with
  | none => rfl
  | some current =>
      rw [found] at registered
      obtain ⟨terms, deployed, _⟩ := registered rfl
      rw [Option.map_eq_some_iff] at deployed
      obtain ⟨entry, deployed, _⟩ := deployed
      have visible := shown_of_not_hides shown deployed
      have collection : db.shownCollection tick accessor.restrictedProtocols = some entry := by
        simp only [Db.shownCollection, deployed, visible, Bool.false_eq_true, if_false]
      simp only [collection, Option.map_some, renderedRecord, token, shownOwner]
      cases accessor.addressOf current.owner with
      | error error => rfl
      | ok address =>
          cases db.listings.get ⟨tick, tokenId⟩ with
          | none => rfl
          | some listing => rfl

theorem krc721ListingLookup_eq (wf : db.toLedger.Wf bound) (tick : Tick) (tokenId : ℕ) :
    (accessor.krc721ListingLookup db tick tokenId).map (Option.map fun answer =>
      (answer.seller, some answer.listingTxId)) =
      renderedRecord (accessor.shownOwner (db.toLedger.view.offer (tick, tokenId)))
        ((db.toLedger.view.offer (tick, tokenId)).bind fun _ =>
          db.toLedger.view.owner (tick, tokenId)) := by
  unfold krc721ListingLookup Db.krc721ListingLookup
  simp only [Ledger.view]
  cases found : db.listings.get ⟨tick, tokenId⟩ with
  | none => rfl
  | some listing =>
      obtain ⟨_, modTxScore, held⟩ := wf.listed found
      simp only [held, Option.map_some, Option.bind_some, renderedRecord, listingEntryToMeta,
        shownOwner]
      cases accessor.addressOf listing.seller with
      | error error => rfl
      | ok address => rfl

theorem krc721RoyaltyFee_eq (fit : db.toLedger.DiscountsFit) {text : String} {address : Address}
    (parsed : crates.parseAddress text = .ok address)
    (isAddress : (crates.payToAddressScript address).IsAddress) {tick : Tick}
    (shown : ¬ db.Hides accessor.restrictedProtocols tick) :
    accessor.krc721RoyaltyFee db crates text tick =
      .ok ((db.toLedger.view.fee tick (crates.payToAddressScript address)).map toString) := by
  have lastFee := @Ledger.DiscountsFit.lastFee_eq _ fit tick _ isAddress
  unfold krc721RoyaltyFee Db.krc721RoyaltyFee Registry.fee
  simp only [parsed]
  cases found : db.collectionRegistry.get tick with
  | none => simp [Ledger.view, found]
  | some entry =>
      have visible := shown_of_not_hides shown found
      have terms : db.toLedger.view.terms tick = some entry.info.info.terms := by
        simp only [Ledger.view, found, Option.map_some]
      rw [DeployInfoWithCommon.hasIncompatibleUriPrefix] at visible
      simp only [visible, Bool.false_eq_true, if_false, lastFee, terms, Option.bind_some,
        DeployInfo.terms, Option.map_map]
      rfl

/-- A hidden collection is not found by any query about it. -/
theorem not_found_of_hides {tick : Tick} (hides : db.Hides accessor.restrictedProtocols tick) :
    accessor.krc721CollectionLookup db tick = .ok none ∧
      (∀ tokenId, accessor.krc721TokenLookup db tick tokenId = .ok none) ∧
      ∀ text address, crates.parseAddress text = .ok address →
        accessor.krc721RoyaltyFee db crates text tick = .ok none := by
  obtain ⟨entry, found, hidden⟩ := hides
  refine ⟨?_, ?_, ?_⟩
  · simp only [krc721CollectionLookup, Db.krc721CollectionLookup, found, hidden, if_true]
    rfl
  · intro tokenId
    have collection : db.shownCollection tick accessor.restrictedProtocols = none := by
      simp only [Db.shownCollection, found, hidden, if_true]
    simp only [krc721TokenLookup, Db.krc721TokenLookup, collection]
    cases db.currentOwnership.get ⟨tick, tokenId⟩ with
    | none => rfl
    | some current => rfl
  · intro text address parsed
    rw [DeployInfoWithCommon.hasIncompatibleUriPrefix] at hidden
    simp only [krc721RoyaltyFee, Db.krc721RoyaltyFee, parsed, found, hidden, if_true,
      Option.map_none]

theorem krc721OpByTxid_of_logged (wf : db.toLedger.Wf bound) {score : ℕ}
    {checked : CheckedOperation} (logged : db.operationHistory.get score = some checked) :
    accessor.krc721OpByTxid db checked.operation.common.txId =
      accessor.krc721OpByScore db score := by
  have indexed := wf.log.indexed.2 ⟨checked, logged, rfl⟩
  simp only [krc721OpByTxid, Db.krc721OpByTxid, krc721OpByScore, Db.krc721OpByScore, indexed,
    logged, Option.map_some, renderedRecord]
  cases accessor.operationMetaWrapper score checked with
  | error error => rfl
  | ok wrapper => rfl

theorem krc721OpByTxid_of_unlogged (wf : db.toLedger.Wf bound) {txid : TransactionId}
    (unlogged : ∀ score checked, db.operationHistory.get score = some checked →
      checked.operation.common.txId ≠ txid) : accessor.krc721OpByTxid db txid = .ok none := by
  have absent : db.txIdToOpscore.get txid = none := by
    rw [Option.eq_none_iff_forall_ne_some]
    intro score found
    obtain ⟨checked, logged, same⟩ := wf.log.indexed.1 found
    exact unlogged score checked logged same
  simp only [krc721OpByTxid, Db.krc721OpByTxid, absent, renderedRecord]

end Accessor

variable {kaspa : Kaspa} {crates : Crates} {db : Db}

/-- In every database of a run the accessor answers from the registry that the accepted operations
of the log lead to. -/
theorem StandardRun.answers (run : StandardRun kaspa db) (pays : crates.PaysToAddresses)
    (accessor : Accessor) : ∃ registry, History (db.toLogStore.events kaspa) registry ∧
      accessor.Answers crates db registry := by
  obtain ⟨bound, executed⟩ := GivenRun.executed run
  have wf := executed.replay.wf
  refine ⟨db.toLedger.view, executed.history, ?_⟩
  constructor
  case collection =>
    intro tick shown
    exact Accessor.krc721CollectionLookup_eq wf shown
  case listed =>
    intro tick collection found
    exact Accessor.listed_of_krc721CollectionLookup wf executed.replay.referenced found
  case token =>
    intro tick tokenId shown
    exact Accessor.krc721TokenLookup_eq executed.history.sound shown tokenId
  case listing =>
    intro tick tokenId
    exact Accessor.krc721ListingLookup_eq wf tick tokenId
  case royalty =>
    intro text address tick parsed shown
    exact Accessor.krc721RoyaltyFee_eq executed.discountsFit parsed (pays text address parsed) shown
  case hidden =>
    intro tick hides
    exact Accessor.not_found_of_hides hides
  case operation =>
    intro score checked logged
    exact Accessor.krc721OpByTxid_of_logged wf logged
  case unknown =>
    intro txid unlogged
    exact Accessor.krc721OpByTxid_of_unlogged wf unlogged

theorem StandardRun.answers_discounted : ∃ registry,
    History (Sample.discounted.toLogStore.events Sample.kaspa) registry ∧
      Sample.accessor.Answers Sample.crates Sample.discounted registry :=
  StandardRun.answers Sample.discounted_standard Sample.paysToAddresses Sample.accessor

end Krc721
