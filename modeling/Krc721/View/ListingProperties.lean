import Krc721.View.Listings
import Krc721.Processor.ReachableInvariants

/-! The listing partitions agree, and the listing queries never meet an inconsistency, along
every run whose removals restore no listing of a token that somebody else listed again. -/

set_option autoImplicit false

namespace Krc721

open OrderedStore

/-! Queries. -/

def pageEntries {Item : Type} : Option (List Item × Item) → List Item
  | none => []
  | some (init, last) => init ++ [last]

section Pages

variable {Key Item : Type} {good : Item → Prop}

theorem collectSplitLastResult_ok {items : List (Except ViewError Item)}
    (each : ∀ item ∈ items, ∃ value, item = .ok value ∧ good value)
    (init : List Item) (last : Option Item) (before : ∀ value ∈ init ++ last.toList, good value) :
    ∃ page, collectSplitLastResult init last items = .ok page ∧
      ∀ entry ∈ pageEntries page, good entry := by
  induction items generalizing init last with
  | nil =>
      refine ⟨_, rfl, ?_⟩
      cases last with
      | none => exact fun _ member => (List.not_mem_nil member).elim
      | some value => exact before
  | cons item items ih =>
      obtain ⟨value, rfl, valid⟩ := each item List.mem_cons_self
      refine ih (fun later member => each later (List.mem_cons_of_mem _ member)) _ _ ?_
      intro entry member
      rw [Option.toList_some, List.mem_append, List.mem_singleton] at member
      rcases member with earlier | rfl
      · exact before entry earlier
      · exact valid

/-- A query whose lookups all succeed returns a page of what they found. -/
theorem processIter_ok {iter : List Key} {f : Key → Except ViewError Item}
    (each : ∀ key ∈ iter, ∃ value, f key = .ok value ∧ good value) (limit : ℕ) :
    ∃ page, processIter iter limit f = .ok page ∧ ∀ entry ∈ pageEntries page, good entry := by
  refine collectSplitLastResult_ok ?_ [] none fun _ member => (List.not_mem_nil member).elim
  intro item member
  obtain ⟨key, inIter, rfl⟩ := List.mem_map.1 (List.mem_of_mem_take member)
  exact each key inIter

end Pages

/-- A key that lies between two keys of an address belongs to that address: no address script
is a proper prefix of another. -/
theorem AddressHoldingKey.spk_eq_of_between {key : AddressHoldingKey} {spk : ScriptPublicKey}
    {low high : Tick} {lowId highId : ℕ} (keyAddress : key.spk.IsAddress)
    (address : spk.IsAddress) (above : ⟨spk, low, lowId⟩ ≤ key)
    (below : key ≤ ⟨spk, high, highId⟩) : key.spk = spk :=
  (address.eq_of_prefix keyAddress (prefix_of_between above below)).symm

/-! Agreement. -/

/-- The listing partitions agree for every token, and the listing queries show it. -/
structure ListingsAgree (db : Db) : Prop where
  byTick : ∀ tick tokenId, (db.listings.get ⟨tick, tokenId⟩).isSome ↔
    (db.listingsByTick.get ⟨tick, tokenId⟩).isSome
  byAddress : ∀ tick tokenId, (db.listings.get ⟨tick, tokenId⟩).isSome ↔
    ∃ spk, (db.addressListings.get ⟨spk, tick, tokenId⟩).isSome
  seller : ∀ {tick tokenId listing}, db.listings.get ⟨tick, tokenId⟩ = some listing →
    ∀ spk score, db.addressListings.get ⟨spk, tick, tokenId⟩ = some score ↔
      spk = listing.seller ∧ score = listing.opScore
  active : ∀ tick args, ∃ page, db.krc721ActiveListings tick args = .ok page
  addressed : ∀ spk args, spk.IsAddress → ∃ page,
    db.krc721AddressListings spk args = .ok page ∧ ∀ entry ∈ pageEntries page, entry.seller = spk

/-- The operations of a database were sent by addresses. -/
def Db.SentByAddresses (db : Db) : Prop :=
  db.All fun common => common.sender.IsAddress

theorem Db.listingEntry_ok {db : Db} {tick : Tick} {tokenId : ℕ} {listing : ListingValue}
    (found : db.listings.get ⟨tick, tokenId⟩ = some listing) :
    ∃ entry, db.listingEntry tick tokenId = .ok entry ∧ entry.seller = listing.seller := by
  unfold Db.listingEntry
  rw [found]
  exact ⟨_, rfl, rfl⟩

/-- The two indexes of a consistent database make the queries consistent. -/
theorem Consistent.listingsAgree {kaspa : Kaspa} {db : Db} (consistent : Consistent kaspa db)
    (indexed : db.AddressIndexed) (senders : db.SentByAddresses) : ListingsAgree db := by
  obtain ⟨bound, replay⟩ := consistent.replay
  have wf := replay.wf
  have byTick : ∀ tick tokenId, (db.listings.get ⟨tick, tokenId⟩).isSome ↔
      (db.listingsByTick.get ⟨tick, tokenId⟩).isSome := by
    intro tick tokenId
    rw [wf.indexed ⟨tick, tokenId⟩, Option.isSome_map]
  have listed : ∀ key, (db.addressListings.get key).isSome → ∃ listing,
      db.listings.get ⟨key.tick, key.tokenId⟩ = some listing ∧ listing.seller = key.spk ∧
        key.spk.IsAddress := by
    rintro ⟨spk, tick, tokenId⟩ present
    obtain ⟨score, stored⟩ := Option.isSome_iff_exists.1 present
    obtain ⟨listing, found, seller, _⟩ := (indexed _ _ _ _).1 stored
    obtain ⟨common, info, logged, _, _, sender, _⟩ := (wf.listed found).1.logged
    have address := senders _ _ logged
    simp only [sender, seller] at address
    exact ⟨listing, found, seller, address⟩
  refine ⟨byTick, ?_, ?_, ?_, ?_⟩
  · intro tick tokenId
    constructor
    · intro present
      obtain ⟨listing, found⟩ := Option.isSome_iff_exists.1 present
      exact ⟨listing.seller, Option.isSome_iff_exists.2
        ⟨listing.opScore, (indexed _ _ _ _).2 ⟨listing, found, rfl, rfl⟩⟩⟩
    · rintro ⟨spk, present⟩
      obtain ⟨listing, found, _⟩ := listed _ present
      exact Option.isSome_iff_exists.2 ⟨listing, found⟩
  · intro tick tokenId listing found spk score
    rw [indexed, found]
    simp only [Option.some.injEq, exists_eq_left', eq_comm]
  · intro tick args
    have each : ∀ low high, ∀ key ∈ db.listingsByTick.keysBetween low high,
        ∃ entry, db.listingEntry key.tick key.tokenId = .ok entry ∧ True := by
      intro low high key member
      have present := (Partition.mem_keysBetween.1 member).1
      obtain ⟨listing, found⟩ :=
        Option.isSome_iff_exists.1 ((byTick key.tick key.tokenId).2 present)
      obtain ⟨entry, success, _⟩ := Db.listingEntry_ok found
      exact ⟨entry, success, trivial⟩
    unfold Db.krc721ActiveListings
    split
    · exact ⟨none, rfl⟩
    · cases args.direction with
      | forward =>
          obtain ⟨page, success, _⟩ := processIter_ok (each _ _) args.limit
          exact ⟨page, success⟩
      | backward =>
          obtain ⟨page, success, _⟩ := processIter_ok
            (fun key member => each _ _ key (List.mem_reverse.1 member)) args.limit
          exact ⟨page, success⟩
  · intro spk args address
    have each : ∀ low lowId high highId, ∀ key ∈ db.addressListings.keysBetween
        ⟨spk, low, lowId⟩ ⟨spk, high, highId⟩,
          ∃ entry, db.listingEntry key.tick key.tokenId = .ok entry ∧ entry.seller = spk := by
      intro low lowId high highId key member
      obtain ⟨present, above, below⟩ := Partition.mem_keysBetween.1 member
      obtain ⟨listing, found, seller, keyAddress⟩ := listed key present
      obtain ⟨entry, success, shown⟩ := Db.listingEntry_ok found
      exact ⟨entry, success, shown.trans (seller.trans
        (AddressHoldingKey.spk_eq_of_between keyAddress address above below))⟩
    unfold Db.krc721AddressListings
    cases args.direction with
    | forward => exact processIter_ok (each _ _ _ _) args.limit
    | backward =>
        exact processIter_ok (fun key member => each _ _ _ _ key (List.mem_reverse.1 member))
          args.limit

/-! Runs. -/

/-- A run in which the analyzer derives every sender from a public key, and no removal restores a
listing of a token that somebody else has listed again since. -/
abbrev ListingRun (kaspa : Kaspa) : Db → Prop :=
  UnforkedRun kaspa
    (fun _ mergesets => ∀ mergeset ∈ mergesets, ∀ op ∈ mergeset.operations,
      op.operation.common.sender.IsAddress)
    fun db removed forced => ∀ threshold, removalThreshold kaspa db removed forced =
      some threshold → ¬ db.RelistedByOther threshold

theorem ListingRun.indexed {kaspa : Kaspa} {db : Db} (run : ListingRun kaspa db) :
    db.AddressIndexed ∧ db.SentByAddresses := by
  refine UnforkedRun.invariant (fun db => db.AddressIndexed ∧ db.SentByAddresses) run ?_ ?_ ?_
    fun _ _ kept => kept
  · constructor
    · intro spk tick tokenId score
      simp [Db.new]
    · intro score checked logged
      simp [Db.new] at logged
  · rintro db db' mergesets _ senders grown ⟨indexed, sent⟩
    exact ⟨grown.addressed indexed,
      LogStore.all_iff.2 (grown.promises senders (LogStore.all_iff.1 sent))⟩
  · rintro db db' removed forced _ unclashed rolledBack ⟨indexed, sent⟩
    exact ⟨rolledBack.addressed indexed unclashed,
      LogStore.all_iff.2 (rolledBack.promises (LogStore.all_iff.1 sent))⟩

/-! The sample chain, and the same one with a second listing instead of the mint, both rolled
back to the deployment. -/

namespace Sample

/-- Bob buys the token and lists it again. -/
def relistBlock : Mergeset where
  operations := [
    ⟨0, 0, operation 3 alice (.send ⟨1, 50, some bob, 2⟩)⟩,
    ⟨1, 0, operation 5 bob (.list ⟨1, listingAddress, [7]⟩)⟩]
  entropy := 6
  blueScore := 2
  acceptedChainBlockHash := 103

def relisted : Db := added .new [deployBlock, relistBlock]

theorem relisted_reachable : UnforkedReachable kaspa relisted :=
  added_reachable .new ⟨⟨by decide, by decide⟩, .new _⟩

theorem sold_run : ListingRun kaspa sold := by
  obtain ⟨db, diff, success, _⟩ := Consistent.new.processAdditions chain_admissible
  simp only [sold, added, success]
  apply UnforkedRun.added .new chain_admissible _ success
  have address : ∀ byte, (ScriptPublicKey.ofPubKey (List.replicate 32 byte)).IsAddress :=
    fun byte => .pubKey _ (List.length_replicate)
  simp only [deployBlock, saleBlock, operation, alice, bob, List.forall_mem_cons,
    List.not_mem_nil, false_implies, implies_true, and_true]
  exact ⟨⟨address 1, address 1⟩, address 1, address 2⟩

theorem soldBack_run : ListingRun kaspa (removed sold [saleBlock.acceptedChainBlockHash]) := by
  obtain ⟨db, diff, success, _⟩ := sold_reachable.consistent.processRemoval
    [saleBlock.acceptedChainBlockHash] none
  simp only [removed, success]
  refine .removal sold_run ?_ success
  have from4000 : removalThreshold kaspa sold [saleBlock.acceptedChainBlockHash] none =
      some 4000 := by decide +kernel
  have older : (sold.listings.entries.all fun entry => entry.2.opScore < 4000) = true := by
    decide +kernel
  intro threshold same
  rw [from4000, Option.some_inj] at same
  subst same
  rintro ⟨token, current, _, _, _, _, _, _, found, above, _⟩
  have low := List.all_eq_true.1 older _ (Partition.mem_entries.2 found)
  simp only [decide_eq_true_eq] at low
  omega

end Sample

/-- Along such a run the listing partitions agree in every database reached. -/
theorem ListingRun.listings_agree {kaspa : Kaspa} {db : Db} (run : ListingRun kaspa db) :
    ListingsAgree db := by
  obtain ⟨indexed, senders⟩ := ListingRun.indexed run
  exact run.consistent.listingsAgree indexed senders

theorem ListingRun.listings_agree_sale :
    ListingsAgree (Sample.removed Sample.sold [Sample.saleBlock.acceptedChainBlockHash]) :=
  ListingRun.listings_agree Sample.soldBack_run

/-- Rolling the second listing back restores the first one and leaves the token under the
address of the second seller. -/
theorem relisted_not_listingsAgree :
    UnforkedReachable Sample.kaspa (Sample.removed Sample.relisted [103]) ∧
      ((Sample.removed Sample.relisted [103]).listings.get ⟨Sample.tick, 1⟩).map
        (·.seller) = some Sample.alice ∧
      (Sample.removed Sample.relisted [103]).addressListings.get
        ⟨Sample.bob, Sample.tick, 1⟩ = some 5000 ∧
      ¬ ListingsAgree (Sample.removed Sample.relisted [103]) := by
  have restored : ((Sample.removed Sample.relisted [103]).listings.get
      ⟨Sample.tick, 1⟩).map (·.seller) = some Sample.alice := by decide +kernel
  have stale : (Sample.removed Sample.relisted [103]).addressListings.get
      ⟨Sample.bob, Sample.tick, 1⟩ = some 5000 := by decide +kernel
  refine ⟨Sample.removed_reachable Sample.relisted_reachable _, restored, stale, fun agree => ?_⟩
  obtain ⟨listing, found, seller⟩ := Option.map_eq_some_iff.1 restored
  have shown := ((agree.seller found _ _).1 stale).1
  rw [seller] at shown
  exact absurd shown (by decide)

end Krc721
