import Krc721.Accessor.Walks
import Krc721.Paging.Jumps

/-! The pages of the active listings of a collection. The listings are ordered by token id, and a
page starts at a token id; but the offset that a page names is the op score of the listing behind
it, so where it leads depends on how the op scores compare with the token ids. -/

set_option autoImplicit false

namespace Krc721

open OrderedStore SymbolStream

structure ListingMetaWrapper where
  tick : Tick
  tokenId : ℕ
  seller : Address
  listingTxId : TransactionId
  redeemScript : String
  opScore : ℕ
  metadata : Option Metadata

theorem ListingByTickKey.between_iff {tick : Tick} {key : ListingByTickKey} {low high : ℕ} :
    (⟨tick, low⟩ ≤ key ∧ key ≤ ⟨tick, high⟩) ↔
      key.tick = tick ∧ low ≤ key.tokenId ∧ key.tokenId ≤ high := by
  rw [← not_lt, ← not_lt, lt_iff, lt_iff, between_same_first, not_lt, not_lt]

namespace Accessor

variable (accessor : Accessor) (db : Db)

def listingEntryToMeta (entry : ListingEntry) : Except TxScriptError ListingMetaWrapper := do
  let seller ← accessor.addressOf entry.seller
  .ok {
    tick := entry.tick
    tokenId := entry.tokenId
    seller
    listingTxId := entry.listingTxId
    redeemScript := hexString entry.redeemScript
    opScore := entry.opScore
    metadata := none }

def krc721ActiveListings (tick : Tick) (iterArgs : IteratorRequest ℕ) :
    Except CoreError (Pagination ListingMetaWrapper ℕ) :=
  let args := resolveU64IterArgs iterArgs
  renderedPage (db.krc721ActiveListings tick args) args.limit (fun last => last.opScore)
    accessor.listingEntryToMeta

end Accessor

/-- The position is not before the offset. -/
def Direction.isFrom (direction : Direction) (offset position : ℕ) : Bool :=
  match direction with
  | .forward => offset ≤ position
  | .backward => position ≤ offset

namespace Db

variable (db : Db) (tick : Tick) (direction : Direction)

/-- The listings of a collection in the order of their token ids. -/
def activeListings : List ListingEntry :=
  (db.listings.entries.filter fun entry => entry.1.tick = tick).map fun entry =>
    { tick := entry.1.tick
      tokenId := entry.1.tokenId
      seller := entry.2.seller
      listingTxId := entry.2.listingTxId
      redeemScript := entry.2.redeemScript
      opScore := entry.2.opScore }

/-- How many listings a page that is asked for leaves out in front. -/
def listingsBefore (offset : Option ℕ) : ℕ :=
  (direction.arrange (db.activeListings tick)).countP fun listing =>
    !direction.isFrom (offset.getD direction.start) listing.tokenId

/-- Where the page starts that the listing at an index leads to: its op score is read as a token
id. -/
def cursorStart : ℕ → ℕ :=
  Paging.jumpOf (direction.arrange (db.activeListings tick)) (db.listingsBefore tick direction)
    (fun listing => listing.opScore)

/-- A token is listed if and only if it is in the index of its collection. -/
def ListingsIndexed : Prop :=
  ∀ tick tokenId, (db.listings.get ⟨tick, tokenId⟩).isSome ↔
    (db.listingsByTick.get ⟨tick, tokenId⟩).isSome

/-- The token ids of the listings are of type `u64`. -/
def ListingsFit : Prop :=
  ∀ key, (db.listings.get key).isSome → key.tokenId ≤ u64Max

variable {db tick direction}

theorem mem_activeListings {entry : ListingEntry} :
    entry ∈ db.activeListings tick ↔ db.listingEntry tick entry.tokenId = .ok entry := by
  unfold activeListings listingEntry
  rw [List.mem_map]
  constructor
  · rintro ⟨⟨⟨tick', tokenId⟩, listing⟩, member, rfl⟩
    obtain ⟨stored, same⟩ := List.mem_filter.1 member
    obtain rfl : tick' = tick := of_decide_eq_true same
    simp only [Partition.mem_entries.1 stored]
  · intro found
    split at found
    · cases found
    · rename_i listing stored
      refine ⟨(⟨tick, entry.tokenId⟩, listing), List.mem_filter.2
        ⟨Partition.mem_entries.2 stored, decide_eq_true rfl⟩, Except.ok.inj found⟩

theorem activeListings_ascending :
    (db.activeListings tick).Pairwise fun left right => left.tokenId < right.tokenId := by
  unfold activeListings
  refine List.pairwise_map.2 (Accessor.pairwise_entries fun left _ right _ leftTick rightTick
    ordered => ?_)
  simp only [decide_eq_true_eq] at leftTick rightTick
  rcases OwnershipKey.lt_iff.1 ordered with lower | ⟨_, lower⟩
  · rw [leftTick, rightTick] at lower
    exact absurd lower (lt_irrefl _)
  · exact lower

theorem activeListings_le (fit : db.ListingsFit) {entry : ListingEntry}
    (member : entry ∈ db.activeListings tick) : entry.tokenId ≤ u64Max := by
  have found := mem_activeListings.1 member
  unfold listingEntry at found
  split at found
  · cases found
  · rename_i listing stored
    exact fit ⟨tick, entry.tokenId⟩ (by rw [stored]; rfl)

theorem keysBetween_eq (indexed : db.ListingsIndexed) {low high : ℕ} :
    db.listingsByTick.keysBetween ⟨tick, low⟩ ⟨tick, high⟩ =
      ((db.activeListings tick).filter fun entry =>
        low ≤ entry.tokenId ∧ entry.tokenId ≤ high).map fun entry => ⟨tick, entry.tokenId⟩ := by
  have ordered : (((db.activeListings tick).filter fun entry =>
      low ≤ entry.tokenId ∧ entry.tokenId ≤ high).map fun entry =>
        (⟨tick, entry.tokenId⟩ : ListingByTickKey)).Pairwise (· < ·) := by
    refine List.pairwise_map.2 ((activeListings_ascending.filter _).imp ?_)
    intro left right lower
    exact ListingByTickKey.lt_iff.2 (.inr ⟨rfl, lower⟩)
  refine List.Pairwise.eq_of_mem_iff ((Partition.keysFrom_ordered _ _).filter _) ordered
    fun key => ?_
  obtain ⟨tick', tokenId⟩ := key
  rw [Partition.mem_keysBetween, ListingByTickKey.between_iff, ← indexed, List.mem_map]
  simp only [List.mem_filter, mem_activeListings, decide_eq_true_eq, ListingByTickKey.mk.injEq]
  constructor
  · rintro ⟨listed, rfl, between⟩
    obtain ⟨listing, found⟩ := Option.isSome_iff_exists.1 listed
    obtain ⟨entry, isEntry⟩ : ∃ entry, db.listingEntry tick' tokenId = .ok entry := by
      rw [listingEntry, found]
      exact ⟨_, rfl⟩
    have same : entry.tokenId = tokenId := by
      rw [listingEntry, found] at isEntry
      cases isEntry
      rfl
    exact ⟨entry, ⟨by rw [same, isEntry], by rwa [same]⟩, rfl, same⟩
  · rintro ⟨entry, ⟨isEntry, between⟩, rfl, rfl⟩
    refine ⟨?_, rfl, between⟩
    unfold listingEntry at isEntry
    split at isEntry
    · cases isEntry
    · rename_i found
      rw [found]
      rfl

/-- What the query finds for an offset, in the order of the direction. -/
theorem krc721ActiveListings_eq (indexed : db.ListingsIndexed) (fit : db.ListingsFit)
    (registered : (db.collectionRegistry.get tick).isSome) (offset limit : ℕ) :
    db.krc721ActiveListings tick ⟨offset, direction, limit⟩ =
      processIter ((direction.arrange (db.activeListings tick)).filter fun entry =>
        direction.isFrom offset entry.tokenId) limit .ok := by
  have found (entries : List ListingEntry) (all : ∀ entry ∈ entries,
      entry ∈ db.activeListings tick) :
      (entries.map fun entry => (⟨tick, entry.tokenId⟩ : ListingByTickKey)).map
        (fun key => db.listingEntry key.tick key.tokenId) = entries.map .ok := by
    rw [List.map_map]
    exact List.map_congr_left fun entry member => mem_activeListings.1 (all entry member)
  rw [Option.isSome_iff_ne_none] at registered
  simp only [krc721ActiveListings, Option.isNone_iff_eq_none, registered, if_false]
  cases direction with
  | forward =>
      simp only [keysBetween_eq indexed, processIter]
      rw [found _ fun entry member => List.mem_of_mem_filter member]
      refine congrArg (fun entries => collectSplitLastResult [] none
        ((List.map .ok entries).take (limit + 1))) (List.filter_congr fun entry member => ?_)
      simp [Direction.isFrom, activeListings_le fit member]
  | backward =>
      simp only [keysBetween_eq indexed, processIter, Nat.zero_le, true_and]
      rw [List.map_reverse, found _ fun entry member => List.mem_of_mem_filter member]
      simp only [Direction.arrange, Direction.isFrom, List.filter_reverse, List.map_reverse]

theorem filter_eq_drop {Row : Type} {test : Row → Bool} {rows : List Row}
    (upward : rows.Pairwise fun left right => test left = true → test right = true) :
    rows.filter test = rows.drop (rows.countP fun row => !test row) := by
  induction rows with
  | nil => rfl
  | cons row rows ih =>
      obtain ⟨first, later⟩ := List.pairwise_cons.1 upward
      cases passes : test row with
      | true =>
          have all : ∀ other ∈ row :: rows, test other = true :=
            List.forall_mem_cons.2 ⟨passes, fun other member => first other member passes⟩
          rw [List.filter_eq_self.2 all, List.countP_eq_zero.2, List.drop_zero]
          intro other member
          simp [all other member]
      | false =>
          rw [List.filter_cons_of_neg (by simp [passes]), ih later,
            List.countP_cons_of_pos (by simp [passes]), List.drop_succ_cons]

theorem isFrom_upward (offset : ℕ) :
    (direction.arrange (db.activeListings tick)).Pairwise fun left right =>
      direction.isFrom offset left.tokenId = true →
        direction.isFrom offset right.tokenId = true := by
  cases direction with
  | forward =>
      refine activeListings_ascending.imp fun lower above => ?_
      exact decide_eq_true ((of_decide_eq_true above).trans lower.le)
  | backward =>
      refine List.pairwise_reverse.2 (activeListings_ascending.imp fun lower below => ?_)
      exact decide_eq_true (lower.le.trans (of_decide_eq_true below))

end Db

namespace Accessor

variable {accessor : Accessor} {db : Db} {tick : Tick} {direction : Option Direction}
  {limit : Option ℕ}

/-- Following the offsets from a request without one ends, and returns every active listing of the
collection once. -/
def YieldsListings (accessor : Accessor) (db : Db) (tick : Tick) (direction : Option Direction)
    (limit : Option ℕ) : Prop :=
  ∃ items shown,
    Paging.Follows (fun offset => accessor.krc721ActiveListings db tick ⟨offset, direction, limit⟩)
      none items ∧
    shown.Perm (db.activeListings tick) ∧
    List.Forall₂ (fun entry item => accessor.listingEntryToMeta entry = .ok item) shown items

theorem exists_listingEntryToMeta {entry : ListingEntry} :
    (∃ item, accessor.listingEntryToMeta entry = .ok item) ↔ accessor.IsShown entry.seller := by
  simp only [listingEntryToMeta, bind_eq_ok, IsShown]
  constructor
  · rintro ⟨_, address, shown, _⟩
    exact ⟨address, shown⟩
  · rintro ⟨address, shown⟩
    exact ⟨_, address, shown, rfl⟩

theorem activeListings_windows (indexed : db.ListingsIndexed) (fit : db.ListingsFit)
    (registered : (db.collectionRegistry.get tick).isSome) :
    Paging.Windows
      (fun offset => accessor.krc721ActiveListings db tick ⟨offset, direction, limit⟩)
      (min (limit.getD MAX_ITERATOR_LIMIT) MAX_ITERATOR_LIMIT)
      ((direction.getD .forward).arrange (db.activeListings tick))
      (db.listingsBefore tick (direction.getD .forward)) (fun listing => listing.opScore)
      (fun entry item => accessor.listingEntryToMeta entry = .ok item) fun _ => True := by
  have fetched (offset : Option ℕ) :
      accessor.krc721ActiveListings db tick ⟨offset, direction, limit⟩ =
        renderedPage (processIter (((direction.getD .forward).arrange (db.activeListings tick)).drop
          (db.listingsBefore tick (direction.getD .forward) offset))
            (min (limit.getD MAX_ITERATOR_LIMIT) MAX_ITERATOR_LIMIT) .ok)
          (min (limit.getD MAX_ITERATOR_LIMIT) MAX_ITERATOR_LIMIT) (fun last => last.opScore)
          accessor.listingEntryToMeta := by
    simp only [krc721ActiveListings, resolveU64IterArgs,
      Db.krc721ActiveListings_eq indexed fit registered, Db.listingsBefore]
    rw [Db.filter_eq_drop (Db.isFrom_upward _)]
  constructor
  · intro offset _ each
    simp only [fetched]
    refine renderedPage_ok _ _ fun entry member => ?_
    obtain ⟨item, rendered⟩ := each entry (List.mem_of_mem_drop member)
    exact ⟨item, entry, rfl, rendered⟩
  · intro offset _ page success
    simp only [fetched] at success
    rw [← List.getElem?_drop]
    refine renderedPage_shows success (fun entry value found => ?_) (by simp)
    cases found
    rfl
  · exact fun _ _ => trivial

theorem listingEntryToMeta_tokenId {entry : ListingEntry} {item : ListingMetaWrapper}
    (rendered : accessor.listingEntryToMeta entry = .ok item) : item.tokenId = entry.tokenId := by
  obtain ⟨_, _, rendered⟩ := bind_eq_ok.1 rendered
  cases rendered
  rfl

/-- In a database whose listing indexes agree, the walk over the active listings of a collection
returns each of them once if and only if every seller is shown as an address and the op scores,
read as token ids, lead through all pages. -/
theorem yieldsListings_iff (indexed : db.ListingsIndexed) (fit : db.ListingsFit)
    (registered : (db.collectionRegistry.get tick).isSome) :
    YieldsListings accessor db tick direction limit ↔
      (∀ entry ∈ db.activeListings tick, accessor.IsShown entry.seller) ∧
        Paging.Leads (db.activeListings tick).length
          (min (limit.getD MAX_ITERATOR_LIMIT) MAX_ITERATOR_LIMIT)
          (db.cursorStart tick (direction.getD .forward)) := by
  have permuted : ((direction.getD .forward).arrange (db.activeListings tick)).Perm
      (db.activeListings tick) := by
    cases direction.getD .forward with
    | forward => exact List.Perm.refl _
    | backward => exact List.reverse_perm _
  have distinct : (db.activeListings tick).Nodup :=
    Db.activeListings_ascending.imp fun lower same => absurd lower (by rw [same]; exact lt_irrefl _)
  have first : db.listingsBefore tick (direction.getD .forward) none = 0 := by
    refine List.countP_eq_zero.2 fun entry member => ?_
    have inside := Db.activeListings_le fit (Direction.mem_arrange.1 member)
    cases direction.getD .forward with
    | forward => simp [Direction.isFrom, Direction.start]
    | backward => simp [Direction.isFrom, Direction.start, inside]
  have yields := Paging.Windows.yields_iff (@activeListings_windows accessor db tick direction limit
    indexed fit registered) trivial first (permuted.nodup_iff.2 distinct) ?_
  · simp only [Direction.mem_arrange, exists_listingEntryToMeta, permuted.length_eq] at yields
    rw [YieldsListings, Db.cursorStart, ← yields]
    simp only [permuted.congr_right]
  · intro entry other item member member' rendered rendered'
    have same := (listingEntryToMeta_tokenId rendered).symm.trans
      (listingEntryToMeta_tokenId rendered')
    have found := Db.mem_activeListings.1 (Direction.mem_arrange.1 member)
    have found' := Db.mem_activeListings.1 (Direction.mem_arrange.1 member')
    rw [same, found'] at found
    exact (Except.ok.inj found).symm

end Accessor

theorem UnforkedReachable.listingsIndexed {kaspa : Kaspa} {db : Db}
    (reachable : UnforkedReachable kaspa db) : db.ListingsIndexed := by
  obtain ⟨bound, replay⟩ := reachable.consistent.replay
  intro tick tokenId
  rw [replay.wf.indexed ⟨tick, tokenId⟩, Option.isSome_map]

theorem map_eq_ok {Value Result Error : Type} {value : Except Error Value} {f : Value → Result}
    {result : Result} :
    value.map f = .ok result ↔ ∃ found, value = .ok found ∧ f found = result := by
  cases value <;> simp [Except.map]

namespace Sample

/-- Alice deploys with two preminted tokens and lists both. -/
def offersBlock : Mergeset where
  operations := [
    ⟨0, 0, operation 1 alice (.deploy ⟨.remote "ipfs", 3, alice, none, 0, 2⟩)⟩,
    ⟨0, 1, operation 2 alice (.list ⟨1, listingAddress, [7]⟩)⟩,
    ⟨0, 2, operation 3 alice (.list ⟨2, listingAddress, [7]⟩)⟩]
  entropy := 5
  blueScore := 1
  acceptedChainBlockHash := 101

/-- The same offers at blue score 0, so that the op scores of the two listings are the ids of
their tokens. -/
def firstOffersBlock : Mergeset := { offersBlock with blueScore := 0 }

theorem offers_admissible : Admissible kaspa .new [offersBlock] :=
  ⟨⟨by decide, by decide⟩, .new _⟩

theorem firstOffers_admissible : Admissible kaspa .new [firstOffersBlock] :=
  ⟨⟨by decide, by decide⟩, .new _⟩

def offersListed : Db := added .new [offersBlock]

theorem offersListed_reachable : UnforkedReachable kaspa offersListed :=
  added_reachable .new offers_admissible

def firstOffers : Db := added .new [firstOffersBlock]

theorem firstOffers_reachable : UnforkedReachable kaspa firstOffers :=
  added_reachable .new firstOffers_admissible

end Sample

/-- Two pages of one listing each. -/
theorem Accessor.yieldsListings_firstOffers :
    (Sample.firstOffers.activeListings Sample.tick).length = 2 ∧
      YieldsListings Sample.accessor Sample.firstOffers Sample.tick (some .forward) (some 1) := by
  have both : (Sample.firstOffers.activeListings Sample.tick).length = 2 := by decide +kernel
  refine ⟨both, (Accessor.yieldsListings_iff Sample.firstOffers_reachable.listingsIndexed
    (Sample.forall_get_of_entries (by decide +kernel)) (by decide +kernel)).2 ⟨?_, ?_⟩⟩
  · intro entry member
    have sellers : ∀ entry ∈ Sample.firstOffers.activeListings Sample.tick,
        entry.seller = Sample.alice := by
      decide +kernel
    rw [Sample.isShown_iff, sellers entry member]
    exact .pubKey _ List.length_replicate
  · rw [both]
    exact ⟨by decide, [1], by decide, by decide +kernel, by decide⟩

/-- The second page is asked for at the op score of the second listing, beyond all token ids. -/
theorem Accessor.not_yieldsListings_offersListed :
    UnforkedReachable Sample.kaspa Sample.offersListed ∧
      (Sample.offersListed.activeListings Sample.tick).length = 2 ∧
      ¬ YieldsListings Sample.accessor Sample.offersListed Sample.tick (some .forward)
        (some 1) := by
  have both : (Sample.offersListed.activeListings Sample.tick).length = 2 := by decide +kernel
  refine ⟨Sample.offersListed_reachable, both, ?_⟩
  rintro ⟨items, shown, follows, all, rendered⟩
  have first : (Sample.accessor.krc721ActiveListings Sample.offersListed Sample.tick
      ⟨none, some .forward, some 1⟩).map (fun page => (page.data.length, page.nextPageOffset)) =
        .ok (1, some 2002) := by
    decide +kernel
  have second : (Sample.accessor.krc721ActiveListings Sample.offersListed Sample.tick
      ⟨some 2002, some .forward, some 1⟩).map (fun page => (page.data.length,
        page.nextPageOffset)) = .ok (0, none) := by
    decide +kernel
  obtain ⟨⟨data, next⟩, fetched, page⟩ := map_eq_ok.1 first
  obtain ⟨⟨data', next'⟩, fetched', page'⟩ := map_eq_ok.1 second
  simp only [Prod.mk.injEq] at page page'
  obtain ⟨⟨one, rfl⟩, ⟨noMore, rfl⟩⟩ := And.intro page page'
  have same := follows.unique (.next fetched (.last fetched'))
  have lengths := rendered.length_eq
  rw [all.length_eq, both, same, List.length_append, one, noMore] at lengths
  cases lengths

end Krc721
