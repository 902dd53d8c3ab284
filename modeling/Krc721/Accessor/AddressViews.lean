import Krc721.Accessor.Walks
import Krc721.View.TokenProperties

/-! The tokens of an address. The keys of the holdings have no length in front of their script, so
the key range of an address can hold a row of a longer script; the views are exact as long as it
does not. -/

set_option autoImplicit false

namespace Krc721

open OrderedStore

/-- Where the list of the tokens of an address starts. -/
def Direction.tokenStart : Direction → TickTokenOffset
  | .forward => ⟨Tick.MIN, 0⟩
  | .backward => ⟨Tick.MAX, u64Max⟩

def AddressNftInfo.token (info : AddressNftInfo) : OwnershipKey := ⟨info.tick, info.tokenId⟩

def AddressHoldingKey.token (key : AddressHoldingKey) : OwnershipKey := ⟨key.tick, key.tokenId⟩

def NftLookupEntry.addressNftInfo (tick : Tick) (entry : NftLookupEntry) : AddressNftInfo where
  tick
  tickMetadata := none
  tokenId := entry.tokenId
  opScoreModified := entry.modTxScore
  status := tokenStatus entry.listing

namespace Db

section

variable (db : Db) (spk : ScriptPublicKey) (restrictedProtocols : List String)
  (direction : Direction) (limit : ℕ)

/-- The pages of `krc721_address_nft_list`. -/
def addressNftPage (offset : Option TickTokenOffset) :
    Except ViewError (Pagination AddressNftInfo TickTokenOffset) :=
  (db.krc721AddressNftList spk ⟨offset.getD direction.tokenStart, direction, limit⟩
    restrictedProtocols).map fun splitLast =>
      toPaginated splitLast limit fun last => ⟨last.tick, last.tokenId⟩

/-- The pages of `krc721_address_nft_lookup`. -/
def addressNftLookupPage (tick : Tick) (offset : Option ℕ) :
    Except ViewError (Pagination AddressNftInfo ℕ) :=
  (db.krc721AddressNftLookup tick spk ⟨offset.getD direction.start, direction, limit⟩
    restrictedProtocols).map fun splitLast =>
      let paginated := toPaginated splitLast limit fun last => last.tokenId
      ⟨paginated.data.map (NftLookupEntry.addressNftInfo tick), paginated.nextPageOffset⟩

/-- The current owner of the token is the script. -/
def Owns (token : OwnershipKey) : Prop :=
  ∃ modTxScore, db.currentOwnership.get token = some ⟨spk, modTxScore⟩

/-- Every row in the key range of the script is a row of the script. -/
def OnlyHolder : Prop :=
  ∀ key, (db.addressHoldings.get key).isSome → ⟨spk, Tick.MIN, 0⟩ ≤ key →
    key ≤ ⟨spk, Tick.MAX, u64Max⟩ → key.spk = spk

end

end Db

/-- The walk over the pages yields exactly these tokens, each of them once. -/
def YieldsTokens {Offset : Type}
    (fetch : Option Offset → Except ViewError (Pagination AddressNftInfo Offset))
    (tokens : OwnershipKey → Prop) : Prop :=
  ∃ items, Paging.Follows fetch none items ∧ (items.map AddressNftInfo.token).Nodup ∧
    ∀ token, token ∈ items.map AddressNftInfo.token ↔ tokens token

/-- Both views of a script yield exactly its tokens, in both directions and with every limit. -/
structure AddressViewsExact (db : Db) (spk : ScriptPublicKey) (restrictedProtocols : List String) :
    Prop where
  list : ∀ direction limit, 0 < limit →
    YieldsTokens (db.addressNftPage spk restrictedProtocols direction limit) (db.Owns spk)
  lookup : ∀ tick direction limit, tick ≤ Tick.MAX → 0 < limit →
    YieldsTokens (db.addressNftLookupPage spk restrictedProtocols direction limit tick)
      fun token => token.tick = tick ∧ db.Owns spk token

/-! The order of the rows of one script. -/

namespace AddressHoldingKey

variable {spk : ScriptPublicKey} {tick tick' : Tick} {tokenId tokenId' : ℕ}

theorem lt_iff : (⟨spk, tick, tokenId⟩ : AddressHoldingKey) < ⟨spk, tick', tokenId'⟩ ↔
    tick < tick' ∨ tick = tick' ∧ tokenId < tokenId' := by
  change ownedKey _ < ownedKey _ ↔ _
  rw [ownedKey, ownedKey, append_lt_append_iff _ _ rfl, TickBytes.append_lt_iff,
    toBeBytes_lt_toBeBytes_iff (by decide)]
  simp

theorem start_le : (⟨spk, Tick.MIN, 0⟩ : AddressHoldingKey) ≤ ⟨spk, tick, tokenId⟩ := by
  rw [← not_lt, lt_iff]
  simp [Tick.min_le]

/-- The end of the key range of a script. -/
theorem lt_end (tickLe : tick ≤ Tick.MAX) (below : tokenId < u64Max) :
    (⟨spk, tick, tokenId⟩ : AddressHoldingKey) < ⟨spk, Tick.MAX, u64Max⟩ := by
  rw [lt_iff]
  rcases lt_or_eq_of_le tickLe with lower | same
  · exact .inl lower
  · exact .inr ⟨same, below⟩

theorem le_end (tickLe : tick ≤ Tick.MAX) (tokenIdLe : tokenId ≤ u64Max) :
    (⟨spk, tick, tokenId⟩ : AddressHoldingKey) ≤ ⟨spk, Tick.MAX, u64Max⟩ := by
  rw [← not_lt, lt_iff]
  intro beyond
  rcases beyond with above | ⟨_, above⟩
  · exact absurd above (not_lt.2 tickLe)
  · omega

theorem between_iff {low high : ℕ} :
    ((⟨spk, tick', low⟩ : AddressHoldingKey) ≤ ⟨spk, tick, tokenId⟩ ∧
        (⟨spk, tick, tokenId⟩ : AddressHoldingKey) ≤ ⟨spk, tick', high⟩) ↔
      tick = tick' ∧ low ≤ tokenId ∧ tokenId ≤ high := by
  rw [← not_lt, ← not_lt, lt_iff, lt_iff, between_same_first, not_lt, not_lt]

end AddressHoldingKey

/-! What the views collect. -/

/-- The row of a page stands for the token of a holding. -/
def ShowsHolding (row : AddressHoldingKey × ℕ) (info : AddressNftInfo) : Prop :=
  info.token = row.1.token

theorem map_token_eq {rows : List (AddressHoldingKey × ℕ)} {items : List AddressNftInfo}
    (shown : List.Forall₂ ShowsHolding rows items) :
    items.map AddressNftInfo.token = rows.map fun row => row.1.token := by
  induction shown with
  | nil => rfl
  | cons first _ ih => rw [List.map_cons, List.map_cons, ih, first]

theorem pageEntries_split {Item : Type} (items : List Item) :
    pageEntries (items.getLast?.map fun last => (items.dropLast, last)) = items := by
  rcases List.eq_nil_or_concat items with rfl | ⟨init, last, rfl⟩
  · rfl
  · simp [pageEntries]

namespace Db

variable {db : Db} {spk : ScriptPublicKey} {restrictedProtocols : List String}
  {direction : Direction} {limit : ℕ}

def Unrestricted (db : Db) (restrictedProtocols : List String) : Prop :=
  ∀ tick entry, db.collectionRegistry.get tick = some entry →
    entry.info.hasIncompatibleUriPrefix restrictedProtocols = false

/-- Without restricted collections every row is pushed. -/
theorem conditionalPush_push (unrestricted : db.Unrestricted restrictedProtocols)
    {nfts : AddressNfts} {key : AddressHoldingKey} {modTxScore : ℕ}
    (registered : (db.collectionRegistry.get key.tick).isSome)
    (compatible : nfts.lastIncompatible = false) :
    ∃ item nfts', db.conditionalPush restrictedProtocols nfts key modTxScore = .ok nfts' ∧
      nfts'.collected = nfts.collected ++ [item] ∧ nfts'.lastIncompatible = false ∧
      ShowsHolding (key, modTxScore) item := by
  obtain ⟨depl, found⟩ := Option.isSome_iff_exists.1 registered
  have allowed := unrestricted key.tick depl found
  unfold conditionalPush
  simp only [found, allowed, compatible, Bool.false_eq_true, if_false, not_false_eq_true,
    and_true]
  split
  · exact ⟨_, _, rfl, rfl, compatible, rfl⟩
  · exact ⟨_, _, rfl, rfl, rfl, rfl⟩

/-- The loop collects one row more than the limit, or all of them. -/
theorem addressNfts_collected (unrestricted : db.Unrestricted restrictedProtocols)
    {entries : List (AddressHoldingKey × ℕ)} {nfts : AddressNfts}
    (registered : ∀ entry ∈ entries, (db.collectionRegistry.get entry.1.tick).isSome)
    (compatible : nfts.lastIncompatible = false) (room : nfts.collected.length ≤ limit) :
    ∃ nfts' items, db.addressNfts restrictedProtocols limit nfts entries = .ok nfts' ∧
      nfts'.collected = nfts.collected ++ items ∧
      List.Forall₂ ShowsHolding (entries.take (limit + 1 - nfts.collected.length)) items := by
  induction entries generalizing nfts with
  | nil => exact ⟨nfts, [], rfl, by simp, by simp⟩
  | cons entry entries ih =>
      obtain ⟨key, modTxScore⟩ := entry
      obtain ⟨registeredFirst, registeredRest⟩ := List.forall_mem_cons.1 registered
      obtain ⟨item, next, pushed, collected, nextCompatible, shown⟩ :=
        @conditionalPush_push db restrictedProtocols unrestricted nfts key modTxScore
          registeredFirst compatible
      have length : next.collected.length = nfts.collected.length + 1 := by
        rw [collected, List.length_append, List.length_singleton]
      have taken : (limit + 1 - nfts.collected.length) =
          (limit + 1 - next.collected.length) + 1 := by omega
      simp only [addressNfts, pushed]
      rw [taken, List.take_succ_cons]
      split
      · rename_i below
        obtain ⟨last, items, success, all, others⟩ :=
          ih registeredRest nextCompatible (Nat.lt_succ_iff.1 below)
        refine ⟨last, item :: items, success, ?_, .cons shown others⟩
        rw [all, collected, List.append_assoc, List.singleton_append]
      · rename_i full
        have noMore : limit + 1 - next.collected.length = 0 := by omega
        rw [noMore, List.take_zero]
        exact ⟨next, [item], rfl, collected, .cons shown .nil⟩

theorem addressNftPage_eq (unrestricted : db.Unrestricted restrictedProtocols)
    (registered : ∀ key : AddressHoldingKey, (db.addressHoldings.get key).isSome →
      (db.collectionRegistry.get key.tick).isSome) (offset : Option TickTokenOffset) :
    ∃ page, db.addressNftPage spk restrictedProtocols direction limit offset = .ok page ∧
      List.Forall₂ ShowsHolding ((db.holdingRows spk
        ⟨offset.getD direction.tokenStart, direction, limit⟩).take limit) page.data ∧
      page.nextPageOffset = (db.holdingRows spk
        ⟨offset.getD direction.tokenStart, direction, limit⟩)[limit]?.map fun row =>
          ⟨row.1.tick, row.1.tokenId⟩ := by
  have rows : ∀ entry ∈ db.holdingRows spk
      ⟨offset.getD direction.tokenStart, direction, limit⟩,
      (db.collectionRegistry.get entry.1.tick).isSome := fun entry member =>
    registered entry.1 (by rw [holdingRows_stored member]; rfl)
  obtain ⟨nfts, items, success, collected, shown⟩ := @addressNfts_collected db
    restrictedProtocols limit unrestricted _ {} rows rfl (Nat.zero_le _)
  simp only [List.nil_append, List.length_nil, Nat.sub_zero] at collected shown
  rw [← collected, ← pageEntries_split nfts.collected] at shown
  simp only [addressNftPage, krc721AddressNftList, success, Except.map]
  refine ⟨_, rfl, toPaginated_of_forall₂ shown ?_⟩
  intro row info same
  unfold ShowsHolding AddressNftInfo.token AddressHoldingKey.token at same
  rw [OwnershipKey.mk.injEq] at same
  rw [same.1, same.2]

theorem tickHoldingRows_stored {tick : Tick} {args : IteratorArgs ℕ}
    {entry : AddressHoldingKey × ℕ} (member : entry ∈ db.tickHoldingRows tick spk args) :
    db.addressHoldings.get entry.1 = some entry.2 := by
  unfold tickHoldingRows at member
  split at member
  · exact (Partition.mem_entriesFrom.1 (List.mem_of_mem_filter member)).1
  · exact (Partition.mem_entriesFrom.1 (List.mem_of_mem_filter (List.mem_reverse.1 member))).1

theorem addressNftLookupPage_eq (unrestricted : db.Unrestricted restrictedProtocols)
    (registered : ∀ key : AddressHoldingKey, (db.addressHoldings.get key).isSome →
      (db.collectionRegistry.get key.tick).isSome) {tick : Tick} {offset : Option ℕ}
    (own : ∀ row ∈ db.tickHoldingRows tick spk ⟨offset.getD direction.start, direction, limit⟩,
      row.1.tick = tick) :
    ∃ page, db.addressNftLookupPage spk restrictedProtocols direction limit tick offset = .ok page ∧
      List.Forall₂ ShowsHolding ((db.tickHoldingRows tick spk
        ⟨offset.getD direction.start, direction, limit⟩).take limit) page.data ∧
      page.nextPageOffset = (db.tickHoldingRows tick spk
        ⟨offset.getD direction.start, direction, limit⟩)[limit]?.map fun row => row.1.tokenId := by
  simp only [addressNftLookupPage, krc721AddressNftLookup]
  cases shown : db.shownCollection tick restrictedProtocols with
  | none =>
      -- A collection that is not registered has no rows.
      have noRows : db.tickHoldingRows tick spk
          ⟨offset.getD direction.start, direction, limit⟩ = [] := by
        rw [List.eq_nil_iff_forall_not_mem]
        intro row member
        have present := registered row.1 (by rw [tickHoldingRows_stored member]; rfl)
        rw [own row member] at present
        obtain ⟨entry, found⟩ := Option.isSome_iff_exists.1 present
        simp only [shownCollection, found, unrestricted tick entry found, Bool.false_eq_true,
          if_false] at shown
        cases shown
      rw [noRows, List.take_nil]
      exact ⟨_, rfl, .nil, rfl⟩
  | some dinfo =>
      simp only
      obtain ⟨splitLast, found⟩ := @processIter_total _ _ (db.tickHoldingRows tick spk
        ⟨offset.getD direction.start, direction, limit⟩) (fun entry =>
          .ok (⟨entry.1.tokenId, entry.2, db.tokenListing tick entry.1.tokenId⟩ : NftLookupEntry))
        (fun entry _ => ⟨_, rfl⟩) limit
      have entries := processIter_entries found
      obtain ⟨values, next⟩ := @toPaginated_of_forall₂ _ _ _ limit
        (fun last : NftLookupEntry => last.tokenId)
        (fun row : AddressHoldingKey × ℕ => row.1.tokenId) _ _ _ entries
        (by rintro row value same; cases same; rfl)
      rw [found]
      refine ⟨_, rfl, ?_, next⟩
      rw [List.forall₂_map_right_iff]
      have each : ∀ row ∈ (db.tickHoldingRows tick spk
          ⟨offset.getD direction.start, direction, limit⟩).take limit, row.1.tick = tick :=
        fun row member => own row (List.mem_of_mem_take member)
      refine ((List.forall₂_and_left _ _).2 ⟨each, values⟩).imp ?_
      rintro row value ⟨sameTick, same⟩
      cases same
      unfold ShowsHolding AddressNftInfo.token AddressHoldingKey.token
      rw [sameTick]
      rfl

/-! The rows of a script. -/

def ownHoldings (db : Db) (spk : ScriptPublicKey) : List (AddressHoldingKey × ℕ) :=
  db.addressHoldings.entries.filter fun entry => entry.1.spk = spk

/-- The keys of the holdings are below the ends of the key ranges. -/
def HoldingsFit (db : Db) : Prop :=
  ∀ key, (db.addressHoldings.get key).isSome → key.tick ≤ Tick.MAX ∧ key.tokenId < u64Max

theorem mem_ownHoldings {entry : AddressHoldingKey × ℕ} :
    entry ∈ db.ownHoldings spk ↔
      db.addressHoldings.get entry.1 = some entry.2 ∧ entry.1.spk = spk := by
  rw [ownHoldings, List.mem_filter, decide_eq_true_eq]
  exact and_congr_left fun _ => Partition.mem_entries

theorem ownHoldings_ordered :
    (db.ownHoldings spk).Pairwise fun left right => left.1 < right.1 :=
  (Partition.entries_ordered _).filter _

theorem holdingRows_eq (only : db.OnlyHolder spk) (fit : db.HoldingsFit)
    {offset : TickTokenOffset} (tickLe : offset.tick ≤ Tick.MAX)
    (tokenIdLe : offset.tokenId ≤ u64Max) :
    db.holdingRows spk ⟨offset, direction, limit⟩ =
      direction.rowsFrom (fun row => row.1) (db.ownHoldings spk)
        (some ⟨spk, offset.tick, offset.tokenId⟩) := by
  cases direction with
  | forward =>
      simp only [holdingRows, Direction.rowsFrom, Paging.fromPosition, Partition.entriesFrom,
        ownHoldings, List.filter_filter]
      refine List.filter_congr fun entry member => ?_
      obtain ⟨⟨spk', tick, tokenId⟩, value⟩ := entry
      have present := Partition.isSome_get_of_mem_entries member
      rw [← Bool.decide_and, ← Bool.decide_and, decide_eq_decide]
      constructor
      · rintro ⟨below, above⟩
        exact ⟨above, only _ present (AddressHoldingKey.start_le.trans above) below.le⟩
      · rintro ⟨above, rfl⟩
        obtain ⟨tickLe, tokenIdLt⟩ := fit _ present
        exact ⟨AddressHoldingKey.lt_end tickLe tokenIdLt, above⟩
  | backward =>
      simp only [holdingRows, Direction.rowsFrom, Paging.downFrom, Partition.entriesFrom,
        ownHoldings, List.filter_filter, List.filter_reverse]
      refine congrArg List.reverse (List.filter_congr fun entry member => ?_)
      obtain ⟨⟨spk', tick, tokenId⟩, value⟩ := entry
      have present := Partition.isSome_get_of_mem_entries member
      rw [← Bool.decide_and, ← Bool.decide_and, decide_eq_decide]
      constructor
      · rintro ⟨below, above⟩
        exact ⟨below, only _ present above
          (below.trans (AddressHoldingKey.le_end tickLe tokenIdLe))⟩
      · rintro ⟨below, rfl⟩
        exact ⟨below, AddressHoldingKey.start_le⟩

theorem tickHoldingRows_eq (only : db.OnlyHolder spk) (fit : db.HoldingsFit) {tick : Tick}
    {offset : ℕ} (tickLe : tick ≤ Tick.MAX) (offsetLe : offset ≤ u64Max) :
    db.tickHoldingRows tick spk ⟨offset, direction, limit⟩ =
      direction.rowsFrom (fun row => row.1.tokenId)
        ((db.ownHoldings spk).filter fun row => row.1.tick = tick) (some offset) := by
  cases direction with
  | forward =>
      simp only [tickHoldingRows, Direction.rowsFrom, Paging.fromPosition, Partition.entriesFrom,
        ownHoldings, List.filter_filter]
      refine List.filter_congr fun entry member => ?_
      obtain ⟨⟨spk', tick', tokenId⟩, value⟩ := entry
      have present := Partition.isSome_get_of_mem_entries member
      rw [← Bool.decide_and, ← Bool.decide_and, ← Bool.decide_and, decide_eq_decide]
      constructor
      · rintro ⟨below, above⟩
        obtain rfl : spk' = spk := only _ present (AddressHoldingKey.start_le.trans above)
          (below.le.trans (AddressHoldingKey.le_end tickLe le_rfl))
        obtain ⟨sameTick, low, _⟩ := AddressHoldingKey.between_iff.1 ⟨above, below.le⟩
        exact ⟨low, sameTick, rfl⟩
      · rintro ⟨low, rfl, rfl⟩
        have below := (fit _ present).2
        exact ⟨AddressHoldingKey.lt_iff.2 (.inr ⟨rfl, below⟩),
          (AddressHoldingKey.between_iff.2 ⟨rfl, low, below.le⟩).1⟩
  | backward =>
      simp only [tickHoldingRows, Direction.rowsFrom, Paging.downFrom, Partition.entriesFrom,
        ownHoldings, List.filter_filter, List.filter_reverse]
      refine congrArg List.reverse (List.filter_congr fun entry member => ?_)
      obtain ⟨⟨spk', tick', tokenId⟩, value⟩ := entry
      have present := Partition.isSome_get_of_mem_entries member
      rw [← Bool.decide_and, ← Bool.decide_and, ← Bool.decide_and, decide_eq_decide]
      constructor
      · rintro ⟨below, above⟩
        obtain rfl : spk' = spk := only _ present (AddressHoldingKey.start_le.trans above)
          (below.trans (AddressHoldingKey.le_end tickLe offsetLe))
        obtain ⟨sameTick, _, high⟩ := AddressHoldingKey.between_iff.1 ⟨above, below⟩
        exact ⟨high, sameTick, rfl⟩
      · rintro ⟨high, rfl, rfl⟩
        exact (AddressHoldingKey.between_iff.2 ⟨rfl, Nat.zero_le _, high⟩).symm

/-! Walks over the rows of a script. -/

/-- A walk over rows of one script yields their tokens, each once. -/
theorem yields_of_lists {Offset : Type}
    {fetch : Option Offset → Except ViewError (Pagination AddressNftInfo Offset)}
    {offsetOf : AddressHoldingKey × ℕ → Offset} {asked : Option Offset → Prop}
    {rowsFrom : Option Offset → List (AddressHoldingKey × ℕ)}
    {rows : List (AddressHoldingKey × ℕ)} {tokens : OwnershipKey → Prop}
    (lists : Paging.Lists fetch limit offsetOf ShowsHolding rowsFrom asked) (start : asked none)
    (all : rowsFrom none = direction.arrange rows) (own : ∀ row ∈ rows, row.1.spk = spk)
    (ordered : rows.Pairwise fun left right => left.1 < right.1)
    (held : ∀ token, (∃ row ∈ rows, row.1.token = token) ↔ tokens token) :
    YieldsTokens fetch tokens := by
  obtain ⟨items, follows, shown⟩ := (lists.follows_iff start).2 fun row _ =>
    ⟨⟨row.1.tick, none, row.1.tokenId, 0, tokenStatus none⟩, rfl⟩
  have same := map_token_eq shown
  rw [all] at same
  refine ⟨items, follows, ?_, fun token => ?_⟩
  · have nodup : (rows.map fun row => row.1.token).Nodup := by
      refine List.pairwise_map.2 (ordered.imp_of_mem ?_)
      rintro ⟨⟨spk', tick, tokenId⟩, value⟩ ⟨⟨spk'', tick', tokenId'⟩, value'⟩ left right before
      have sameSpk : spk' = spk'' := (own _ left).trans (own _ right).symm
      rintro sameToken
      simp only [AddressHoldingKey.token, OwnershipKey.mk.injEq] at sameToken
      obtain ⟨rfl, rfl⟩ := sameToken
      subst sameSpk
      exact lt_irrefl _ before
    rw [same]
    cases direction with
    | forward => exact nodup
    | backward =>
        rw [Direction.arrange, List.map_reverse]
        exact List.nodup_reverse.2 nodup
  · rw [same, ← held, List.mem_map]
    simp only [Direction.mem_arrange]

theorem addressNftPage_lists (unrestricted : db.Unrestricted restrictedProtocols)
    (registered : ∀ key : AddressHoldingKey, (db.addressHoldings.get key).isSome →
      (db.collectionRegistry.get key.tick).isSome) (only : db.OnlyHolder spk)
    (fit : db.HoldingsFit) (positive : 0 < limit) :
    Paging.Lists (db.addressNftPage spk restrictedProtocols direction limit) limit
      (fun row => ⟨row.1.tick, row.1.tokenId⟩) ShowsHolding
      (fun offset => direction.rowsFrom (fun row => row.1) (db.ownHoldings spk)
        (some ⟨spk, (offset.getD direction.tokenStart).tick,
          (offset.getD direction.tokenStart).tokenId⟩))
      (fun offset => (offset.getD direction.tokenStart).tick ≤ Tick.MAX ∧
        (offset.getD direction.tokenStart).tokenId ≤ u64Max) where
  positive := positive
  total := by
    intro offset _ _
    obtain ⟨page, success, _⟩ := addressNftPage_eq unrestricted registered offset
    exact ⟨page, success⟩
  page := by
    rintro offset ⟨tickLe, tokenIdLe⟩ page success
    obtain ⟨page', success', spec⟩ := @addressNftPage_eq db spk restrictedProtocols direction limit
      unrestricted registered offset
    rw [success] at success'
    cases success'
    rwa [holdingRows_eq only fit tickLe tokenIdLe] at spec
  resumes := by
    intro offset before row after _ split
    have inRows : row ∈ before ++ row :: after := List.mem_append_right _ List.mem_cons_self
    rw [← split] at inRows
    obtain ⟨stored, own⟩ := mem_ownHoldings.1 (Direction.mem_of_mem_rowsFrom inRows)
    obtain ⟨tickLe, tokenIdLt⟩ := fit row.1 (by rw [stored]; rfl)
    have whole : (⟨spk, row.1.tick, row.1.tokenId⟩ : AddressHoldingKey) = row.1 := by rw [← own]
    refine ⟨⟨tickLe, tokenIdLt.le⟩, ?_⟩
    simp only [Option.getD_some, whole]
    exact Direction.rowsFrom_resumes ownHoldings_ordered split

theorem addressNftLookupPage_lists (unrestricted : db.Unrestricted restrictedProtocols)
    (registered : ∀ key : AddressHoldingKey, (db.addressHoldings.get key).isSome →
      (db.collectionRegistry.get key.tick).isSome) (only : db.OnlyHolder spk)
    (fit : db.HoldingsFit) {tick : Tick} (tickLe : tick ≤ Tick.MAX) (positive : 0 < limit) :
    Paging.Lists (db.addressNftLookupPage spk restrictedProtocols direction limit tick) limit
      (fun row => row.1.tokenId) ShowsHolding
      (fun offset => direction.rowsFrom (fun row => row.1.tokenId)
        ((db.ownHoldings spk).filter fun row => row.1.tick = tick)
        (some (offset.getD direction.start)))
      (fun offset => offset.getD direction.start ≤ u64Max) := by
  have spec {offset : Option ℕ} (offsetLe : offset.getD direction.start ≤ u64Max) :=
    @addressNftLookupPage_eq db spk restrictedProtocols direction limit unrestricted registered
      tick offset (by
        rw [tickHoldingRows_eq only fit tickLe offsetLe]
        intro row member
        have kept := (List.mem_filter.1 (Direction.mem_of_mem_rowsFrom member)).2
        exact of_decide_eq_true kept)
  have ascending : ((db.ownHoldings spk).filter fun row => row.1.tick = tick).Pairwise
      fun left right => left.1.tokenId < right.1.tokenId := by
    refine (ownHoldings_ordered.filter _).imp_of_mem ?_
    rintro ⟨⟨spk', tick', tokenId⟩, value⟩ ⟨⟨spk'', tick'', tokenId'⟩, value'⟩ left right before
    obtain ⟨leftOwn, leftTick⟩ := List.mem_filter.1 left
    obtain ⟨rightOwn, rightTick⟩ := List.mem_filter.1 right
    have sameSpk : spk' = spk'' := (mem_ownHoldings.1 leftOwn).2.trans
      (mem_ownHoldings.1 rightOwn).2.symm
    have sameTick : tick' = tick'' :=
      (of_decide_eq_true leftTick).trans (of_decide_eq_true rightTick).symm
    subst sameSpk sameTick
    simpa [AddressHoldingKey.lt_iff] using before
  constructor
  · exact positive
  · intro offset offsetLe _
    obtain ⟨page, success, _⟩ := spec offsetLe
    exact ⟨page, success⟩
  · intro offset offsetLe page success
    obtain ⟨page', success', shown⟩ := spec offsetLe
    rw [success] at success'
    cases success'
    rwa [tickHoldingRows_eq only fit tickLe offsetLe] at shown
  · intro offset before row after _ split
    have inRows : row ∈ before ++ row :: after := List.mem_append_right _ List.mem_cons_self
    rw [← split] at inRows
    obtain ⟨own, _⟩ := List.mem_filter.1 (Direction.mem_of_mem_rowsFrom inRows)
    have below := (fit row.1 (by rw [(mem_ownHoldings.1 own).1]; rfl)).2
    exact ⟨below.le, Direction.rowsFrom_resumes ascending split⟩

end Db

/-! Exactness. -/

namespace UnforkedReachable

variable {kaspa : Kaspa} {db : Db} {spk : ScriptPublicKey} {restrictedProtocols : List String}

/-- The token ids of the holdings are below the largest one. -/
theorem holding_lt (reachable : UnforkedReachable kaspa db) {key : AddressHoldingKey}
    (present : (db.addressHoldings.get key).isSome) : key.tokenId < u64Max := by
  obtain ⟨bound, replay⟩ := reachable.consistent.replay
  obtain ⟨entry, found⟩ := Option.isSome_iff_exists.1
    (reachable.no_broken_reference.holdingRegistered present)
  obtain ⟨modTxScore, held⟩ := Option.isSome_iff_exists.1 present
  obtain ⟨sound, ids, supply⟩ := replay.wf.deployed found
  have member := @Applied.mem_of_owned db _ _ _ _ ⟨key.tick, key.tokenId⟩ _ replay.wf supply
    (replay.wf.owned.holdings.1 held)
  exact (supply.mem_bounds sound.premint_le member).2.trans_lt sound.max_lt

theorem owns_iff (reachable : UnforkedReachable kaspa db) {token : OwnershipKey} :
    (∃ row ∈ db.ownHoldings spk, row.1.token = token) ↔ db.Owns spk token := by
  have held {modTxScore : ℕ} := @OwnershipAgrees.held _ _ _
    (reachable.ownership token.tick token.tokenId) spk modTxScore
  constructor
  · rintro ⟨⟨⟨spk', tick, tokenId⟩, modTxScore⟩, member, rfl⟩
    obtain ⟨stored, rfl⟩ := Db.mem_ownHoldings.1 member
    exact ⟨modTxScore, held.1 stored⟩
  · rintro ⟨modTxScore, owned⟩
    exact ⟨(⟨spk, token.tick, token.tokenId⟩, modTxScore),
      Db.mem_ownHoldings.2 ⟨held.2 owned, rfl⟩, rfl⟩

/-- The first page with a limit above the number of rows shows the whole key range. -/
theorem onlyHolder_of_yields (reachable : UnforkedReachable kaspa db)
    (unrestricted : db.Unrestricted restrictedProtocols)
    (yields : ∀ limit, 0 < limit →
      YieldsTokens (db.addressNftPage spk restrictedProtocols .forward limit) (db.Owns spk)) :
    db.OnlyHolder spk := by
  intro key present above below
  by_contra foreign
  obtain ⟨modTxScore, stored⟩ := Option.isSome_iff_exists.1 present
  have inside : key < ⟨spk, Tick.MAX, u64Max⟩ :=
    lt_of_le_of_ne below fun same => foreign (by rw [same])
  have member : (key, modTxScore) ∈ db.holdingRows spk ⟨⟨Tick.MIN, 0⟩, .forward,
      db.addressHoldings.entries.length + 1⟩ :=
    List.mem_filter.2 ⟨Partition.mem_entriesFrom.2 ⟨stored, above⟩, decide_eq_true inside⟩
  have short : (db.holdingRows spk ⟨⟨Tick.MIN, 0⟩, .forward,
      db.addressHoldings.entries.length + 1⟩).length ≤ db.addressHoldings.entries.length :=
    (List.length_filter_le _ _).trans (List.length_filter_le _ _)
  obtain ⟨page, success, shown, next⟩ := @Db.addressNftPage_eq db spk restrictedProtocols .forward
    (db.addressHoldings.entries.length + 1) unrestricted
    (fun key => @NoBrokenReference.holdingRegistered _ _ reachable.no_broken_reference
      key.spk key.tick key.tokenId) none
  simp only [Option.getD_none, Direction.tokenStart] at shown next
  rw [List.take_of_length_le (short.trans (Nat.le_succ _))] at shown
  rw [List.getElem?_eq_none (short.trans (Nat.le_succ _)), Option.map_none] at next
  obtain ⟨items, follows, _, exact⟩ := yields _ (Nat.succ_pos _)
  obtain ⟨data, nextPageOffset⟩ := page
  simp only at next shown
  subst next
  have same : items = data := follows.unique (.last success)
  subst same
  have listed : key.token ∈ items.map AddressNftInfo.token := by
    rw [map_token_eq shown]
    exact List.mem_map.2 ⟨_, member, rfl⟩
  obtain ⟨score, owned⟩ := (exact key.token).1 listed
  have held := (reachable.ownership key.tick key.tokenId).held.1 stored
  rw [AddressHoldingKey.token] at owned
  rw [owned] at held
  cases held
  exact foreign rfl

/-- In every reachable database both views of a script are exact if and only if no row of another
script is in its key range. -/
theorem addressViews_exact_iff (reachable : UnforkedReachable kaspa db)
    (unrestricted : db.Unrestricted restrictedProtocols)
    (ticks : ∀ key, (db.addressHoldings.get key).isSome → key.tick ≤ Tick.MAX) :
    AddressViewsExact db spk restrictedProtocols ↔ db.OnlyHolder spk := by
  have registered (key : AddressHoldingKey) := @NoBrokenReference.holdingRegistered _ _
    reachable.no_broken_reference key.spk key.tick key.tokenId
  have fit : db.HoldingsFit := fun key present => ⟨ticks key present, reachable.holding_lt present⟩
  constructor
  · intro views
    exact reachable.onlyHolder_of_yields unrestricted (views.list .forward)
  · intro only
    have own : ∀ row ∈ db.ownHoldings spk, row.1.spk = spk :=
      fun row member => (Db.mem_ownHoldings.1 member).2
    constructor
    · intro direction limit positive
      refine Db.yields_of_lists (Db.addressNftPage_lists unrestricted registered only fit positive)
        ?_ (Direction.rowsFrom_eq_arrange ?_) own Db.ownHoldings_ordered fun token =>
          reachable.owns_iff
      · cases direction with
        | forward => exact ⟨Tick.min_le _, Nat.zero_le _⟩
        | backward => exact ⟨le_rfl, le_rfl⟩
      · intro row member
        obtain ⟨stored, rfl⟩ := Db.mem_ownHoldings.1 member
        obtain ⟨tickLe, tokenIdLt⟩ := fit row.1 (by rw [stored]; rfl)
        cases direction with
        | forward => exact AddressHoldingKey.start_le
        | backward => exact AddressHoldingKey.le_end tickLe tokenIdLt.le
    · intro tick direction limit tickLe positive
      refine Db.yields_of_lists (Db.addressNftLookupPage_lists unrestricted registered only fit
        tickLe positive) ?_ (Direction.rowsFrom_eq_arrange ?_)
          (fun row member => own row (List.mem_of_mem_filter member))
          (Db.ownHoldings_ordered.filter _) fun token => ?_
      · cases direction with
        | forward => exact Nat.zero_le _
        | backward => exact le_rfl
      · intro row member
        have stored := (Db.mem_ownHoldings.1 (List.mem_of_mem_filter member)).1
        have below := (fit row.1 (by rw [stored]; rfl)).2
        cases direction with
        | forward => exact Nat.zero_le _
        | backward => exact below.le
      · rw [← reachable.owns_iff]
        constructor
        · rintro ⟨row, member, rfl⟩
          obtain ⟨isOwn, sameTick⟩ := List.mem_filter.1 member
          exact ⟨of_decide_eq_true sameTick, row, isOwn, rfl⟩
        · rintro ⟨sameTick, row, isOwn, rfl⟩
          exact ⟨row, List.mem_filter.2 ⟨isOwn, decide_eq_true sameTick⟩, rfl⟩

end UnforkedReachable

/-- Among address scripts no key range holds a row of another script. -/
theorem Db.onlyHolder_of_addresses {db : Db} {spk : ScriptPublicKey} (address : spk.IsAddress)
    (holders : ∀ key, (db.addressHoldings.get key).isSome → key.spk.IsAddress) :
    db.OnlyHolder spk :=
  fun key present above below =>
    AddressHoldingKey.spk_eq_of_between (holders key present) address above below

theorem Sample.oddSold_unrestricted : oddSold.Unrestricted ["ipfs"] := by
  have rows : ∀ entry ∈ oddSold.collectionRegistry.entries,
      entry.2.info.hasIncompatibleUriPrefix ["ipfs"] = false := by
    decide +kernel
  exact fun tick entry found => rows (tick, entry) (Partition.mem_entries.2 found)

theorem UnforkedReachable.addressViews_exact_iff_oddSold :
    AddressViewsExact Sample.oddSold Sample.alice ["ipfs"] ↔
      Sample.oddSold.OnlyHolder Sample.alice :=
  UnforkedReachable.addressViews_exact_iff Sample.oddSold_run.unforkedReachable
    Sample.oddSold_unrestricted (Sample.forall_get_of_entries (by decide +kernel))

/-- The token of the odd buyer is listed as one of bob's. -/
theorem not_addressViews_exact_oddSold :
    UnforkedDetectedRun Sample.crates Sample.analyzer
        {Sample.deployment, Sample.listing, Sample.oddSale} Sample.oddSold ∧
      Sample.bob.IsAddress ∧ ¬ Sample.oddSold.Owns Sample.bob Sample.offerKey ∧
      ¬ AddressViewsExact Sample.oddSold Sample.bob ["ipfs"] := by
  have different : Sample.oddBuyer ≠ Sample.bob := by decide
  refine ⟨Sample.oddSold_run, .pubKey _ List.length_replicate, ?_, fun views => ?_⟩
  · rintro ⟨modTxScore, owned⟩
    rw [Sample.oddSold_owner] at owned
    cases owned
  · have stored : (Sample.oddSold.addressHoldings.get
        ⟨Sample.oddBuyer, Sample.tick, 1⟩).isSome := by
      decide +kernel
    have only := Sample.oddSold_run.unforkedReachable.onlyHolder_of_yields
      Sample.oddSold_unrestricted (views.list .forward)
    exact different (only _ stored (by decide +kernel) (by decide +kernel))

end Krc721
