import Krc721.Accessor.AddressViews

/-! The metadata and the filter in the list of the tokens of an address. The scan remembers the
last collection it looked up; what it starts with is the default collection, and its tick is one
that can be deployed. -/

set_option autoImplicit false

namespace Krc721

open OrderedStore

theorem Replay.registered_tick {kaspa : Kaspa} {bound : ℕ} {ledger : Ledger}
    (replay : Replay kaspa bound ledger) {tick : Tick} {entry : ScoredDeployInfoWithCommon}
    (found : ledger.collectionRegistry.get tick = some entry) : entry.info.common.tick = tick := by
  induction replay with
  | empty => simp at found
  | step earlier reached le sound fresh applied ih =>
      cases applied with
      | deployed info kind free =>
          simp only [Db.recordOperation, Partition.get_insert] at found
          split at found
          · cases found
            assumption
          · exact ih found
      | _ => exact ih found

namespace Db

variable {db : Db} {spk : ScriptPublicKey} {restrictedProtocols : List String}
  {direction : Direction} {limit : ℕ} {nfts : AddressNfts}

/-- What the list shows of a row whose collection is not restricted. -/
def shownNft (db : Db) (restrictedProtocols : List String) (row : AddressHoldingKey × ℕ) :
    Option AddressNftInfo :=
  (db.shownCollection row.1.tick restrictedProtocols).map fun entry =>
    { tick := row.1.tick
      tickMetadata := some entry.info.info.metadata
      tokenId := row.1.tokenId
      opScoreModified := row.2
      status := tokenStatus (db.tokenListing row.1.tick row.1.tokenId) }

/-- A page shows the rows of the scan whose collections are not restricted, with the metadata of
the collections. -/
def ListsShown (db : Db) (spk : ScriptPublicKey) (restrictedProtocols : List String)
    (direction : Direction) (limit : ℕ) (offset : Option TickTokenOffset) : Prop :=
  ∃ page, db.addressNftPage spk restrictedProtocols direction limit offset = .ok page ∧
    page.data = ((db.holdingRows spk ⟨offset.getD direction.tokenStart, direction,
      limit⟩).filterMap (db.shownNft restrictedProtocols)).take limit

/-- What is remembered of a collection is what is registered. -/
def Remembers (db : Db) (restrictedProtocols : List String) (nfts : AddressNfts) : Prop :=
  ∀ entry, db.collectionRegistry.get nfts.lastTickInfo.common.tick = some entry →
    nfts.lastTickInfo.info.metadata = entry.info.info.metadata ∧
      nfts.lastIncompatible = entry.info.hasIncompatibleUriPrefix restrictedProtocols

def Registered (db : Db) (rows : List (AddressHoldingKey × ℕ)) : Prop :=
  ∀ row ∈ rows, ∃ entry, db.collectionRegistry.get row.1.tick = some entry ∧
    entry.info.common.tick = row.1.tick

/-- One row, when what is remembered of its collection is right or nothing is remembered of it. -/
theorem conditionalPush_shown {key : AddressHoldingKey} {modTxScore : ℕ}
    {entry : ScoredDeployInfoWithCommon} (found : db.collectionRegistry.get key.tick = some entry)
    (own : entry.info.common.tick = key.tick)
    (known : db.Remembers restrictedProtocols nfts ∨ nfts.lastTickInfo.common.tick ≠ key.tick) :
    ∃ nfts', db.conditionalPush restrictedProtocols nfts key modTxScore = .ok nfts' ∧
      db.Remembers restrictedProtocols nfts' ∧ nfts'.collected =
        nfts.collected ++ (db.shownNft restrictedProtocols (key, modTxScore)).toList := by
  unfold conditionalPush
  simp only [shownNft, shownCollection, found]
  by_cases same : nfts.lastTickInfo.common.tick = key.tick
  · have remembers := known.resolve_right (not_not_intro same)
    obtain ⟨metadata, incompatible⟩ := remembers entry (by rw [same, found])
    rw [← incompatible]
    cases restricted : nfts.lastIncompatible with
    | false =>
        simp only [same, Bool.false_eq_true, not_false_eq_true, and_self, if_true, if_false]
        refine ⟨_, rfl, remembers, ?_⟩
        rw [AddressNfts.push, metadata]
        rfl
    | true =>
        simp only [same, not_true_eq_false, and_false, ne_eq, if_false, if_true]
        exact ⟨nfts, rfl, remembers, (List.append_nil _).symm⟩
  · simp only [same, false_and, if_false, ne_eq, not_false_eq_true, if_true]
    cases incompatible : entry.info.hasIncompatibleUriPrefix restrictedProtocols with
    | false =>
        refine ⟨_, rfl, fun other registered => ?_, rfl⟩
        simp only [AddressNfts.push, own, found, Option.some.injEq] at registered
        subst registered
        exact ⟨rfl, incompatible.symm⟩
    | true =>
        refine ⟨_, rfl, fun other registered => ?_, (List.append_nil _).symm⟩
        simp only [own, found, Option.some.injEq] at registered
        subst registered
        exact ⟨rfl, incompatible.symm⟩

/-- The loop collects the shown rows, up to one more than the limit. -/
theorem addressNfts_shown {rows : List (AddressHoldingKey × ℕ)} (registered : db.Registered rows)
    (known : db.Remembers restrictedProtocols nfts ∨
      ∀ row ∈ rows.head?, nfts.lastTickInfo.common.tick ≠ row.1.tick)
    (room : nfts.collected.length ≤ limit) :
    ∃ nfts', db.addressNfts restrictedProtocols limit nfts rows = .ok nfts' ∧
      nfts'.collected = nfts.collected ++
        (rows.filterMap (db.shownNft restrictedProtocols)).take
          (limit + 1 - nfts.collected.length) := by
  induction rows generalizing nfts with
  | nil => exact ⟨nfts, rfl, by simp⟩
  | cons row rows ih =>
      obtain ⟨⟨entry, found, own⟩, others⟩ := List.forall_mem_cons.1 registered
      obtain ⟨next, pushed, remembers, collected⟩ := @conditionalPush_shown db restrictedProtocols
        nfts row.1 row.2 entry found own (known.imp_right fun first => first row rfl)
      simp only [addressNfts, pushed, List.filterMap_cons]
      cases shown : db.shownNft restrictedProtocols row with
      | none =>
          rw [shown, Option.toList_none, List.append_nil] at collected
          rw [collected, if_pos (Nat.lt_succ_of_le room)]
          obtain ⟨last, success, all⟩ := ih others (.inl remembers) (by rwa [collected])
          exact ⟨last, success, by rw [all, collected]⟩
      | some item =>
          rw [shown, Option.toList_some] at collected
          have length : next.collected.length = nfts.collected.length + 1 := by
            rw [collected, List.length_append, List.length_singleton]
          have taken : limit + 1 - nfts.collected.length =
              (limit + 1 - next.collected.length) + 1 := by omega
          simp only [taken, List.take_succ_cons]
          split
          · rename_i below
            obtain ⟨last, success, all⟩ :=
              ih others (.inl remembers) (Nat.le_of_lt_succ below)
            refine ⟨last, success, ?_⟩
            rw [all, collected, List.append_assoc, List.singleton_append]
          · rename_i full
            have noMore : limit + 1 - next.collected.length = 0 := by omega
            rw [noMore, List.take_zero]
            exact ⟨next, rfl, collected⟩

theorem conditionalPush_collected {key : AddressHoldingKey} {modTxScore : ℕ} {next : AddressNfts}
    (pushed : db.conditionalPush restrictedProtocols nfts key modTxScore = .ok next) :
    ∃ item : Option AddressNftInfo, next.collected = nfts.collected ++ item.toList := by
  unfold conditionalPush at pushed
  simp only at pushed
  split at pushed
  · cases pushed
    exact ⟨some _, rfl⟩
  · split at pushed
    · split at pushed
      · cases pushed
      · split at pushed
        · cases pushed
          exact ⟨none, (List.append_nil _).symm⟩
        · cases pushed
          exact ⟨some _, rfl⟩
    · cases pushed
      exact ⟨none, (List.append_nil _).symm⟩

/-- The loop adds to what it has collected, up to one more than the limit. -/
theorem addressNfts_grows {rows : List (AddressHoldingKey × ℕ)} {last : AddressNfts}
    (success : db.addressNfts restrictedProtocols limit nfts rows = .ok last) :
    nfts.collected <+: last.collected ∧
      (nfts.collected.length ≤ limit → last.collected.length ≤ limit + 1) := by
  induction rows generalizing nfts with
  | nil =>
      cases success
      exact ⟨List.prefix_rfl, Nat.le_succ_of_le⟩
  | cons row rows ih =>
      rw [addressNfts] at success
      split at success
      · cases success
      · rename_i next pushed
        obtain ⟨item, collected⟩ := conditionalPush_collected pushed
        have first : nfts.collected <+: next.collected := by
          rw [collected]
          exact List.prefix_append _ _
        split at success
        · rename_i below
          obtain ⟨rest, bound⟩ := ih success
          exact ⟨first.trans rest, fun _ => bound (Nat.le_of_lt_succ below)⟩
        · cases success
          refine ⟨first, fun room => ?_⟩
          have single := Option.length_toList_le (o := item)
          rw [collected, List.length_append]
          omega

theorem shownNft_eq_some {row : AddressHoldingKey × ℕ} {info : AddressNftInfo}
    (shown : db.shownNft restrictedProtocols row = some info) :
    ∃ entry, db.collectionRegistry.get info.tick = some entry ∧
      entry.info.hasIncompatibleUriPrefix restrictedProtocols = false ∧
        info.tickMetadata = some entry.info.info.metadata := by
  unfold shownNft shownCollection at shown
  cases found : db.collectionRegistry.get row.1.tick with
  | none => simp [found] at shown
  | some entry =>
      cases incompatible : entry.info.hasIncompatibleUriPrefix restrictedProtocols with
      | true => simp [found, incompatible] at shown
      | false =>
          simp only [found, incompatible, Bool.false_eq_true, if_false, Option.map_some,
            Option.some.injEq] at shown
          subst shown
          exact ⟨entry, found, incompatible, rfl⟩

/-- The first row of the scan is not of the tick that the scan starts to remember, or its
collection is like the default one. -/
def StartsRight (db : Db) (spk : ScriptPublicKey) (restrictedProtocols : List String)
    (direction : Direction) (limit : ℕ) (offset : Option TickTokenOffset) : Prop :=
  limit = 0 ∨ ∀ row, (db.holdingRows spk ⟨offset.getD direction.tokenStart, direction,
    limit⟩).head? = some row → row.1.tick = Tick.MIN →
      ∀ entry, db.collectionRegistry.get Tick.MIN = some entry →
        entry.info.info.metadata = .remote "" ∧
          entry.info.hasIncompatibleUriPrefix restrictedProtocols = false

theorem addressNftPage_data {offset : Option TickTokenOffset} {last : AddressNfts}
    (success : db.addressNfts restrictedProtocols limit {} (db.holdingRows spk
      ⟨offset.getD direction.tokenStart, direction, limit⟩) = .ok last) :
    ∃ page, db.addressNftPage spk restrictedProtocols direction limit offset = .ok page ∧
      page.data = last.collected.take limit := by
  have bound := (addressNfts_grows success).2 (Nat.zero_le _)
  rw [← pageEntries_split last.collected] at bound
  simp only [addressNftPage, krc721AddressNftList, success, Except.map]
  refine ⟨_, rfl, ?_⟩
  rw [toPaginated_eq bound, pageEntries_split]

/-- The page is right if and only if the scan starts right. -/
theorem listsShown_iff {offset : Option TickTokenOffset}
    (registered : db.Registered (db.holdingRows spk
      ⟨offset.getD direction.tokenStart, direction, limit⟩)) :
    db.ListsShown spk restrictedProtocols direction limit offset ↔
      db.StartsRight spk restrictedProtocols direction limit offset := by
  obtain ⟨last, success⟩ := @addressNfts_ok db restrictedProtocols limit _ {} fun row member => by
    obtain ⟨entry, found, _⟩ := registered row member
    rw [found]
    rfl
  obtain ⟨page, isPage, data⟩ := addressNftPage_data success
  constructor
  · rintro ⟨page', isPage', shown⟩
    rw [isPage] at isPage'
    cases isPage'
    refine or_iff_not_imp_left.2 fun positive row first atMin entry found => ?_
    obtain ⟨rest, split⟩ := List.head?_eq_some_iff.1 first
    rw [split, addressNfts] at success
    have pushed : db.conditionalPush restrictedProtocols {} row.1 row.2 =
        .ok (({} : AddressNfts).push db default row.1 row.2) := by
      rw [conditionalPush, if_pos ⟨atMin.symm, by simp⟩]
    have isFirst : (({} : AddressNfts).push db default row.1 row.2).collected <+:
        last.collected := by
      simp only [pushed] at success
      split at success
      · exact (addressNfts_grows success).1
      · cases success
        exact List.prefix_rfl
    obtain ⟨others, collected⟩ := isFirst
    obtain ⟨room, positive'⟩ := Nat.exists_eq_succ_of_ne_zero positive
    rw [data, ← collected, positive', AddressNfts.push, List.nil_append, List.singleton_append,
      List.take_succ_cons] at shown
    have member := List.mem_of_mem_take (shown ▸ List.mem_cons_self)
    obtain ⟨other, _, isShown⟩ := List.mem_filterMap.1 member
    obtain ⟨entry', found', compatible, metadata⟩ := shownNft_eq_some isShown
    simp only [atMin, found, Option.some.injEq] at found' metadata
    subst found'
    exact ⟨metadata.symm, compatible⟩
  · intro starts
    refine ⟨page, isPage, ?_⟩
    rw [data]
    rcases starts with rfl | starts
    · rw [List.take_zero, List.take_zero]
    · have known : db.Remembers restrictedProtocols {} ∨
          ∀ row ∈ (db.holdingRows spk
            ⟨offset.getD direction.tokenStart, direction, limit⟩).head?,
              Tick.MIN ≠ row.1.tick := by
        refine or_iff_not_imp_right.2 fun notOther entry found => ?_
        push Not at notOther
        obtain ⟨row, first, atMin⟩ := notOther
        obtain ⟨metadata, compatible⟩ := starts row first atMin.symm entry found
        exact ⟨metadata.symm, compatible.symm⟩
      obtain ⟨last', success', collected⟩ :=
        @addressNfts_shown db restrictedProtocols limit _ _ registered known (Nat.zero_le _)
      rw [success] at success'
      cases success'
      simp only [List.nil_append, List.length_nil, Nat.sub_zero] at collected
      rw [collected, List.take_take, min_eq_left (Nat.le_succ limit)]

end Db

/-- In every reachable database a page of the tokens of an address shows the rows of unrestricted
collections, with their metadata, if and only if its scan starts right. -/
theorem UnforkedReachable.tickMetadata_iff {kaspa : Kaspa} {db : Db}
    (reachable : UnforkedReachable kaspa db)
    (spk : ScriptPublicKey) (restrictedProtocols : List String) (direction : Direction)
    (limit : ℕ) (offset : Option TickTokenOffset) :
    db.ListsShown spk restrictedProtocols direction limit offset ↔
      db.StartsRight spk restrictedProtocols direction limit offset := by
  refine Db.listsShown_iff fun row member => ?_
  obtain ⟨bound, replay⟩ := reachable.consistent.replay
  obtain ⟨entry, found⟩ := Option.isSome_iff_exists.1
    (@NoBrokenReference.holdingRegistered _ _ reachable.no_broken_reference row.1.spk row.1.tick
      row.1.tokenId (by rw [Db.holdingRows_stored member]; rfl))
  exact ⟨entry, found, replay.registered_tick found⟩

namespace Sample

/-- Alice deploys the tick `0` with one preminted token. -/
def zeroBlock : Mergeset where
  operations := [⟨0, 0, ⟨⟨Tick.MIN, 1, 0, alice, 0, 0⟩,
    .deploy ⟨.remote "ipfs", 3, alice, none, 0, 1⟩⟩⟩]
  entropy := 5
  blueScore := 1
  acceptedChainBlockHash := 101

theorem zeroBlock_admissible : Admissible kaspa .new [zeroBlock] where
  valid := by decide
  ascending := by decide
  unforked := .new _

def zeroDeployed : Db := added .new [zeroBlock]

theorem zeroDeployed_reachable : UnforkedReachable kaspa zeroDeployed :=
  added_reachable .new zeroBlock_admissible

end Sample

theorem UnforkedReachable.tickMetadata_iff_sale :
    Sample.sold.ListsShown Sample.bob ["ipfs"] .forward 2 none ↔
      Sample.sold.StartsRight Sample.bob ["ipfs"] .forward 2 none :=
  UnforkedReachable.tickMetadata_iff Sample.sold_reachable _ _ _ _ _

/-- The first token of the collection `0` is shown with an empty URI. -/
theorem not_listsShown_zero :
    UnforkedReachable Sample.kaspa Sample.zeroDeployed ∧
      ¬ Sample.zeroDeployed.ListsShown Sample.alice ["ipfs"] .forward 2 none := by
  refine ⟨Sample.zeroDeployed_reachable, ?_⟩
  rintro ⟨page, success, shown⟩
  have listed : (Sample.zeroDeployed.addressNftPage Sample.alice ["ipfs"] .forward 2 none).map
      (fun page => page.data.map (·.tickMetadata)) = .ok [some (.remote "")] := by
    decide +kernel
  have expected : (((Sample.zeroDeployed.holdingRows Sample.alice
      ⟨⟨Tick.MIN, 0⟩, .forward, 2⟩).filterMap
        (Sample.zeroDeployed.shownNft ["ipfs"])).take 2).map (·.tickMetadata) =
          [some (.remote "ipfs")] := by
    decide +kernel
  rw [success, Except.map, shown] at listed
  have same := expected.symm.trans (Except.ok.inj listed)
  exact absurd same (by decide)

end Krc721
