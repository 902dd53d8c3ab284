import Krc721.Processor.Reachability

/-! What holds in every database reached without a fork: the supply of each collection, and the
agreement of the ownership partitions. -/

set_option autoImplicit false

namespace Krc721

open OrderedStore

/-! A database that is reached by the sample chain. -/

namespace Sample

/-- The database after a batch; a fault leaves it as it was. -/
def added (db : Db) (mergesets : List Mergeset) : Db :=
  match processAdditions kaspa db mergesets with
  | .ok (db, _) => db
  | .error _ => db

theorem processAdditions_added {db : Db} {mergesets : List Mergeset}
    (reachable : UnforkedReachable kaspa db) (admissible : Admissible kaspa db mergesets) :
    ∃ diff, processAdditions kaspa db mergesets = .ok (added db mergesets, diff) := by
  obtain ⟨db', diff, success, _⟩ := reachable.consistent.processAdditions admissible
  simp only [added, success]
  exact ⟨diff, rfl⟩

theorem added_reachable {db : Db} {mergesets : List Mergeset}
    (reachable : UnforkedReachable kaspa db) (admissible : Admissible kaspa db mergesets) :
    UnforkedReachable kaspa (added db mergesets) := by
  obtain ⟨diff, success⟩ := processAdditions_added reachable admissible
  exact .addition reachable admissible.toBatch admissible.unforked success

/-- The database after a rollback; a fault leaves it as it was. -/
def removed (db : Db) (blocks : List RpcHash) : Db :=
  match processRemoval kaspa db blocks none with
  | .ok (db, _) => db
  | .error _ => db

theorem removed_reachable {db : Db} (reachable : UnforkedReachable kaspa db)
    (blocks : List RpcHash) : UnforkedReachable kaspa (removed db blocks) := by
  obtain ⟨db', diff, success, _⟩ := reachable.consistent.processRemoval blocks none
  simp only [removed, success]
  exact .removal reachable trivial success

theorem chain_admissible : Admissible kaspa .new [deployBlock, saleBlock] where
  valid := chain_valid.valid
  ascending := chain_valid.ascending
  unforked := .new _

/-- The database after the deployment and the sale. -/
def sold : Db := added .new [deployBlock, saleBlock]

theorem sold_reachable : UnforkedReachable kaspa sold := added_reachable .new chain_admissible

/-- The database after steps; a fault leaves it empty. -/
def reached (steps : List ChainStep) : Db :=
  match takeSteps kaspa .new steps with
  | .ok db => db
  | .error _ => .new

theorem reached_run {adds : List Mergeset → Prop} {steps : List ChainStep}
    (given : ∀ step ∈ steps, step.Adds fun mergesets => Batch kaspa mergesets ∧ adds mergesets)
    (succeeds : (takeSteps kaspa .new steps).toOption.isSome = true) :
    GuardedRun kaspa (fun _ mergesets => adds mergesets) (fun _ _ _ => True) (reached steps) := by
  obtain ⟨db, success⟩ := Option.isSome_iff_exists.1 succeeds
  cases taken : takeSteps kaspa .new steps with
  | error fault =>
      rw [taken] at success
      cases success
  | ok db =>
      simp only [reached, taken]
      exact GuardedRun.takeSteps .new given taken

theorem reached_reachable {steps : List ChainStep}
    (given : ∀ step ∈ steps, step.Adds fun mergesets => Batch kaspa mergesets ∧ True)
    (succeeds : (takeSteps kaspa .new steps).toOption.isSome = true) :
    Reachable kaspa (reached steps) :=
  reached_run given succeeds

/-- A mergeset of one merged block. -/
def block (blueScore hash entropy : ℕ) (operations : List Operation) : Mergeset where
  operations := operations.mapIdx fun index operation => ⟨0, index, operation⟩
  entropy := entropy
  blueScore := blueScore
  acceptedChainBlockHash := hash

/-- Alice deploys. -/
def deploys (txId max premint : ℕ) : Operation :=
  operation txId alice (.deploy ⟨.remote "ipfs", max, alice, none, 0, premint⟩)

/-- Bob mints. -/
def mints (txId : TransactionId) : Operation := operation txId bob (.mint ⟨0, bob, none⟩)

/-- Alice mints, then bob mints in two blocks of one blue score, and both blocks are removed. -/
def forkedMints : List ChainStep := [
  .add [block 1 101 0 [deploys 1 4 0]],
  .add [block 2 102 0 [operation 2 alice (.mint ⟨0, alice, none⟩)]],
  .add [block 3 301 1 [mints 3]],
  .add [block 3 302 0 [mints 4]],
  .remove [301, 302]]

theorem forkedMints_reachable : Reachable kaspa (reached forkedMints) :=
  reached_reachable (by decide) (by decide +kernel)

end Sample

/-! Supply. -/

/-- A token id of a tick has a mint row. -/
def OwnershipStore.Minted (store : OwnershipStore) (tick : Tick) (tokenId : ℕ) : Prop :=
  ∃ reversedSeq score, (store.mintHistory.get ⟨tick, reversedSeq, tokenId, score⟩).isSome

/-- A token id of a tick lies in one of its range rows. -/
def RangeStore.Available (store : RangeStore) (tick : Tick) (tokenId : ℕ) : Prop :=
  ∃ index start size, store.availableRanges.get ⟨tick, index⟩ = some (start, size) ∧
    start ≤ tokenId ∧ tokenId < start + size

/-- The mint rows of a collection with `count` mints. -/
structure MintRows (store : OwnershipStore) (tick : Tick) (max premint count : ℕ) : Prop where
  bounded : count ≤ max
  numbered : ∀ {reversedSeq tokenId score},
    (store.mintHistory.get ⟨tick, reversedSeq, tokenId, score⟩).isSome →
      ∃ seq, 1 ≤ seq ∧ seq ≤ count ∧ reversedSeq = u64Max - seq
  complete : ∀ {seq}, 1 ≤ seq → seq ≤ count →
    ∃! row : ℕ × ℕ, (store.mintHistory.get (.withSeq tick seq row.1 row.2)).isSome
  distinct : ∀ {tokenId reversedSeq reversedSeq' score score'},
    (store.mintHistory.get ⟨tick, reversedSeq, tokenId, score⟩).isSome →
    (store.mintHistory.get ⟨tick, reversedSeq', tokenId, score'⟩).isSome →
      reversedSeq = reversedSeq' ∧ score = score'
  within : ∀ {tokenId}, store.Minted tick tokenId → 1 ≤ tokenId ∧ tokenId ≤ max
  preminted : ∀ {seq}, 1 ≤ seq → seq ≤ min count premint →
    ∃ score, (store.mintHistory.get (.withSeq tick seq seq score)).isSome
  drawn : ∀ {seq tokenId score}, premint < seq → seq ≤ count →
    (store.mintHistory.get (.withSeq tick seq tokenId score)).isSome → premint < tokenId

/-- The range rows of a collection, once the range list exists: at the indices below its length,
non-empty, disjoint, and with the minted ids a partition of the ids above the premint. -/
structure RangeRows (owned : OwnershipStore) (ranges : RangeStore) (tick : Tick)
    (max premint length : ℕ) : Prop where
  indices : ∀ index, (ranges.availableRanges.get ⟨tick, index⟩).isSome ↔ index < length
  nonempty : ∀ {index start size},
    ranges.availableRanges.get ⟨tick, index⟩ = some (start, size) → 0 < size
  disjoint : ∀ {index index' start start' size size'}, index ≠ index' →
    ranges.availableRanges.get ⟨tick, index⟩ = some (start, size) →
    ranges.availableRanges.get ⟨tick, index'⟩ = some (start', size') →
      start + size ≤ start' ∨ start' + size' ≤ start
  covering : ∀ tokenId, premint < tokenId ∧ tokenId ≤ max ↔
    ranges.Available tick tokenId ∨ premint < tokenId ∧ owned.Minted tick tokenId
  exclusive : ∀ {tokenId}, ranges.Available tick tokenId → ¬ owned.Minted tick tokenId

/-- The supply of every collection, and no fault in anything that can follow. -/
structure SupplyInvariant (kaspa : Kaspa) (db : Db) : Prop where
  mints : ∀ {tick entry}, db.collectionRegistry.get tick = some entry →
    ∃ count, MintRows db.toOwnershipStore tick entry.info.info.max entry.info.info.premint count
  ranges : ∀ {tick entry length}, db.collectionRegistry.get tick = some entry →
    db.rangeLengths.get tick = some length → RangeRows db.toOwnershipStore db.toRangeStore tick
      entry.info.info.max entry.info.info.premint length
  generates : ∀ {tick entry count}, db.collectionRegistry.get tick = some entry →
    MintRows db.toOwnershipStore tick entry.info.info.max entry.info.info.premint count →
      entry.info.info.premint ≤ count → count < entry.info.info.max → ∀ mergesetEntropy,
        ∃ ranges tokenId, db.generateTokenId tick mergesetEntropy entry.info.info.max
          entry.info.info.premint = .ok (ranges, tokenId) ∧ ¬ db.Minted tick tokenId
  additions : ∀ {mergesets}, Batch kaspa mergesets → db.Unforked mergesets →
    ∃ db' diff, processAdditions kaspa db mergesets = .ok (db', diff)
  removals : ∀ removed forced, ∃ db' diff,
    processRemoval kaspa db removed forced = .ok (db', diff)

section Supply

variable {owned : OwnershipStore} {ranges : RangeStore} {tick : Tick}
variable {max premint : ℕ} {ids : List ℕ}

theorem Supply.minted_iff (supply : Supply owned ranges tick max premint ids) {tokenId : ℕ} :
    owned.Minted tick tokenId ↔ tokenId ∈ ids := by
  rw [List.mem_iff_getElem?]
  constructor
  · rintro ⟨reversedSeq, score, present⟩
    obtain ⟨index, found, _⟩ := supply.issued.numbered present
    exact ⟨index, found⟩
  · rintro ⟨index, found⟩
    obtain ⟨score, present⟩ := supply.issued.complete found
    exact ⟨_, score, present⟩

theorem Supply.row_iff (supply : Supply owned ranges tick max premint ids) {seq tokenId : ℕ}
    (positive : 1 ≤ seq) (le : seq ≤ ids.length) :
    (∃ score, (owned.mintHistory.get (.withSeq tick seq tokenId score)).isSome) ↔
      ids[seq - 1]? = some tokenId := by
  have fits : seq < u64Max := le.trans_lt supply.issued.length_lt
  constructor
  · rintro ⟨score, present⟩
    obtain ⟨index, found, reversed⟩ := supply.issued.numbered present
    have bound := (List.getElem?_eq_some_iff.1 found).1
    rw [← found]
    congr 1
    omega
  · intro found
    obtain ⟨score, present⟩ := supply.issued.complete found
    rw [Nat.sub_add_cancel positive] at present
    exact ⟨score, present⟩

theorem Supply.mintRows (supply : Supply owned ranges tick max premint ids)
    (le : premint ≤ max) : MintRows owned tick max premint ids.length where
  bounded := supply.within
  numbered := by
    intro reversedSeq tokenId score present
    obtain ⟨index, found, reversed⟩ := supply.issued.numbered present
    have bound := (List.getElem?_eq_some_iff.1 found).1
    exact ⟨index + 1, by omega, bound, reversed⟩
  complete := by
    intro seq positive below
    obtain ⟨tokenId, found⟩ : ∃ tokenId, ids[seq - 1]? = some tokenId :=
      ⟨_, List.getElem?_eq_getElem (by omega)⟩
    obtain ⟨score, present⟩ := (supply.row_iff positive below).2 found
    refine ⟨(tokenId, score), present, ?_⟩
    rintro ⟨tokenId', score'⟩ present'
    have found' := (supply.row_iff positive below).1 ⟨score', present'⟩
    rw [found, Option.some_inj] at found'
    subst found'
    exact Prod.ext rfl (supply.issued.single present' present)
  distinct := by
    intro tokenId reversedSeq reversedSeq' score score' present present'
    obtain ⟨index, found, rfl⟩ := supply.issued.numbered present
    obtain ⟨index', found', rfl⟩ := supply.issued.numbered present'
    have bound := (List.getElem?_eq_some_iff.1 found).1
    have same : index = index' :=
      (List.getElem?_inj bound supply.distinct).1 (found.trans found'.symm)
    subst same
    exact ⟨rfl, supply.issued.single present present'⟩
  within := fun minted => supply.mem_bounds le (supply.minted_iff.1 minted)
  preminted := by
    intro seq positive below
    rw [supply.row_iff positive (by omega), supply.preminted (by omega) (by omega)]
    congr 1
    omega
  drawn := by
    intro seq tokenId score above below present
    have found := (supply.row_iff (by omega) below).1 ⟨score, present⟩
    exact (supply.drawn (by omega) found).1

theorem Supply.rangeRows (supply : Supply owned ranges tick max premint ids)
    (le : premint ≤ max) {length : ℕ} (stored : ranges.rangeLengths.get tick = some length) :
    RangeRows owned ranges tick max premint length := by
  obtain ⟨pool, represents, _, intervals⟩ := supply.free
  cases pool with
  | none =>
      rw [represents.length] at stored
      cases stored
  | some pool =>
      obtain ⟨separated, _, covers⟩ := intervals pool rfl
      rw [represents.length, Option.some_inj] at stored
      subst stored
      have available : ∀ tokenId, ranges.Available tick tokenId ↔ pool.Covers tokenId := by
        intro tokenId
        simp only [RangeStore.Available, represents.ranges, IntervalPool.Covers,
          List.mem_iff_getElem?]
        constructor
        · rintro ⟨index, start, size, found, bounds⟩
          exact ⟨_, ⟨index, found⟩, bounds⟩
        · rintro ⟨⟨start, size⟩, ⟨index, found⟩, bounds⟩
          exact ⟨index, start, size, found, bounds⟩
      refine ⟨fun index => ?_, fun {index start size} found => ?_, ?_, fun tokenId => ?_,
        fun {tokenId} free minted => ?_⟩
      · rw [represents.ranges, isSome_getElem?]
      · rw [represents.ranges] at found
        exact separated.nonempty _ (List.mem_of_getElem? found)
      · intro index index' start start' size size' different found found'
        rw [represents.ranges, List.getElem?_eq_some_iff] at found found'
        obtain ⟨bound, rfl'⟩ := found
        obtain ⟨bound', rfl''⟩ := found'
        rcases lt_or_gt_of_ne different with less | greater
        · have apart := List.pairwise_iff_getElem.1 separated.apart index index' bound bound' less
          rw [rfl', rfl''] at apart
          exact apart
        · have apart := List.pairwise_iff_getElem.1 separated.apart index' index bound' bound
            greater
          rw [rfl', rfl''] at apart
          exact apart.symm
      · rw [available, covers, supply.minted_iff]
        have bounds : tokenId ∈ ids → _ := supply.mem_bounds le
        constructor
        · intro between
          by_cases member : tokenId ∈ ids
          · exact .inr ⟨between.1, member⟩
          · exact .inl ⟨between.1, between.2, member⟩
        · intro drawable
          rcases drawable with free | ⟨above, member⟩
          · exact ⟨free.1, free.2.1⟩
          · exact ⟨above, (bounds member).2⟩
      · exact ((covers tokenId).1 ((available tokenId).1 free)).2.2 (supply.minted_iff.1 minted)

end Supply

/-- A collection has one number of mints. -/
theorem MintRows.count_eq {store : OwnershipStore} {tick : Tick} {max premint count count' : ℕ}
    (rows : MintRows store tick max premint count)
    (rows' : MintRows store tick max premint count') (bounded : max < u64Max) :
    count ≤ count' := by
  have limit := rows.bounded
  rcases Nat.eq_zero_or_pos count with rfl | positive
  · exact Nat.zero_le _
  · obtain ⟨⟨tokenId, score⟩, present, _⟩ := rows.complete positive le_rfl
    obtain ⟨seq, _, le, reversed⟩ := rows'.numbered present
    have limit' := rows'.bounded
    omega

/-- Without forks the mints of a collection are numbered without gaps, no id is
minted twice, the ranges hold the ids that are left, and nothing that follows can fault. -/
theorem UnforkedReachable.supply_invariant {kaspa : Kaspa} {db : Db}
    (reachable : UnforkedReachable kaspa db) : SupplyInvariant kaspa db := by
  have consistent := reachable.consistent
  obtain ⟨bound, replay⟩ := consistent.replay
  have wf := replay.wf
  refine ⟨?_, ?_, ?_, ?_, ?_⟩
  · intro tick entry deployed
    obtain ⟨sound, ids, supply⟩ := wf.deployed deployed
    exact ⟨ids.length, supply.mintRows sound.premint_le⟩
  · intro tick entry length deployed stored
    obtain ⟨sound, ids, supply⟩ := wf.deployed deployed
    exact supply.rangeRows sound.premint_le stored
  · intro tick entry count deployed rows premint_le room entropy
    obtain ⟨sound, ids, supply⟩ := wf.deployed deployed
    have rows' := supply.mintRows sound.premint_le
    have same : count = ids.length :=
      (rows.count_eq rows' sound.max_lt).antisymm (rows'.count_eq rows sound.max_lt)
    subst same
    obtain ⟨taken, tokenId, success, _, _, fresh, _⟩ :=
      supply.draw_step premint_le room sound.max_lt entropy 0 default
    exact ⟨taken, tokenId, success, fun minted => fresh (supply.minted_iff.1 minted)⟩
  · intro mergesets batch unforked
    obtain ⟨db', diff, success, _⟩ := consistent.processAdditions ⟨batch, unforked⟩
    exact ⟨db', diff, success⟩
  · intro removed forced
    obtain ⟨db', diff, success, _⟩ := consistent.processRemoval removed forced
    exact ⟨db', diff, success⟩

theorem UnforkedReachable.supply_invariant_sale : SupplyInvariant Sample.kaspa Sample.sold :=
  UnforkedReachable.supply_invariant Sample.sold_reachable

/-- After the forked mints id 3 is neither minted nor in a range. -/
theorem Reachable.not_supplyInvariant_forked :
    Reachable Sample.kaspa (Sample.reached Sample.forkedMints) ∧
      ¬ SupplyInvariant Sample.kaspa (Sample.reached Sample.forkedMints) := by
  refine ⟨Sample.forkedMints_reachable, fun invariant => ?_⟩
  have limits : ((Sample.reached Sample.forkedMints).collectionRegistry.get Sample.tick).map
      (fun entry => (entry.info.info.max, entry.info.info.premint)) = some (4, 0) := by
    decide +kernel
  obtain ⟨entry, deployed, same⟩ := Option.map_eq_some_iff.1 limits
  obtain ⟨max, premint⟩ := Prod.mk.inj same
  have stored : (Sample.reached Sample.forkedMints).rangeLengths.get Sample.tick = some 1 := by
    decide +kernel
  have rows := invariant.ranges deployed stored
  rcases (rows.covering 3).1 (by omega) with free | ⟨_, minted⟩
  · obtain ⟨index, start, size, found, bounds⟩ := free
    have outside : (Sample.reached Sample.forkedMints).availableRanges.entries.all
        (fun row => decide (row.2.1 + row.2.2 ≤ 3)) = true := by decide +kernel
    have below := List.all_eq_true.1 outside _ (Partition.mem_entries.2 found)
    simp only [decide_eq_true_eq] at below
    omega
  · obtain ⟨reversedSeq, score, present⟩ := minted
    have others : (Sample.reached Sample.forkedMints).mintHistory.entries.all
        (fun row => decide (row.1.tokenId ≠ 3)) = true := by decide +kernel
    obtain ⟨_, found⟩ := Option.isSome_iff_exists.1 present
    have other := List.all_eq_true.1 others _ (Partition.mem_entries.2 found)
    exact absurd rfl (of_decide_eq_true other)

/-! Ownership. -/

/-- The ownership partitions of a token agree. -/
structure OwnershipAgrees (store : OwnershipStore) (tick : Tick) (tokenId : ℕ) : Prop where
  owned : (store.currentOwnership.get ⟨tick, tokenId⟩).isSome ↔
    ∃ reversedScore, (store.ownershipHistory.get ⟨tick, tokenId, reversedScore⟩).isSome
  newest : ∀ {current}, store.currentOwnership.get ⟨tick, tokenId⟩ = some current →
    store.ownershipHistory.get (.withScore tick tokenId current.modTxScore) =
        some current.owner ∧
      ∀ score, score ≤ u64Max →
        (store.ownershipHistory.get (.withScore tick tokenId score)).isSome →
          score ≤ current.modTxScore
  scored : ∀ {reversedScore},
    (store.ownershipHistory.get ⟨tick, tokenId, reversedScore⟩).isSome → reversedScore ≤ u64Max
  held : ∀ {spk modTxScore},
    store.addressHoldings.get ⟨spk, tick, tokenId⟩ = some modTxScore ↔
      store.currentOwnership.get ⟨tick, tokenId⟩ = some ⟨spk, modTxScore⟩
  changed : ∀ {score}, score ≤ u64Max →
    (store.ownershipHistory.get (.withScore tick tokenId score)).isSome →
      ∃! reversedSeqNumber,
        (store.ownershipChanges.get ⟨score, tick, tokenId, reversedSeqNumber⟩).isSome
  recorded : ∀ {score reversedSeqNumber},
    (store.ownershipChanges.get ⟨score, tick, tokenId, reversedSeqNumber⟩).isSome →
      score ≤ u64Max ∧ (store.ownershipHistory.get (.withScore tick tokenId score)).isSome

theorem OwnershipStore.Wf.agrees {store : OwnershipStore} {bound : ℕ} (wf : store.Wf bound)
    (tick : Tick) (tokenId : ℕ) : OwnershipAgrees store tick tokenId where
  owned := by
    rw [← not_iff_not, Option.not_isSome_iff_eq_none, wf.current_eq_none_iff]
    simp only [not_exists, Option.not_isSome_iff_eq_none]
  newest := by
    rintro ⟨owner, modTxScore⟩ found
    rw [wf.current, Option.map_eq_some_iff] at found
    obtain ⟨⟨owner', modTxScore'⟩, last, same⟩ := found
    cases same
    obtain ⟨reversed, rfl, stored, least⟩ := lastOwner_eq_some_iff.1 last
    obtain ⟨score, seq, rfl, row⟩ := wf.history.1 (Option.isSome_iff_exists.2 ⟨_, stored⟩)
    have le := wf.score_le row
    simp only at le
    refine ⟨?_, fun score' fits present => ?_⟩
    · simp only [OwnershipHistoryKey.withScore, Nat.sub_sub_self le]
      exact stored
    · have older := least _ present
      simp only
      omega
  scored := by
    intro reversedScore present
    obtain ⟨score, seq, rfl, _⟩ := wf.history.1 present
    exact Nat.sub_le _ _
  held := wf.holdings
  changed := by
    intro score fits present
    obtain ⟨score', seq, same, row⟩ := wf.history.1 present
    have le := wf.score_le row
    simp only at le
    have equal : score' = score := by omega
    subst equal
    exact ⟨seq, row, fun other present' => wf.single present' row⟩
  recorded := by
    intro score reversedSeqNumber present
    exact ⟨wf.score_le present, wf.history.2 ⟨score, _, rfl, present⟩⟩

/-- Without forks the ownership partitions agree for every token. -/
theorem UnforkedReachable.ownership {kaspa : Kaspa} {db : Db}
    (reachable : UnforkedReachable kaspa db) (tick : Tick) (tokenId : ℕ) :
    OwnershipAgrees db.toOwnershipStore tick tokenId := by
  obtain ⟨bound, replay⟩ := reachable.consistent.replay
  exact replay.wf.owned.agrees tick tokenId

theorem UnforkedReachable.ownership_sale :
    OwnershipAgrees Sample.sold.toOwnershipStore Sample.tick 1 :=
  UnforkedReachable.ownership Sample.sold_reachable Sample.tick 1

namespace Sample

/-- A mint, and a transfer of the minted token in another block of the same blue score. -/
def forkedTransfer : List ChainStep := [
  .add [block 1 101 0 [deploys 1 2 0]],
  .add [block 2 102 0 [mints 2]],
  .add [block 2 202 0 [operation 3 bob (.transfer ⟨1, alice⟩)]]]

theorem forkedTransfer_reachable : Reachable kaspa (reached forkedTransfer) :=
  reached_reachable (by decide) (by decide +kernel)

end Sample

/-- The transfer has the score of the mint, so the one row of the history has two changes. -/
theorem Reachable.not_ownershipAgrees_forked :
    Reachable Sample.kaspa (Sample.reached Sample.forkedTransfer) ∧
      ¬ OwnershipAgrees (Sample.reached Sample.forkedTransfer).toOwnershipStore Sample.tick 1 := by
  refine ⟨Sample.forkedTransfer_reachable, fun agrees => ?_⟩
  have written : ((Sample.reached Sample.forkedTransfer).ownershipHistory.get
      (.withScore Sample.tick 1 4000)).isSome := by decide +kernel
  obtain ⟨seq, _, single⟩ := agrees.changed (by decide) written
  have mint := single u64Max.pred (by decide +kernel)
  have transfer := single u64Max (by decide +kernel)
  rw [← transfer] at mint
  exact absurd mint (by decide)

end Krc721
