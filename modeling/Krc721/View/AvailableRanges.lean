import Krc721.Processor.References

/-! The ranges of token ids that a collection still has, as the read view publishes them. The list
of ranges is created by the first random mint, so the view has to tell a list that does not exist
yet from one that is exhausted. -/

set_option autoImplicit false

namespace Krc721

open OrderedStore

structure AvailableRange where
  startTokenId : ℕ
  size : ℕ
deriving DecidableEq

inductive AvailableRanges where
  | fullyMinted
  | available (ranges : List AvailableRange)
deriving DecidableEq

/-- The range rows of a tick, from index 0 up to `u64::MAX`. -/
def RangeStore.rangesOf (store : RangeStore) (tick : Tick) : List AvailableRange :=
  ((store.availableRanges.entriesFrom ⟨tick, 0⟩).filter fun entry =>
    entry.1 < ⟨tick, u64Max⟩).map fun entry => ⟨entry.2.1, entry.2.2⟩

def Db.krc721AvailableTokenIdRanges (db : Db) (tick : Tick) : Option AvailableRanges :=
  match db.collectionRegistry.get tick with
  | none => none
  | some depl =>
      let info := depl.info.info
      match db.lastMintedTokenSeqNo tick with
      | none =>
          if info.max = 0 then some .fullyMinted
          else some (.available [⟨1, info.max⟩])
      | some lastMintSeq =>
          if lastMintSeq = info.max then some .fullyMinted
          else
            let ranges := db.rangesOf tick
            if ranges.isEmpty && info.premint < info.max then
              some (.available [⟨info.premint + 1, info.max - info.premint⟩])
            else some (.available ranges)

/-! Serialisation. -/

def ilog10 (value : ℕ) : Except Fault ℕ :=
  if value = 0 then .error (.panic "argument of integer logarithm must be positive")
  else .ok (Nat.log 10 value)

/-- The capacity of the string, summed up before it is written. -/
def AvailableRanges.capacity : List AvailableRange → Except Fault ℕ
  | [] => .ok 0
  | range :: ranges =>
      match ilog10 range.startTokenId with
      | .error fault => .error fault
      | .ok startDigits =>
          match ilog10 range.size with
          | .error fault => .error fault
          | .ok sizeDigits =>
              match capacity ranges with
              | .error fault => .error fault
              | .ok rest => .ok (startDigits + 1 + sizeDigits + 1 + 2 + rest)

/-- `AvailableRanges::serialize`; the capacity is only a hint for the allocation. -/
def AvailableRanges.serialize : AvailableRanges → Except Fault String
  | .fullyMinted => .ok ""
  | .available ranges =>
      match capacity ranges with
      | .error fault => .error fault
      | .ok _ => .ok (",".intercalate (ranges.map fun range =>
          toString range.startTokenId ++ "," ++ toString range.size))

/-! What is published. -/

def AvailableRange.Holds (range : AvailableRange) (tokenId : ℕ) : Prop :=
  range.startTokenId ≤ tokenId ∧ tokenId < range.startTokenId + range.size

def OwnershipStore.Owned (store : OwnershipStore) (tick : Tick) (tokenId : ℕ) : Prop :=
  (store.currentOwnership.get ⟨tick, tokenId⟩).isSome

/-- The ranges are a partition of the ids up to `max` that have no owner. -/
structure Unowned (store : OwnershipStore) (tick : Tick) (max : ℕ) (ranges : List AvailableRange) :
    Prop where
  disjoint : ranges.Pairwise fun left right =>
    ∀ tokenId, ¬(left.Holds tokenId ∧ right.Holds tokenId)
  positive : ∀ range ∈ ranges, 1 ≤ range.startTokenId ∧ 1 ≤ range.size
  covering : ∀ tokenId, (∃ range ∈ ranges, range.Holds tokenId) ↔
    1 ≤ tokenId ∧ tokenId ≤ max ∧ ¬store.Owned tick tokenId

theorem AvailableRanges.capacity_ok {ranges : List AvailableRange}
    (positive : ∀ range ∈ ranges, 1 ≤ range.startTokenId ∧ 1 ≤ range.size) :
    ∃ digits, capacity ranges = .ok digits := by
  induction ranges with
  | nil => exact ⟨0, rfl⟩
  | cons range ranges ih =>
      obtain ⟨rest, counted⟩ :=
        ih fun other member => positive other (List.mem_cons_of_mem _ member)
      obtain ⟨start, size⟩ := positive range List.mem_cons_self
      have startNonzero : range.startTokenId ≠ 0 := by omega
      have sizeNonzero : range.size ≠ 0 := by omega
      simp only [capacity, ilog10, startNonzero, sizeNonzero, if_false, counted]
      exact ⟨_, rfl⟩

theorem AvailableRanges.serialize_ok {ranges : List AvailableRange}
    (positive : ∀ range ∈ ranges, 1 ≤ range.startTokenId ∧ 1 ≤ range.size) :
    ∃ text, (AvailableRanges.available ranges).serialize = .ok text := by
  obtain ⟨digits, counted⟩ := capacity_ok positive
  simp only [serialize, counted]
  exact ⟨_, rfl⟩

/-! The supply of a collection decides what is published. -/

namespace Supply

variable {owned : OwnershipStore} {ranges : RangeStore} {tick : Tick}
variable {max premint bound : ℕ} {ids : List ℕ}

/-- The tokens with an owner are the minted ones. -/
theorem owned_iff (supply : Supply owned ranges tick max premint ids) (wf : owned.Wf bound)
    {tokenId : ℕ} : owned.Owned tick tokenId ↔ tokenId ∈ ids := by
  unfold OwnershipStore.Owned
  rw [← not_iff_not, Option.not_isSome_iff_eq_none, wf.current_eq_none_iff]
  constructor
  · intro absent member
    obtain ⟨reversedSeq, score, present⟩ := supply.minted_iff.2 member
    have known := wf.history.2 ⟨score, reversedSeq, rfl, (wf.mints.1 present).1⟩
    rw [absent] at known
    cases known
  · intro missing reversed
    rw [← Option.not_isSome_iff_eq_none]
    exact fun present => missing (supply.known present)

/-- All ids are minted when there are as many mints as ids. -/
theorem full_iff (supply : Supply owned ranges tick max premint ids) (le : premint ≤ max) :
    (∀ tokenId, 1 ≤ tokenId → tokenId ≤ max → tokenId ∈ ids) ↔ ids.length = max := by
  have within : ids.toFinset ⊆ Finset.Icc 1 max := by
    intro tokenId member
    rw [List.mem_toFinset] at member
    exact Finset.mem_Icc.2 (supply.mem_bounds le member)
  have card : ids.toFinset.card = ids.length := List.toFinset_card_of_nodup supply.distinct
  constructor
  · intro full
    have whole : Finset.Icc 1 max ⊆ ids.toFinset := by
      intro tokenId member
      obtain ⟨low, high⟩ := Finset.mem_Icc.1 member
      exact List.mem_toFinset.2 (full tokenId low high)
    have count := Finset.card_le_card whole
    rw [card, Nat.card_Icc] at count
    have bounded := supply.within
    omega
  · intro count tokenId low high
    have same := Finset.eq_of_subset_of_card_le within (by rw [card, Nat.card_Icc]; omega)
    rw [← List.mem_toFinset, same]
    exact Finset.mem_Icc.2 ⟨low, high⟩

/-- Before the first random mint the ids above the premints are free. -/
theorem unowned_premint (supply : Supply owned ranges tick max premint ids) (wf : owned.Wf bound)
    (count : ids.length = premint) (room : premint < max) :
    Unowned owned tick max [⟨premint + 1, max - premint⟩] where
  disjoint := List.pairwise_singleton _ _
  positive := by
    intro range member
    rw [List.mem_singleton] at member
    subst member
    exact ⟨Nat.succ_pos _, by simp only; omega⟩
  covering := by
    intro tokenId
    rw [supply.owned_iff wf]
    simp only [List.mem_singleton, exists_eq_left, AvailableRange.Holds]
    constructor
    · intro inside
      refine ⟨by omega, by omega, ?_⟩
      intro member
      have bounds := supply.mem_premint count.le member
      omega
    · rintro ⟨low, high, missing⟩
      suffices above : premint < tokenId by omega
      by_contra below
      have early : tokenId - 1 < premint := by omega
      have minted := supply.preminted early (by omega)
      rw [Nat.sub_add_cancel low] at minted
      exact missing (List.mem_of_getElem? minted)

end Supply

theorem RangeStore.mem_rangesOf {store : RangeStore} {tick : Tick} {range : AvailableRange} :
    range ∈ store.rangesOf tick ↔ ∃ index, index < u64Max ∧
      store.availableRanges.get ⟨tick, index⟩ = some (range.startTokenId, range.size) := by
  simp only [rangesOf, List.mem_map, List.mem_filter, decide_eq_true_eq, Prod.exists,
    Partition.mem_entriesFrom]
  constructor
  · rintro ⟨key, start, size, ⟨⟨stored, low⟩, high⟩, same⟩
    obtain ⟨sameTick, below⟩ := RangeKey.between_iff.1 ⟨low, high⟩
    subst sameTick same
    exact ⟨key.index, below, stored⟩
  · rintro ⟨index, below, stored⟩
    obtain ⟨low, high⟩ := (@RangeKey.between_iff tick u64Max ⟨tick, index⟩).2 ⟨rfl, below⟩
    exact ⟨⟨tick, index⟩, range.startTokenId, range.size, ⟨⟨stored, low⟩, high⟩, rfl⟩

namespace RangeRows

variable {owned : OwnershipStore} {ranges : RangeStore} {tick : Tick}
variable {max premint length : ℕ}

theorem holds_iff (rows : RangeRows owned ranges tick max premint length)
    (bounded : length ≤ u64Max) {tokenId : ℕ} :
    (∃ range ∈ ranges.rangesOf tick, range.Holds tokenId) ↔ ranges.Available tick tokenId := by
  constructor
  · rintro ⟨range, member, inside⟩
    obtain ⟨index, _, stored⟩ := RangeStore.mem_rangesOf.1 member
    exact ⟨index, range.startTokenId, range.size, stored, inside⟩
  · rintro ⟨index, start, size, stored, inside⟩
    have below := (rows.indices index).1 (by rw [stored]; rfl)
    exact ⟨⟨start, size⟩, RangeStore.mem_rangesOf.2 ⟨index, by omega, stored⟩, inside⟩

theorem disjoint_rangesOf (rows : RangeRows owned ranges tick max premint length) :
    (ranges.rangesOf tick).Pairwise fun left right =>
      ∀ tokenId, ¬(left.Holds tokenId ∧ right.Holds tokenId) := by
  unfold RangeStore.rangesOf
  rw [List.pairwise_map]
  refine List.Pairwise.imp_of_mem ?_ ((Partition.entriesFrom_ordered _ _).filter _)
  rintro ⟨⟨tick', index⟩, start, size⟩ ⟨⟨tick'', index'⟩, start', size'⟩ member member' less
  simp only [List.mem_filter, decide_eq_true_eq, Partition.mem_entriesFrom] at member member'
  obtain ⟨⟨stored, low⟩, high⟩ := member
  obtain ⟨⟨stored', low'⟩, high'⟩ := member'
  obtain ⟨sameTick, _⟩ := RangeKey.between_iff.1 ⟨low, high⟩
  obtain ⟨sameTick', _⟩ := RangeKey.between_iff.1 ⟨low', high'⟩
  simp only at sameTick sameTick'
  subst sameTick sameTick'
  have different : index ≠ index' := by
    rintro rfl
    exact absurd less (lt_irrefl _)
  rintro tokenId ⟨inside, inside'⟩
  simp only [AvailableRange.Holds] at inside inside'
  cases rows.disjoint different stored stored' with
  | inl before => omega
  | inr after => omega

/-- A range list is a partition of the free ids, once all premints are out. -/
theorem unowned (rows : RangeRows owned ranges tick max premint length)
    (bounded : length ≤ u64Max)
    (preminted : ∀ tokenId, 1 ≤ tokenId → tokenId ≤ premint → owned.Minted tick tokenId)
    (ownedIff : ∀ tokenId, owned.Owned tick tokenId ↔ owned.Minted tick tokenId) :
    Unowned owned tick max (ranges.rangesOf tick) where
  disjoint := rows.disjoint_rangesOf
  positive := by
    intro range member
    obtain ⟨index, below, stored⟩ := RangeStore.mem_rangesOf.1 member
    have nonempty := rows.nonempty stored
    have first : ranges.Available tick range.startTokenId :=
      ⟨index, _, _, stored, le_rfl, by omega⟩
    have free := (rows.covering _).2 (.inl first)
    exact ⟨by omega, nonempty⟩
  covering := by
    intro tokenId
    rw [rows.holds_iff bounded, ownedIff]
    constructor
    · intro available
      have free := (rows.covering _).2 (.inl available)
      exact ⟨by omega, free.2, rows.exclusive available⟩
    · rintro ⟨low, high, unminted⟩
      have above : premint < tokenId := by
        by_contra below
        exact unminted (preminted tokenId low (by omega))
      cases (rows.covering tokenId).1 ⟨above, high⟩ with
      | inl available => exact available
      | inr minted => exact absurd minted.2 unminted

end RangeRows

/-! Every reachable database. -/

/-- What the view answers for a collection with ids up to `max`. -/
structure Publishes (store : OwnershipStore) (tick : Tick) (max : ℕ) (answer : AvailableRanges) :
    Prop where
  fullyMinted : answer = .fullyMinted ↔
    ∀ tokenId, 1 ≤ tokenId → tokenId ≤ max → store.Owned tick tokenId
  available : ∀ ranges, answer = .available ranges → Unowned store tick max ranges
  serializes : ∃ text, answer.serialize = .ok text

/-- Ranges that hold the ids without an owner, and some id has none. -/
theorem Unowned.publishes {store : OwnershipStore} {tick : Tick} {max : ℕ}
    {ranges : List AvailableRange} (unowned : Unowned store tick max ranges)
    (left : ¬∀ tokenId, 1 ≤ tokenId → tokenId ≤ max → store.Owned tick tokenId) :
    Publishes store tick max (.available ranges) where
  fullyMinted := iff_of_false (by simp) left
  available := by
    intro ranges' same
    cases same
    exact unowned
  serializes := AvailableRanges.serialize_ok unowned.positive

/-- Every deployment has all its premints. -/
theorem Supply.premint_le {ledger : Ledger} {tick : Tick} {entry : ScoredDeployInfoWithCommon}
    {ids : List ℕ} (supply : Supply ledger.toOwnershipStore ledger.toRangeStore tick
      entry.info.info.max entry.info.info.premint ids)
    (referenced : ledger.Referenced) (deployed : ledger.collectionRegistry.get tick = some entry)
    (sound : entry.info.info.Sound) : entry.info.info.premint ≤ ids.length := by
  cases Nat.eq_zero_or_pos entry.info.info.premint with
  | inl zero => omega
  | inr positive =>
      obtain ⟨tokenId, score, present⟩ := referenced.preminted deployed positive le_rfl
      obtain ⟨index, found, reversed⟩ := supply.issued.numbered present
      have bound := (List.getElem?_eq_some_iff.1 found).1
      have premint_le := sound.premint_le
      have max_lt := sound.max_lt
      have length_lt := supply.issued.length_lt
      omega

/-- A tick without a range list has no range rows. -/
theorem RangeStore.Vacant.rangesOf_eq_nil {store : RangeStore} {tick : Tick}
    (vacant : store.Vacant tick) : store.rangesOf tick = [] := by
  rw [List.eq_nil_iff_forall_not_mem]
  intro range member
  obtain ⟨index, _, stored⟩ := RangeStore.mem_rangesOf.1 member
  rw [vacant.ranges] at stored
  cases stored

/-- Ranges that hold the ids without an owner are not empty as long as some id has none. -/
theorem Unowned.ne_nil {store : OwnershipStore} {tick : Tick} {max : ℕ}
    {ranges : List AvailableRange} (unowned : Unowned store tick max ranges)
    (left : ¬∀ tokenId, 1 ≤ tokenId → tokenId ≤ max → store.Owned tick tokenId) :
    ranges ≠ [] := by
  rintro rfl
  apply left
  intro tokenId low high
  by_contra missing
  obtain ⟨range, member, _⟩ := (unowned.covering tokenId).2 ⟨low, high, missing⟩
  cases member

/-- Once all premints are out, a range list holds the ids without an owner. -/
theorem Supply.unowned_rangesOf {owned : OwnershipStore} {ranges : RangeStore} {tick : Tick}
    {max premint bound : ℕ} {ids : List ℕ} {pool : IntervalPool}
    (supply : Supply owned ranges tick max premint ids) (wf : owned.Wf bound)
    (bounded : max ≤ u64Max) (le : premint ≤ max) (premints : premint ≤ ids.length)
    (represents : ranges.Represents tick (some pool)) (separated : pool.Separated)
    (total : pool.total + ids.length = max) :
    Unowned owned tick max (ranges.rangesOf tick) := by
  have length := separated.length_le_total
  have rows := supply.rangeRows le represents.length
  refine rows.unowned (by omega) ?_ ?_
  · intro tokenId low high
    rw [supply.minted_iff]
    have minted : ids[tokenId - 1]? = some (tokenId - 1 + 1) :=
      supply.preminted (by omega) (by omega)
    rw [Nat.sub_add_cancel low] at minted
    exact List.mem_of_getElem? minted
  · intro tokenId
    rw [supply.owned_iff wf, supply.minted_iff]

/-- While ids are left, the ranges the view shows are those without an owner. -/
theorem Supply.unowned_shown {owned : OwnershipStore} {ranges : RangeStore} {tick : Tick}
    {max premint bound : ℕ} {ids : List ℕ} (supply : Supply owned ranges tick max premint ids)
    (wf : owned.Wf bound) (bounded : max ≤ u64Max) (le : premint ≤ max)
    (premints : premint ≤ ids.length)
    (left : ¬∀ tokenId, 1 ≤ tokenId → tokenId ≤ max → owned.Owned tick tokenId)
    (room : ids.length < max) :
    Unowned owned tick max (if (ranges.rangesOf tick).isEmpty && decide (premint < max) then
      [⟨premint + 1, max - premint⟩] else ranges.rangesOf tick) := by
  obtain ⟨pool, represents, vacant, intervals⟩ := supply.free
  cases pool with
  | none =>
      have count : ids.length = premint := le_antisymm (vacant.1 rfl) premints
      have below : premint < max := by omega
      rw [represents.rangesOf_eq_nil]
      simp only [List.isEmpty_nil, below, decide_true, Bool.and_self, if_true]
      exact supply.unowned_premint wf count below
  | some pool =>
      obtain ⟨separated, total, _⟩ := intervals pool rfl
      have unowned :=
        supply.unowned_rangesOf wf bounded le premints represents separated total
      have nonempty : (ranges.rangesOf tick).isEmpty = false := by
        rw [← Bool.not_eq_true, List.isEmpty_iff]
        exact unowned.ne_nil left
      simp only [nonempty, Bool.false_and, Bool.false_eq_true, if_false]
      exact unowned

/-- Without forks the view publishes exactly the ids without an owner. -/
theorem UnforkedReachable.available_ranges {kaspa : Kaspa} {db : Db}
    (reachable : UnforkedReachable kaspa db) {tick : Tick} {entry : ScoredDeployInfoWithCommon}
    (deployed : db.collectionRegistry.get tick = some entry)
    (positive : 1 ≤ entry.info.info.max) :
    ∃ answer, db.krc721AvailableTokenIdRanges tick = some answer ∧
      Publishes db.toOwnershipStore tick entry.info.info.max answer := by
  obtain ⟨bound, replay⟩ := reachable.consistent.replay
  have wf := replay.wf
  obtain ⟨sound, ids, supply⟩ := wf.deployed deployed
  have premints := supply.premint_le replay.referenced deployed sound
  have premint_le := sound.premint_le
  have max_lt := sound.max_lt
  have within := supply.within
  have counted := supply.issued.lastMintedTokenSeqNo
  have full := supply.full_iff sound.premint_le
  simp only [← supply.owned_iff wf.owned] at full
  unfold Db.krc721AvailableTokenIdRanges
  simp only [deployed]
  cases last : db.lastMintedTokenSeqNo tick with
  | none =>
      rw [last, Option.getD_none] at counted
      have nonzero : entry.info.info.max ≠ 0 := by omega
      have zero : entry.info.info.premint = 0 := by omega
      have unowned := supply.unowned_premint wf.owned (by omega) (by omega)
      rw [zero] at unowned
      simp only [nonzero, if_false]
      exact ⟨_, rfl, unowned.publishes (by rw [full]; omega)⟩
  | some lastMintSeq =>
      rw [last, Option.getD_some] at counted
      subst counted
      by_cases whole : ids.length = entry.info.info.max
      · simp only [whole, if_true]
        refine ⟨_, rfl, iff_of_true rfl (full.2 whole), by simp, ⟨"", rfl⟩⟩
      · have left := mt full.1 whole
        have unowned := supply.unowned_shown wf.owned (by omega) premint_le premints left
          (by omega)
        simp only [whole, if_false]
        split at unowned
        · rename_i unlisted
          simp only [unlisted, if_true]
          exact ⟨_, rfl, unowned.publishes left⟩
        · rename_i listed
          simp only [listed]
          exact ⟨_, rfl, unowned.publishes left⟩

theorem UnforkedReachable.available_ranges_sale : ∃ answer,
    Sample.sold.krc721AvailableTokenIdRanges Sample.tick = some answer ∧
      Publishes Sample.sold.toOwnershipStore Sample.tick 3 answer := by
  obtain ⟨entry, deployed, max⟩ : ∃ entry,
      Sample.sold.collectionRegistry.get Sample.tick = some entry ∧ entry.info.info.max = 3 :=
    ⟨_, rfl, rfl⟩
  have published := UnforkedReachable.available_ranges Sample.sold_reachable deployed (by omega)
  rwa [max] at published

/-- After the forked mints tokens 2, 3 and 4 have no owner, and only token 2 is published. -/
theorem Reachable.not_publishes_forked : ∃ answer,
    Reachable Sample.kaspa (Sample.reached Sample.forkedMints) ∧
      ((Sample.reached Sample.forkedMints).collectionRegistry.get Sample.tick).map
        (·.info.info.max) = some 4 ∧
      (Sample.reached Sample.forkedMints).krc721AvailableTokenIdRanges Sample.tick =
        some answer ∧
      ¬ Publishes (Sample.reached Sample.forkedMints).toOwnershipStore Sample.tick 4 answer := by
  refine ⟨.available [⟨2, 1⟩], Sample.forkedMints_reachable, by decide +kernel,
    by decide +kernel, fun publishes => ?_⟩
  have unowned : ¬ (Sample.reached Sample.forkedMints).Owned Sample.tick 3 := by
    rw [OwnershipStore.Owned]
    decide +kernel
  obtain ⟨range, member, holds⟩ :=
    ((publishes.available _ rfl).covering 3).2 ⟨by decide, by decide, unowned⟩
  rw [List.mem_singleton.1 member] at holds
  exact absurd holds.2 (by decide)

end Krc721
