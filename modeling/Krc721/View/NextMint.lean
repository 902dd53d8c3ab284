import Krc721.Store.PoolDraws
import Krc721.View.AvailableRanges

/-! The published ranges and the next mint: the ranges are published in the order in which a mint
draws from them, so whoever knows them and the entropy of a mergeset knows the token of the next
mint, and which tokens no entropy gives. -/

set_option autoImplicit false

namespace Krc721

open OrderedStore

def AvailableRange.interval (range : AvailableRange) : ℕ × ℕ := (range.startTokenId, range.size)

/-- The published ranges as a pool. -/
def poolOf (ranges : List AvailableRange) : IntervalPool := ranges.map AvailableRange.interval

namespace RangeStore

variable {store taken : RangeStore} {tick : Tick} {pool : IntervalPool}

/-- The rows of a tick are published in the order of their indices. -/
theorem Holds.poolOf_rangesOf (holds : store.Holds tick pool) (bounded : pool.length ≤ u64Max) :
    poolOf (store.rangesOf tick) = pool := by
  have rows : ((store.availableRanges.entriesFrom ⟨tick, 0⟩).filter fun entry =>
      entry.1 < ⟨tick, u64Max⟩) =
        pool.zipIdx.map fun entry => (⟨tick, entry.2⟩, entry.1) := by
    apply List.Pairwise.eq_of_mem_iff (r := fun left right => left.1 < right.1)
    · exact (Partition.entriesFrom_ordered _ _).filter _
    · rw [List.pairwise_map, List.pairwise_iff_getElem]
      intro left right leftBound rightBound before
      rw [List.getElem_zipIdx, List.getElem_zipIdx, RangeKey.lt_iff]
      exact .inr ⟨rfl, by simpa using before⟩
    · intro entry
      obtain ⟨⟨tick', index⟩, interval⟩ := entry
      simp only [List.mem_filter, decide_eq_true_eq, Partition.mem_entriesFrom, List.mem_map,
        Prod.exists, List.mem_zipIdx_iff_getElem?, Prod.mk.injEq]
      constructor
      · intro row
        obtain ⟨⟨stored, low⟩, high⟩ := row
        obtain ⟨sameTick, below⟩ := RangeKey.between_iff.1 ⟨low, high⟩
        simp only at sameTick
        subst sameTick
        rw [holds.ranges] at stored
        exact ⟨interval.1, interval.2, index, stored, rfl, rfl⟩
      · intro row
        obtain ⟨start, size, index', stored, same, rfl⟩ := row
        injection same with sameTick sameIndex
        subst sameTick sameIndex
        have inside := (List.getElem?_eq_some_iff.1 stored).1
        obtain ⟨low, high⟩ := (@RangeKey.between_iff tick u64Max ⟨tick, index'⟩).2
          ⟨rfl, by simp only; omega⟩
        exact ⟨⟨(holds.ranges index').trans stored, low⟩, high⟩
  rw [poolOf, rangesOf, rows, List.map_map, List.map_map]
  change pool.zipIdx.map Prod.fst = pool
  exact List.zipIdx_map_fst 0 pool

/-- The token that `generate_token_id` returns is the one that the entropy draws. -/
theorem generateTokenId_draws {maybe : Option IntervalPool}
    (represents : store.Represents tick maybe)
    (present : maybe ≠ some []) {entropy maxSupply premint tokenId : ℕ}
    (success : store.generateTokenId tick entropy maxSupply premint = .ok (taken, tokenId)) :
    (drawPool maxSupply premint maybe).draw entropy = some tokenId := by
  have drawn := selectRange_drawn represents present entropy maxSupply premint
  unfold generateTokenId at success
  simp only [drawn.range] at success
  unfold IntervalPool.draw
  split at success
  · cases success
  · rename_i start size found
    split_ifs at success with empty above zero
    · split at success <;> cases success
    · split at success
      · cases success
      · cases success
        rw [found]
        rfl

end RangeStore

/-- The pool `pool` is what the next mint of the tick draws from, and `ranges` shows it. -/
def RangeStore.Shows (store : RangeStore) (tick : Tick) (max premint : ℕ)
    (ranges : List AvailableRange) : Prop :=
  ∃ pool, store.Represents tick pool ∧ pool ≠ some [] ∧
    poolOf ranges = drawPool max premint pool ∧ (poolOf ranges).Separated

/-- Before the first random mint the ids above the premints show the pool. -/
theorem Supply.shows_premint {owned : OwnershipStore} {store : RangeStore} {tick : Tick}
    {max premint : ℕ} {ids : List ℕ} (supply : Supply owned store tick max premint ids)
    (premints : premint ≤ ids.length) (room : ids.length < max)
    (few : ids.length ≤ premint) :
    store.Shows tick max premint [⟨premint + 1, max - premint⟩] := by
  obtain ⟨pool, represents, vacant, separated, _⟩ := supply.drawPool premints room
  obtain rfl := vacant.2 few
  have pools : poolOf [⟨premint + 1, max - premint⟩] = RangeStore.drawPool max premint none := by
    rw [Nat.add_comm]
    rfl
  exact ⟨none, represents, by simp, pools, pools ▸ separated⟩

/-- As long as ids are left, a range list shows its pool, and it is not empty. -/
theorem Supply.shows_rows {owned : OwnershipStore} {store : RangeStore} {tick : Tick}
    {max premint : ℕ} {ids : List ℕ} (supply : Supply owned store tick max premint ids)
    (bounded : max ≤ u64Max) (room : ids.length < max) (drawn : ¬ids.length ≤ premint) :
    store.Shows tick max premint (store.rangesOf tick) ∧ store.rangesOf tick ≠ [] := by
  obtain ⟨pool, represents, vacant, rows⟩ := supply.free
  cases pool with
  | none => exact absurd (vacant.1 rfl) drawn
  | some pool =>
      obtain ⟨separated, total, _⟩ := rows pool rfl
      have length := separated.length_le_total
      have pools := RangeStore.Holds.poolOf_rangesOf represents (by omega)
      have nonempty : pool ≠ [] := by
        rintro rfl
        rw [IntervalPool.total_nil] at total
        omega
      refine ⟨⟨some pool, represents, by simpa using nonempty, pools, pools ▸ separated⟩, ?_⟩
      intro empty
      rw [empty] at pools
      exact nonempty pools.symm

/-- What is published is the pool that the next mint draws from. -/
theorem Supply.poolOf_published {db : Db} {tick : Tick}
    {entry : ScoredDeployInfoWithCommon} {ids : List ℕ}
    (supply : Supply db.toOwnershipStore db.toRangeStore tick entry.info.info.max
      entry.info.info.premint ids)
    (deployed : db.collectionRegistry.get tick = some entry) (sound : entry.info.info.Sound)
    (premints : entry.info.info.premint ≤ ids.length) {ranges : List AvailableRange}
    (published : db.krc721AvailableTokenIdRanges tick = some (.available ranges)) :
    db.toRangeStore.Shows tick entry.info.info.max entry.info.info.premint ranges := by
  have counted := supply.issued.lastMintedTokenSeqNo
  have max_lt := sound.max_lt
  have within := supply.within
  unfold Db.krc721AvailableTokenIdRanges at published
  simp only [deployed] at published
  cases last : db.lastMintedTokenSeqNo tick with
  | none =>
      rw [last, Option.getD_none] at counted
      simp only [last] at published
      split_ifs at published with zero
      · cases published
      · cases published
        have noPremint : entry.info.info.premint = 0 := by omega
        have shows := supply.shows_premint premints (by omega) (by omega)
        rw [noPremint] at shows ⊢
        exact shows
  | some lastMintSeq =>
      rw [last, Option.getD_some] at counted
      subst counted
      simp only [last] at published
      split_ifs at published with full vacantRows
      · cases published
      · cases published
        simp only [Bool.and_eq_true, List.isEmpty_iff, decide_eq_true_eq] at vacantRows
        refine supply.shows_premint premints (by omega) ?_
        by_contra drawn
        exact (supply.shows_rows (by omega) (by omega) drawn).2 vacantRows.1
      · cases published
        refine (supply.shows_rows (by omega) (by omega) fun few => vacantRows ?_).1
        obtain ⟨pool, represents, vacant, _⟩ := supply.free
        obtain rfl := vacant.2 few
        rw [represents.rangesOf_eq_nil]
        simp only [List.isEmpty_nil, Bool.true_and, decide_eq_true_eq]
        omega

/-- Behind the premints, an accepted mint takes the token that is generated. -/
theorem processMint_generates {db db' : Db} {common : OperationCommon}
    {entry : ScoredDeployInfoWithCommon} {entropy score : ℕ} {info info' : MintInfo}
    (deployed : db.collectionRegistry.get common.tick = some entry)
    (premints : entry.info.info.premint ≤ (db.lastMintedTokenSeqNo common.tick).getD 0)
    (success : processMint db entropy score common info false = .ok (db', .ok info')) :
    ∃ taken tokenId, db.generateTokenId common.tick entropy entry.info.info.max
        entry.info.info.premint = .ok (taken, tokenId) ∧ info' = { info with tokenId } := by
  have late : ¬ (db.lastMintedTokenSeqNo common.tick).getD 0 < entry.info.info.premint :=
    not_lt.2 premints
  unfold processMint at success
  simp only [deployed, late, decide_false, Bool.and_false, Bool.false_eq_true, if_false] at success
  split at success
  · cases success
  · split at success
    · cases success
    · split at success
      · cases success
      · split at success
        · cases success
        · rename_i room
          have below : entry.info.info.premint < entry.info.info.max := by omega
          simp only [below, Bool.not_false, decide_true, Bool.and_self, if_true] at success
          split at success
          · cases success
          · rename_i taken tokenId generated
            cases success
            exact ⟨taken, tokenId, generated, rfl⟩

/-- What the published ranges tell about the next mint of a collection: its token is the one that
the entropy of its mergeset draws from them. A token that nobody owns is drawn by an entropy only if
the place of its range and its place in the range agree modulo what the number of the ranges and the
size of the range share, and then some entropy draws it, unless that would have to be too large. -/
theorem UnforkedReachable.next_mint {kaspa : Kaspa} {db : Db}
    (reachable : UnforkedReachable kaspa db) {tick : Tick} {ranges : List AvailableRange}
    (published : db.krc721AvailableTokenIdRanges tick = some (.available ranges)) :
    (∀ (context : ContextOperation) (info : MintInfo) (db' : Db) (checked : CheckedOperation),
      context.operation.common.tick = tick → context.operation.info = .mint info →
      applyOperation kaspa db context = .ok (db', checked) → checked.error = none →
      ∃ tokenId, checked.operation.info = .mint { info with tokenId } ∧
        (poolOf ranges).draw context.mergesetEntropy = some tokenId) ∧
    ∀ (index : ℕ) (range : AvailableRange) (offset : ℕ), ranges[index]? = some range →
      offset < range.size →
      (∀ entropy ≤ u64Max, (poolOf ranges).draw entropy = some (range.startTokenId + offset) →
        index ≡ offset [MOD Nat.gcd ranges.length range.size] ∧
          (poolOf ranges).draw (entropy % Nat.lcm ranges.length range.size) =
            some (range.startTokenId + offset)) ∧
      (Nat.lcm ranges.length range.size ≤ u64Max →
        index ≡ offset [MOD Nat.gcd ranges.length range.size] →
          ∃ entropy ≤ u64Max, entropy < Nat.lcm ranges.length range.size ∧
            (poolOf ranges).draw entropy = some (range.startTokenId + offset)) := by
  obtain ⟨bound, replay⟩ := reachable.consistent.replay
  have wf := replay.wf
  obtain ⟨entry, deployed⟩ : ∃ entry, db.collectionRegistry.get tick = some entry := by
    rw [← Option.isSome_iff_exists]
    by_contra missing
    rw [Option.not_isSome_iff_eq_none] at missing
    simp only [Db.krc721AvailableTokenIdRanges, missing] at published
    cases published
  obtain ⟨sound, ids, supply⟩ := wf.deployed deployed
  have premints := supply.premint_le replay.referenced deployed sound
  obtain ⟨pool, represents, present, pools, separated⟩ :=
    supply.poolOf_published deployed sound premints published
  have length : (poolOf ranges).length = ranges.length := List.length_map _
  constructor
  · intro context info db' checked sameTick kind success accepted
    subst sameTick
    have counted := supply.issued.lastMintedTokenSeqNo
    simp only [applyOperation, kind] at success
    split at success
    · cases success
    · cases success
      cases accepted
    · rename_i minted outcome
      cases success
      obtain ⟨taken, tokenId, generated, rfl⟩ :=
        processMint_generates deployed (counted ▸ premints) outcome
      refine ⟨tokenId, rfl, ?_⟩
      rw [pools]
      exact RangeStore.generateTokenId_draws represents present generated
  · intro index range offset found inside
    have found' : (poolOf ranges)[index]? = some (range.startTokenId, range.size) := by
      rw [poolOf, List.getElem?_map, found]
      rfl
    rw [← length]
    constructor
    · intro entropy _ drawn
      exact ⟨separated.modEq_of_draw found' inside drawn, separated.draw_mod found' inside drawn⟩
    · intro fits agree
      obtain ⟨entropy, low, drawn⟩ := separated.exists_draw found' inside agree
      exact ⟨entropy, low.le.trans fits, low, drawn⟩

theorem UnforkedReachable.next_mint_sold :
    (∀ (context : ContextOperation) (info : MintInfo) (db' : Db) (checked : CheckedOperation),
      context.operation.common.tick = Sample.tick → context.operation.info = .mint info →
      applyOperation Sample.kaspa Sample.sold context = .ok (db', checked) → checked.error = none →
      ∃ tokenId, checked.operation.info = .mint { info with tokenId } ∧
        (poolOf [⟨3, 1⟩]).draw context.mergesetEntropy = some tokenId) ∧
    ∀ (index : ℕ) (range : AvailableRange) (offset : ℕ),
      ([⟨3, 1⟩] : List AvailableRange)[index]? = some range → offset < range.size →
      (∀ entropy ≤ u64Max, (poolOf [⟨3, 1⟩]).draw entropy = some (range.startTokenId + offset) →
        index ≡ offset [MOD Nat.gcd 1 range.size] ∧
          (poolOf [⟨3, 1⟩]).draw (entropy % Nat.lcm 1 range.size) =
            some (range.startTokenId + offset)) ∧
      (Nat.lcm 1 range.size ≤ u64Max → index ≡ offset [MOD Nat.gcd 1 range.size] →
        ∃ entropy ≤ u64Max, entropy < Nat.lcm 1 range.size ∧
          (poolOf [⟨3, 1⟩]).draw entropy = some (range.startTokenId + offset)) :=
  UnforkedReachable.next_mint Sample.sold_reachable (by decide +kernel)

end Krc721
