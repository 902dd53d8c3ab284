import Krc721.Processor.TokenIdProperties
import Krc721.Processor.OwnershipProperties

/-! The supply of a tick: its mints are numbered without gaps, no id is handed out twice, and
the ids that are still free are exactly those of its range rows. -/

set_option autoImplicit false

namespace Krc721

open OrderedStore

/-- The mint rows of a tick list `ids` in the order of their sequence numbers, from one. -/
structure Issued (mints : Partition MintHistoryKey Unit) (tick : Tick) (ids : List ℕ) :
    Prop where
  numbered : ∀ {reversed tokenId score},
    (mints.get ⟨tick, reversed, tokenId, score⟩).isSome →
      ∃ index, ids[index]? = some tokenId ∧ reversed = u64Max - (index + 1)
  complete : ∀ {index tokenId}, ids[index]? = some tokenId →
    ∃ score, (mints.get ⟨tick, u64Max - (index + 1), tokenId, score⟩).isSome
  single : ∀ {reversed tokenId score score'},
    (mints.get ⟨tick, reversed, tokenId, score⟩).isSome →
      (mints.get ⟨tick, reversed, tokenId, score'⟩).isSome → score = score'
  length_lt : ids.length < u64Max

namespace Issued

variable {mints : Partition MintHistoryKey Unit} {tick other : Tick} {ids : List ℕ}

theorem nil_iff : Issued mints tick [] ↔
    ∀ reversed tokenId score, mints.get ⟨tick, reversed, tokenId, score⟩ = none := by
  constructor
  · intro issued reversed tokenId score
    rw [← Option.not_isSome_iff_eq_none]
    intro present
    obtain ⟨index, found, _⟩ := issued.numbered present
    simp at found
  · intro absent
    refine ⟨?_, ?_, ?_, by decide⟩
    · intro reversed tokenId score present
      rw [absent] at present
      cases present
    · intro index tokenId found
      simp at found
    · intro reversed tokenId score score' present
      rw [absent] at present
      cases present

theorem append (issued : Issued mints tick ids) {tokenId score : ℕ}
    (room : ids.length + 1 < u64Max) :
    Issued (mints.insert (.withSeq tick (ids.length + 1) tokenId score) ()) tick
      (ids ++ [tokenId]) where
  numbered := by
    intro reversed tokenId' score' present
    rw [MintHistoryKey.withSeq, Partition.get_insert] at present
    split at present
    · rename_i same
      injection same with _ sameReversed sameId
      exact ⟨ids.length, by simp [sameId], sameReversed.symm⟩
    · obtain ⟨index, found, equal⟩ := issued.numbered present
      obtain ⟨bound, _⟩ := List.getElem?_eq_some_iff.1 found
      exact ⟨index, by rw [List.getElem?_append_left bound, found], equal⟩
  complete := by
    intro index tokenId' found
    rw [MintHistoryKey.withSeq]
    by_cases last : index = ids.length
    · subst index
      have same : tokenId = tokenId' := by simpa using found
      exact ⟨score, by simp [same]⟩
    · have bound : index < ids.length := by
        have below := (List.getElem?_eq_some_iff.1 found).1
        rw [List.length_append, List.length_singleton] at below
        omega
      rw [List.getElem?_append_left bound] at found
      obtain ⟨score', present⟩ := issued.complete found
      refine ⟨score', ?_⟩
      rw [Partition.get_insert]
      split
      · rfl
      · exact present
  single := by
    intro reversed tokenId' score' score'' left right
    have next : ∀ {id row}, ¬ (mints.get
        ⟨tick, u64Max - (ids.length + 1), id, row⟩).isSome := by
      intro id row present
      obtain ⟨index, found, equal⟩ := issued.numbered present
      obtain ⟨bound, _⟩ := List.getElem?_eq_some_iff.1 found
      omega
    rw [MintHistoryKey.withSeq, Partition.get_insert] at left right
    have earlier := @issued.single reversed tokenId' score' score''
    grind
  length_lt := by
    rw [List.length_append, List.length_singleton]
    exact room

theorem insert_other (issued : Issued mints other ids) (different : other ≠ tick)
    {seq tokenId score : ℕ} :
    Issued (mints.insert (.withSeq tick seq tokenId score) ()) other ids := by
  have unchanged : ∀ reversed tokenId' score',
      (mints.insert (.withSeq tick seq tokenId score) ()).get
        ⟨other, reversed, tokenId', score'⟩ = mints.get ⟨other, reversed, tokenId', score'⟩ := by
    intro reversed tokenId' score'
    refine Partition.get_insert_of_ne _ _ ?_
    rintro equal
    injection equal with sameTick
    exact different sameTick.symm
  refine ⟨?_, ?_, ?_, issued.length_lt⟩
  · intro reversed tokenId' score' present
    exact issued.numbered (unchanged reversed tokenId' score' ▸ present)
  · intro index tokenId' found
    obtain ⟨score', present⟩ := issued.complete found
    exact ⟨score', by rw [unchanged]; exact present⟩
  · intro reversed tokenId' score' score'' left right
    exact issued.single (unchanged reversed tokenId' score' ▸ left)
      (unchanged reversed tokenId' score'' ▸ right)

/-- The last sequence number of a tick counts its mints. -/
theorem lastMintedTokenSeqNo {store : OwnershipStore}
    (issued : Issued store.mintHistory tick ids) :
    (store.lastMintedTokenSeqNo tick).getD 0 = ids.length := by
  unfold OwnershipStore.lastMintedTokenSeqNo
  cases found : store.mintHistory.firstWhere
      (fun key => tick.bytes.isPrefixOf key.ownedKey) with
  | none =>
      have absent := Partition.firstWhere_eq_none_iff.1 found
      cases ids with
      | nil => rfl
      | cons first rest =>
          obtain ⟨score, present⟩ := @issued.complete 0 first rfl
          obtain ⟨row, stored⟩ := Option.isSome_iff_exists.1 present
          have unprefixed := absent _ row stored
          rw [← Bool.not_eq_true, List.isPrefixOf_iff_prefix, ← Tick.tickBytes_eq,
            MintHistoryKey.prefix_iff] at unprefixed
          exact absurd rfl unprefixed
  | some entry =>
      obtain ⟨⟨tick', reversed, tokenId, score⟩, row⟩ := entry
      obtain ⟨stored, matched, least⟩ := Partition.firstWhere_eq_some_iff.1 found
      rw [List.isPrefixOf_iff_prefix, ← Tick.tickBytes_eq, MintHistoryKey.prefix_iff] at matched
      subst matched
      obtain ⟨index, atIndex, rfl⟩ := issued.numbered (by rw [stored]; rfl)
      obtain ⟨bound, _⟩ := List.getElem?_eq_some_iff.1 atIndex
      have room := issued.length_lt
      obtain ⟨newest, present⟩ := @issued.complete (ids.length - 1) _
        (List.getElem?_eq_getElem (by omega))
      obtain ⟨row', stored'⟩ := Option.isSome_iff_exists.1 present
      have le := least _ row' stored'
        (by rw [List.isPrefixOf_iff_prefix, ← Tick.tickBytes_eq, MintHistoryKey.prefix_iff])
      rw [← not_lt, MintHistoryKey.lt_iff] at le
      simp only [lt_self_iff_false, true_and, false_or] at le
      simp only [Option.map_some, Option.getD_some]
      omega

end Issued

/-- The supply of a deployed tick after the mints `ids`. -/
structure Supply (owned : OwnershipStore) (ranges : RangeStore) (tick : Tick)
    (max premint : ℕ) (ids : List ℕ) : Prop where
  issued : Issued owned.mintHistory tick ids
  distinct : ids.Nodup
  within : ids.length ≤ max
  preminted : ∀ {index}, index < premint → index < ids.length → ids[index]? = some (index + 1)
  drawn : ∀ {index tokenId}, premint ≤ index → ids[index]? = some tokenId →
    premint < tokenId ∧ tokenId ≤ max
  free : ∃ pool, ranges.Represents tick pool ∧ (pool = none ↔ ids.length ≤ premint) ∧
    ∀ intervals, pool = some intervals → intervals.Separated ∧
      intervals.total + ids.length = max ∧
      ∀ tokenId, intervals.Covers tokenId ↔ premint < tokenId ∧ tokenId ≤ max ∧ tokenId ∉ ids
  rollbacks : ∀ {tokenId}, (ranges.tokenIdMeta.get ⟨tick, tokenId⟩).isSome →
    premint < tokenId ∧ tokenId ∈ ids
  known : ∀ {tokenId reversed},
    (owned.ownershipHistory.get ⟨tick, tokenId, reversed⟩).isSome → tokenId ∈ ids

namespace Supply

variable {owned : OwnershipStore} {ranges : RangeStore} {tick other : Tick}
variable {max premint : ℕ} {ids : List ℕ}

theorem mem_premint (supply : Supply owned ranges tick max premint ids)
    (room : ids.length ≤ premint) {tokenId : ℕ} (member : tokenId ∈ ids) :
    1 ≤ tokenId ∧ tokenId ≤ ids.length := by
  obtain ⟨index, found⟩ := List.mem_iff_getElem?.1 member
  obtain ⟨bound, _⟩ := List.getElem?_eq_some_iff.1 found
  have same := supply.preminted (by omega) bound
  rw [found, Option.some_inj] at same
  omega

theorem mem_bounds (supply : Supply owned ranges tick max premint ids)
    (le : premint ≤ max) {tokenId : ℕ} (member : tokenId ∈ ids) :
    1 ≤ tokenId ∧ tokenId ≤ max := by
  obtain ⟨index, found⟩ := List.mem_iff_getElem?.1 member
  obtain ⟨bound, _⟩ := List.getElem?_eq_some_iff.1 found
  rcases lt_or_ge index premint with early | late
  · have same := supply.preminted early bound
    rw [found, Option.some_inj] at same
    omega
  · have bounds := supply.drawn late found
    omega

/-- The pool the next random mint draws from holds the free ids above the preminted ones. -/
theorem drawPool (supply : Supply owned ranges tick max premint ids)
    (ready : premint ≤ ids.length) (room : ids.length < max) :
    ∃ pool, ranges.Represents tick pool ∧ (pool = none ↔ ids.length ≤ premint) ∧
      (RangeStore.drawPool max premint pool).Separated ∧
      (RangeStore.drawPool max premint pool).total + ids.length = max ∧
      ∀ tokenId, (RangeStore.drawPool max premint pool).Covers tokenId ↔
        premint < tokenId ∧ tokenId ≤ max ∧ tokenId ∉ ids := by
  obtain ⟨pool, represents, vacant, rows⟩ := supply.free
  refine ⟨pool, represents, vacant, ?_⟩
  cases pool with
  | some intervals => exact rows intervals rfl
  | none =>
      have atPremint : ids.length = premint := by
        have le := vacant.1 rfl
        omega
      refine ⟨IntervalPool.separated_singleton (by omega), ?_, ?_⟩
      · simp only [RangeStore.drawPool, Option.getD_none, IntervalPool.total_cons,
          IntervalPool.total_nil]
        omega
      · intro tokenId
        simp only [RangeStore.drawPool, Option.getD_none, IntervalPool.covers_cons,
          IntervalPool.covers_nil, or_false]
        have preminted : tokenId ∈ ids → _ := supply.mem_premint atPremint.le
        constructor
        · intro bounds
          exact ⟨by omega, by omega, fun member => by have := preminted member; omega⟩
        · intro bounds
          omega

/-- The rows of other ticks do not matter. -/
theorem congr {owned' : OwnershipStore} {ranges' : RangeStore}
    (supply : Supply owned ranges tick max premint ids)
    (mints : Issued owned.mintHistory tick ids → Issued owned'.mintHistory tick ids)
    (history : ∀ {tokenId reversed},
      (owned'.ownershipHistory.get ⟨tick, tokenId, reversed⟩).isSome → tokenId ∈ ids)
    (rows : ranges.SameTick ranges' tick)
    (tokenIdMeta : ∀ tokenId, ranges'.tokenIdMeta.get ⟨tick, tokenId⟩ =
      ranges.tokenIdMeta.get ⟨tick, tokenId⟩) :
    Supply owned' ranges' tick max premint ids where
  issued := mints supply.issued
  distinct := supply.distinct
  within := supply.within
  preminted := supply.preminted
  drawn := supply.drawn
  free := by
    obtain ⟨pool, represents, vacant, intervals⟩ := supply.free
    exact ⟨pool, represents.congr rows, vacant, intervals⟩
  rollbacks := fun present => supply.rollbacks (tokenIdMeta _ ▸ present)
  known := history

theorem mint_other {seq tokenId score : ℕ} {toSpk : ScriptPublicKey} {ranges' : RangeStore}
    (supply : Supply owned ranges other max premint ids) (different : other ≠ tick)
    (rows : ranges.SameTick ranges' other)
    (tokenIdMeta : ∀ id, ranges'.tokenIdMeta.get ⟨other, id⟩ =
      ranges.tokenIdMeta.get ⟨other, id⟩) :
    Supply (owned.recordMint tick seq tokenId score toSpk) ranges' other max premint ids := by
  refine supply.congr (fun issued => issued.insert_other different) ?_ rows tokenIdMeta
  intro tokenId' reversed present
  rw [OwnershipStore.recordMint, OwnershipHistoryKey.withScore,
    Partition.get_insert_of_ne] at present
  · exact supply.known present
  · rintro equal
    injection equal with sameTick
    exact different sameTick.symm

/-- A transfer concerns an id that is already out. -/
theorem transfer {tokenId score : ℕ} {fromSpk toSpk : ScriptPublicKey}
    (supply : Supply owned ranges other max premint ids)
    (out : other = tick → tokenId ∈ ids) :
    Supply (owned.recordTransfer tick tokenId score fromSpk toSpk) ranges other max premint
      ids := by
  refine supply.congr id ?_ ⟨rfl, fun _ => rfl⟩ fun _ => rfl
  intro tokenId' reversed present
  rw [OwnershipStore.recordTransfer, OwnershipHistoryKey.withScore,
    Partition.get_insert] at present
  split at present
  · rename_i same
    injection same with sameTick sameId
    exact sameId ▸ out sameTick.symm
  · exact supply.known present

/-- What `recordMint` does to the known ids of its tick. -/
theorem known_mint (supply : Supply owned ranges tick max premint ids)
    {seq minted score tokenId reversed : ℕ} {toSpk : ScriptPublicKey}
    (present : ((owned.recordMint tick seq minted score toSpk).ownershipHistory.get
      ⟨tick, tokenId, reversed⟩).isSome) : tokenId ∈ ids ++ [minted] := by
  rw [OwnershipStore.recordMint, OwnershipHistoryKey.withScore, Partition.get_insert] at present
  split at present
  · rename_i same
    injection same with _ sameId
    simp [sameId]
  · exact List.mem_append_left _ (supply.known present)

/-- A premint takes the next sequence number as its id. -/
theorem premint_step (supply : Supply owned ranges tick max premint ids)
    (early : ids.length < premint) (le : premint ≤ max) (bounded : max < u64Max)
    (score : ℕ) (toSpk : ScriptPublicKey) :
    Supply (owned.recordMint tick (ids.length + 1) (ids.length + 1) score toSpk) ranges tick
      max premint (ids ++ [ids.length + 1]) where
  issued := supply.issued.append (by omega)
  distinct := by
    rw [List.nodup_append]
    refine ⟨supply.distinct, List.nodup_singleton _, ?_⟩
    intro earlier member next nextMember
    have bounds := supply.mem_premint early.le member
    rw [List.mem_singleton] at nextMember
    omega
  within := by
    rw [List.length_append, List.length_singleton]
    omega
  preminted := by
    intro index below bound
    rw [List.length_append, List.length_singleton] at bound
    rcases Nat.lt_succ_iff_lt_or_eq.1 bound with earlier | last
    · rw [List.getElem?_append_left earlier]
      exact supply.preminted below earlier
    · subst index
      simp
  drawn := by
    intro index tokenId late found
    have bound := (List.getElem?_eq_some_iff.1 found).1
    rw [List.length_append, List.length_singleton] at bound
    omega
  free := by
    obtain ⟨pool, represents, vacant, rows⟩ := supply.free
    refine ⟨pool, represents, ?_, ?_⟩
    · rw [List.length_append, List.length_singleton]
      exact ⟨fun _ => by omega, fun _ => vacant.2 early.le⟩
    · rintro intervals rfl
      exact absurd (vacant.2 early.le) (Option.some_ne_none _)
  rollbacks := by
    intro tokenId present
    obtain ⟨above, member⟩ := supply.rollbacks present
    exact ⟨above, List.mem_append_left _ member⟩
  known := supply.known_mint

/-- The supply after a mint has taken a free id from the pool it draws from. -/
theorem taken_step (supply : Supply owned ranges tick max premint ids)
    (ready : premint ≤ ids.length) (bounded : max < u64Max) {pool : IntervalPool}
    (separated : pool.Separated) (total : pool.total + ids.length = max)
    (covers : ∀ tokenId, pool.Covers tokenId ↔
      premint < tokenId ∧ tokenId ≤ max ∧ tokenId ∉ ids)
    {taken : RangeStore} {index start size offset : ℕ} {rollback : PreModRange}
    (found : pool[index]? = some (start, size)) (inside : offset < size)
    (outcome : RangeStore.Taken taken ranges tick (pool.takeAt index start size offset)
      (start + offset) rollback) (score : ℕ) (toSpk : ScriptPublicKey) :
    Supply (owned.recordMint tick (ids.length + 1) (start + offset) score toSpk) taken tick
      max premint (ids ++ [start + offset]) := by
  obtain ⟨above, below, unissued⟩ :=
    (covers _).1 (IntervalPool.covers_of_getElem? found inside)
  have less := IntervalPool.total_takeAt found inside
  refine ⟨supply.issued.append (by omega), ?_, ?_, ?_, ?_, ?_, ?_, supply.known_mint⟩
  · rw [List.nodup_append]
    refine ⟨supply.distinct, List.nodup_singleton _, ?_⟩
    intro earlier member next nextMember
    rw [List.mem_singleton] at nextMember
    rintro rfl
    exact unissued (nextMember ▸ member)
  · rw [List.length_append, List.length_singleton]
    omega
  · intro index below bound
    rw [List.getElem?_append_left (by omega)]
    exact supply.preminted below (by omega)
  · intro index tokenId late atIndex
    by_cases earlier : index < ids.length
    · rw [List.getElem?_append_left earlier] at atIndex
      exact supply.drawn late atIndex
    · have bound := (List.getElem?_eq_some_iff.1 atIndex).1
      rw [List.length_append, List.length_singleton] at bound
      have last : index = ids.length := by omega
      subst index
      have same : start + offset = tokenId := by simpa using atIndex
      omega
  · refine ⟨some _, outcome.holds, ?_, ?_⟩
    · rw [List.length_append, List.length_singleton]
      exact iff_of_false (Option.some_ne_none _) (by omega)
    · rintro intervals equal
      cases equal
      refine ⟨separated.takeAt found inside, ?_, ?_⟩
      · rw [List.length_append, List.length_singleton]
        omega
      · intro tokenId
        rw [separated.covers_takeAt found inside, covers, List.mem_append, List.mem_singleton]
        tauto
  · intro tokenId stored
    rw [outcome.tokenIdMeta, Partition.get_insert] at stored
    split at stored
    · rename_i same
      injection same with _ sameId
      subst sameId
      exact ⟨above, by simp⟩
    · obtain ⟨high, member⟩ := supply.rollbacks stored
      exact ⟨high, List.mem_append_left _ member⟩

/-- A random mint never faults, hands out a free id, and can be rolled back. -/
theorem draw_step (supply : Supply owned ranges tick max premint ids)
    (ready : premint ≤ ids.length) (room : ids.length < max) (bounded : max < u64Max)
    (entropy score : ℕ) (toSpk : ScriptPublicKey) :
    ∃ taken tokenId,
      ranges.generateTokenId tick entropy max premint = .ok (taken, tokenId) ∧
      premint < tokenId ∧ tokenId ≤ max ∧ tokenId ∉ ids ∧
      taken.rollbackTokenGeneration tick tokenId = .ok ranges ∧
      (∀ other, other ≠ tick → ranges.SameTick taken other) ∧
      (∀ other, other ≠ tick → ∀ id, taken.tokenIdMeta.get ⟨other, id⟩ =
        ranges.tokenIdMeta.get ⟨other, id⟩) ∧
      Supply (owned.recordMint tick (ids.length + 1) tokenId score toSpk) taken tick
        max premint (ids ++ [tokenId]) := by
  obtain ⟨pool, represents, vacant, separated, total, covers⟩ := supply.drawPool ready room
  have present : RangeStore.drawPool max premint pool ≠ [] := by
    intro empty
    rw [empty, IntervalPool.total_nil] at total
    omega
  have within : ∀ id, (RangeStore.drawPool max premint pool).Covers id → 1 ≤ id ∧ id ≤ max := by
    intro id covered
    have bounds := (covers id).1 covered
    omega
  obtain ⟨taken, index, start, size, offset, found, inside, success, outcome⟩ :=
    RangeStore.generateTokenId_taken represents separated present within entropy
  obtain ⟨above, below, unissued⟩ :=
    (covers _).1 (IntervalPool.covers_of_getElem? found inside)
  have fresh : ranges.tokenIdMeta.get ⟨tick, start + offset⟩ = none := by
    rw [← Option.not_isSome_iff_eq_none]
    exact fun stored => unissued (supply.rollbacks stored).2
  refine ⟨taken, start + offset, success, above, below, unissued,
    RangeStore.rollbackTokenGeneration_taken represents found fresh outcome, ?_, ?_,
    supply.taken_step ready bounded separated total covers found inside outcome score toSpk⟩
  · intro other different
    have same := outcome.frame other different
    exact ⟨same.length.symm, fun index => (same.ranges index).symm⟩
  · intro other different id
    rw [outcome.tokenIdMeta, Partition.get_insert_of_ne]
    rintro equal
    injection equal with sameTick
    exact different sameTick.symm

end Supply

end Krc721
