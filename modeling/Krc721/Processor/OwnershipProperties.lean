import Krc721.Store.Threshold
import Krc721.Processor.Removal

/-! The five ownership partitions agree with each other. A mint, a transfer and a sale keep
them in agreement, and rebuilding the owners of the touched tokens restores it. -/

set_option autoImplicit false

namespace Krc721

open OrderedStore

/-! The score of a row, per partition. -/

def TokenMintsKey.rowScore (key : TokenMintsKey) (_ : Unit) : ℕ := key.score

def MintHistoryKey.rowScore (key : MintHistoryKey) (_ : Unit) : ℕ := key.score

def OwnershipHistoryKey.rowScore (key : OwnershipHistoryKey) (_ : ScriptPublicKey) : ℕ :=
  u64Max - key.reversedScore

theorem isSome_below_changes {changes : Partition TokenMintsKey Unit} {threshold : ℕ}
    {key : TokenMintsKey} :
    ((changes.below TokenMintsKey.rowScore threshold).get key).isSome ↔
      (changes.get key).isSome ∧ key.score < threshold :=
  Partition.isSome_get_below _ fun _ => rfl

theorem isSome_below_mints {mints : Partition MintHistoryKey Unit} {threshold : ℕ}
    {key : MintHistoryKey} :
    ((mints.below MintHistoryKey.rowScore threshold).get key).isSome ↔
      (mints.get key).isSome ∧ key.score < threshold :=
  Partition.isSome_get_below _ fun _ => rfl

theorem isSome_below_history {history : Partition OwnershipHistoryKey ScriptPublicKey}
    {threshold : ℕ} {key : OwnershipHistoryKey} :
    ((history.below OwnershipHistoryKey.rowScore threshold).get key).isSome ↔
      (history.get key).isSome ∧ u64Max - key.reversedScore < threshold :=
  Partition.isSome_get_below _ fun _ => rfl

namespace OwnershipStore

/-! The newest row of a token. -/

theorem lastOwner_eq_some_iff {store : OwnershipStore} {token : OwnershipKey}
    {owner : ScriptPublicKey} {modTxScore : ℕ} :
    store.lastOwnerWithTxModScore token = some (owner, modTxScore) ↔
      ∃ reversed, modTxScore = u64Max - reversed ∧
        store.ownershipHistory.get ⟨token.tick, token.tokenId, reversed⟩ = some owner ∧
        ∀ other, (store.ownershipHistory.get ⟨token.tick, token.tokenId, other⟩).isSome →
          reversed ≤ other := by
  simp only [lastOwnerWithTxModScore, Option.map_eq_some_iff, Prod.exists, Prod.mk.injEq]
  constructor
  · rintro ⟨⟨tick, tokenId, reversed⟩, owner, found, rfl, rfl⟩
    obtain ⟨stored, matched, least⟩ := Partition.firstWhere_eq_some_iff.1 found
    rw [List.isPrefixOf_iff_prefix, OwnershipHistoryKey.prefix_iff] at matched
    obtain ⟨rfl, rfl⟩ := matched
    refine ⟨reversed, rfl, stored, fun other present => ?_⟩
    obtain ⟨value, row⟩ := Option.isSome_iff_exists.1 present
    have le := least _ value row
      (by rw [List.isPrefixOf_iff_prefix, OwnershipHistoryKey.prefix_iff]; exact ⟨rfl, rfl⟩)
    rw [← not_lt, OwnershipHistoryKey.lt_iff] at le
    simp only [lt_self_iff_false, true_and, false_or] at le
    omega
  · rintro ⟨reversed, rfl, stored, least⟩
    refine ⟨_, owner, Partition.firstWhere_eq_some_iff.2 ⟨stored, ?_, ?_⟩, rfl, rfl⟩
    · rw [List.isPrefixOf_iff_prefix, OwnershipHistoryKey.prefix_iff]
      exact ⟨rfl, rfl⟩
    · rintro ⟨tick, tokenId, other⟩ value row matched
      rw [List.isPrefixOf_iff_prefix, OwnershipHistoryKey.prefix_iff] at matched
      obtain ⟨rfl, rfl⟩ := matched
      have le := least other (by rw [row]; rfl)
      rw [← not_lt, OwnershipHistoryKey.lt_iff]
      simp only [lt_self_iff_false, true_and, false_or]
      omega

theorem lastOwner_eq_none_iff {store : OwnershipStore} {token : OwnershipKey} :
    store.lastOwnerWithTxModScore token = none ↔
      ∀ reversed, store.ownershipHistory.get ⟨token.tick, token.tokenId, reversed⟩ = none := by
  simp only [lastOwnerWithTxModScore, Option.map_eq_none_iff, Partition.firstWhere_eq_none_iff]
  constructor
  · intro unmatched reversed
    rw [Option.eq_none_iff_forall_ne_some]
    intro owner stored
    have unprefixed := unmatched _ owner stored
    rw [← Bool.not_eq_true, List.isPrefixOf_iff_prefix,
      OwnershipHistoryKey.prefix_iff] at unprefixed
    exact unprefixed ⟨rfl, rfl⟩
  · rintro absent ⟨tick, tokenId, reversed⟩ owner stored
    rw [← Bool.not_eq_true, List.isPrefixOf_iff_prefix, OwnershipHistoryKey.prefix_iff]
    rintro ⟨rfl, rfl⟩
    rw [absent] at stored
    cases stored

theorem lastOwner_congr {left right : OwnershipStore} {token : OwnershipKey}
    (same : ∀ reversed,
      left.ownershipHistory.get ⟨token.tick, token.tokenId, reversed⟩ =
        right.ownershipHistory.get ⟨token.tick, token.tokenId, reversed⟩) :
    left.lastOwnerWithTxModScore token = right.lastOwnerWithTxModScore token := by
  cases found : right.lastOwnerWithTxModScore token with
  | none =>
      rw [lastOwner_eq_none_iff] at found ⊢
      intro reversed
      rw [same, found]
  | some entry =>
      obtain ⟨owner, modTxScore⟩ := entry
      rw [lastOwner_eq_some_iff] at found ⊢
      simpa only [same] using found

/-- The partitions agree, and every row is below the bound. -/
structure Wf (store : OwnershipStore) (bound : ℕ) : Prop where
  bounded : bound ≤ u64Max + 1
  under : store.ownershipChanges.Under TokenMintsKey.rowScore bound
  single : ∀ {score tick tokenId reversed reversed'},
    (store.ownershipChanges.get ⟨score, tick, tokenId, reversed⟩).isSome →
    (store.ownershipChanges.get ⟨score, tick, tokenId, reversed'⟩).isSome →
    reversed = reversed'
  history : ∀ {tick tokenId reversed},
    (store.ownershipHistory.get ⟨tick, tokenId, reversed⟩).isSome ↔
      ∃ score seq, reversed = u64Max - score ∧
        (store.ownershipChanges.get ⟨score, tick, tokenId, seq⟩).isSome
  mints : ∀ {tick reversed tokenId score},
    (store.mintHistory.get ⟨tick, reversed, tokenId, score⟩).isSome ↔
      (store.ownershipChanges.get ⟨score, tick, tokenId, reversed⟩).isSome ∧ reversed < u64Max
  current : ∀ token, store.currentOwnership.get token =
    (store.lastOwnerWithTxModScore token).map fun entry => ⟨entry.1, entry.2⟩
  holdings : ∀ {spk tick tokenId score},
    store.addressHoldings.get ⟨spk, tick, tokenId⟩ = some score ↔
      store.currentOwnership.get ⟨tick, tokenId⟩ = some ⟨spk, score⟩

namespace Wf

variable {store : OwnershipStore} {bound : ℕ}

theorem score_lt (wf : store.Wf bound) {key : TokenMintsKey}
    (present : (store.ownershipChanges.get key).isSome) : key.score < bound := by
  obtain ⟨value, stored⟩ := Option.isSome_iff_exists.1 present
  exact wf.under key value stored

theorem score_le (wf : store.Wf bound) {key : TokenMintsKey}
    (present : (store.ownershipChanges.get key).isSome) : key.score ≤ u64Max := by
  have low := wf.score_lt present
  have bounded := wf.bounded
  omega

theorem mono {higher : ℕ} (wf : store.Wf bound) (le : bound ≤ higher)
    (bounded : higher ≤ u64Max + 1) : store.Wf higher :=
  ⟨bounded, wf.under.mono le, wf.single, wf.history, wf.mints, wf.current, wf.holdings⟩

theorem empty (bounded : bound ≤ u64Max + 1) : ({} : OwnershipStore).Wf bound where
  bounded := bounded
  under := Partition.under_empty
  single := by simp
  history := by simp
  mints := by simp
  current := by
    intro token
    rw [lastOwner_eq_none_iff.2 fun reversed => Partition.get_empty _]
    simp
  holdings := by simp

theorem current_eq_none_iff (wf : store.Wf bound) {token : OwnershipKey} :
    store.currentOwnership.get token = none ↔
      ∀ reversed, store.ownershipHistory.get ⟨token.tick, token.tokenId, reversed⟩ = none := by
  rw [wf.current, Option.map_eq_none_iff, lastOwner_eq_none_iff]

end Wf

theorem lastOwner_insert {store new : OwnershipStore} {tick : Tick} {tokenId reversed : ℕ}
    {owner : ScriptPublicKey}
    (rows : new.ownershipHistory =
      store.ownershipHistory.insert ⟨tick, tokenId, reversed⟩ owner)
    (newest : ∀ other, (store.ownershipHistory.get ⟨tick, tokenId, other⟩).isSome →
      reversed ≤ other) (token : OwnershipKey) :
    new.lastOwnerWithTxModScore token =
      if token = ⟨tick, tokenId⟩ then some (owner, u64Max - reversed)
      else store.lastOwnerWithTxModScore token := by
  split
  · subst token
    rw [lastOwner_eq_some_iff, rows]
    refine ⟨reversed, rfl, by simp, fun other present => ?_⟩
    by_cases same : reversed = other
    · exact same.le
    · rw [Partition.get_insert_of_ne _ _ (by simpa using same)] at present
      exact newest other present
  · rename_i different
    refine lastOwner_congr fun other => ?_
    rw [rows]
    refine Partition.get_insert_of_ne _ _ ?_
    rintro equal
    injection equal with sameTick sameId
    subst sameTick sameId
    exact different rfl

namespace Wf

variable {store : OwnershipStore} {bound score tokenId seq : ℕ} {tick : Tick}
variable {fromSpk toSpk : ScriptPublicKey}

/-- A new history row comes with exactly one change row. -/
theorem single_insert (wf : store.Wf bound)
    (fresh : store.ownershipHistory.get ⟨tick, tokenId, u64Max - score⟩ = none)
    {score' tokenId' reversed reversed' reversed'' : ℕ} {tick' : Tick}
    (left : ((store.ownershipChanges.insert ⟨score, tick, tokenId, reversed''⟩ ()).get
      ⟨score', tick', tokenId', reversed⟩).isSome)
    (right : ((store.ownershipChanges.insert ⟨score, tick, tokenId, reversed''⟩ ()).get
      ⟨score', tick', tokenId', reversed'⟩).isSome) : reversed = reversed' := by
  have unchanged : ∀ seq, store.ownershipChanges.get ⟨score, tick, tokenId, seq⟩ = none := by
    intro seq
    cases stored : store.ownershipChanges.get ⟨score, tick, tokenId, seq⟩ with
    | none => rfl
    | some row =>
        have present := wf.history.2 ⟨score, seq, rfl, by rw [stored]; rfl⟩
        rw [fresh] at present
        cases present
  have single := @wf.single score' tick' tokenId' reversed reversed'
  grind

theorem history_insert (wf : store.Wf bound) {tick' : Tick} {tokenId' reversed reversed' : ℕ} :
    ((store.ownershipHistory.insert ⟨tick, tokenId, u64Max - score⟩ toSpk).get
        ⟨tick', tokenId', reversed⟩).isSome ↔
      ∃ score' seq, reversed = u64Max - score' ∧
        ((store.ownershipChanges.insert ⟨score, tick, tokenId, reversed'⟩ ()).get
          ⟨score', tick', tokenId', seq⟩).isSome := by
  have history := @wf.history tick' tokenId' reversed
  simp only [Partition.get_insert, OwnershipHistoryKey.mk.injEq, TokenMintsKey.mk.injEq]
  constructor
  · intro present
    by_cases same : tick = tick' ∧ tokenId = tokenId' ∧ u64Max - score = reversed
    · obtain ⟨rfl, rfl, rfl⟩ := same
      exact ⟨score, reversed', rfl, by simp⟩
    · rw [if_neg same] at present
      obtain ⟨score', seq, equal, row⟩ := history.1 present
      refine ⟨score', seq, equal, ?_⟩
      split
      · rfl
      · exact row
  · rintro ⟨score', seq, rfl, row⟩
    split
    · rfl
    · rename_i different
      rw [if_neg] at row
      · exact history.2 ⟨score', seq, rfl, row⟩
      · rintro ⟨rfl, rfl, rfl, rfl⟩
        exact different ⟨rfl, rfl, rfl⟩

theorem current_insert {new : OwnershipStore} (wf : store.Wf bound) (le : score ≤ u64Max)
    (rows : new.ownershipHistory =
      store.ownershipHistory.insert ⟨tick, tokenId, u64Max - score⟩ toSpk)
    (written : new.currentOwnership =
      store.currentOwnership.insert ⟨tick, tokenId⟩ ⟨toSpk, score⟩)
    (newest : ∀ other, (store.ownershipHistory.get ⟨tick, tokenId, other⟩).isSome →
      u64Max - score ≤ other) (token : OwnershipKey) :
    new.currentOwnership.get token =
      (new.lastOwnerWithTxModScore token).map fun entry => ⟨entry.1, entry.2⟩ := by
  have restored : u64Max - (u64Max - score) = score := by omega
  rw [written, Partition.get_insert, lastOwner_insert rows newest, restored]
  by_cases same : token = ⟨tick, tokenId⟩
  · rw [if_pos same.symm, if_pos same]
    rfl
  · rw [if_neg (Ne.symm same), if_neg same, wf.current]

theorem recordMint (wf : store.Wf bound) (low : score < bound) (counted : 0 < seq)
    (fresh : ∀ reversed, store.ownershipHistory.get ⟨tick, tokenId, reversed⟩ = none) :
    (store.recordMint tick seq tokenId score toSpk).Wf bound where
  bounded := wf.bounded
  under := wf.under.insert low
  single := wf.single_insert (fresh _)
  history := wf.history_insert
  mints := by
    intro tick' reversed tokenId' score'
    have mints := @wf.mints tick' reversed tokenId' score'
    simp only [OwnershipStore.recordMint, MintHistoryKey.withSeq, TokenMintsKey.withSeq,
      Partition.get_insert, MintHistoryKey.mk.injEq, TokenMintsKey.mk.injEq]
    have reversed_lt : u64Max - seq < u64Max := by
      have positive : 0 < u64Max := by decide
      omega
    grind
  current := wf.current_insert (by have bounded := wf.bounded; omega) rfl rfl
    fun other present => by rw [fresh other] at present; cases present
  holdings := by
    intro spk tick' tokenId' score'
    have unowned : store.currentOwnership.get ⟨tick, tokenId⟩ = none :=
      wf.current_eq_none_iff.2 fresh
    have holdings := @wf.holdings spk tick' tokenId' score'
    simp only [OwnershipStore.recordMint, Partition.get_insert, AddressHoldingKey.mk.injEq,
      OwnershipKey.mk.injEq]
    grind

/-- Every stored change of a token is older than a score that bounds the partitions. -/
theorem older (wf : store.Wf bound) (reached : bound ≤ score) {other : ℕ}
    (present : (store.ownershipHistory.get ⟨tick, tokenId, other⟩).isSome) :
    u64Max - score ≤ other ∧ (score ≤ u64Max → other ≠ u64Max - score) := by
  obtain ⟨score', seq, rfl, row⟩ := wf.history.1 present
  have low := wf.score_lt row
  have le := wf.score_le row
  simp only at low le
  omega

theorem recordTransfer (wf : store.Wf bound) (reached : bound ≤ score) (le : score ≤ u64Max)
    {modTxScore : ℕ}
    (owned : store.currentOwnership.get ⟨tick, tokenId⟩ = some ⟨fromSpk, modTxScore⟩) :
    (store.recordTransfer tick tokenId score fromSpk toSpk).Wf (score + 1) where
  bounded := by omega
  under := (wf.under.mono (by omega)).insert (Nat.lt_succ_self score)
  single := by
    refine wf.single_insert ?_
    cases stored : store.ownershipHistory.get ⟨tick, tokenId, u64Max - score⟩ with
    | none => rfl
    | some owner => exact absurd rfl ((wf.older reached (by rw [stored]; rfl)).2 le)
  history := wf.history_insert
  mints := by
    intro tick' reversed tokenId' score'
    have mints := @wf.mints tick' reversed tokenId' score'
    simp only [OwnershipStore.recordTransfer, TokenMintsKey.withSeq, Partition.get_insert,
      TokenMintsKey.mk.injEq]
    rw [mints]
    constructor
    · rintro ⟨present, low⟩
      refine ⟨?_, low⟩
      split
      · rfl
      · exact present
    · rintro ⟨present, low⟩
      rw [if_neg (by omega)] at present
      exact ⟨present, low⟩
  current := wf.current_insert le rfl rfl fun other present => (wf.older reached present).1
  holdings := by
    intro spk tick' tokenId' score'
    have holdings := @wf.holdings spk tick' tokenId' score'
    simp only [OwnershipStore.recordTransfer, Partition.get_insert, Partition.get_erase,
      AddressHoldingKey.mk.injEq, OwnershipKey.mk.injEq]
    grind

end Wf

/-! Rebuilding the owners of the touched tokens. -/

section Rebuild

variable {store : OwnershipStore} {affected : List (TokenMintsKey × Option ScriptPublicKey)}

@[simp] theorem rebuildToken_mintHistory (store : OwnershipStore) (key : TokenMintsKey)
    (holder : Option ScriptPublicKey) :
    (store.rebuildToken key holder).mintHistory = store.mintHistory := by
  unfold rebuildToken
  cases holder <;> dsimp only <;> split <;> rfl

@[simp] theorem rebuildToken_ownershipChanges (store : OwnershipStore) (key : TokenMintsKey)
    (holder : Option ScriptPublicKey) :
    (store.rebuildToken key holder).ownershipChanges = store.ownershipChanges := by
  unfold rebuildToken
  cases holder <;> dsimp only <;> split <;> rfl

@[simp] theorem rebuildToken_ownershipHistory (store : OwnershipStore) (key : TokenMintsKey)
    (holder : Option ScriptPublicKey) :
    (store.rebuildToken key holder).ownershipHistory = store.ownershipHistory := by
  unfold rebuildToken
  cases holder <;> dsimp only <;> split <;> rfl

/-- The rebuild reads the history and leaves it alone. -/
theorem rebuildOwnershipState_history (store : OwnershipStore)
    (affected : List (TokenMintsKey × Option ScriptPublicKey)) :
    (store.rebuildOwnershipState affected).mintHistory = store.mintHistory ∧
      (store.rebuildOwnershipState affected).ownershipChanges = store.ownershipChanges ∧
      (store.rebuildOwnershipState affected).ownershipHistory = store.ownershipHistory := by
  unfold rebuildOwnershipState
  induction affected generalizing store with
  | nil => exact ⟨rfl, rfl, rfl⟩
  | cons entry affected ih =>
      obtain ⟨mints, changes, history⟩ := ih (store.rebuildToken entry.1 entry.2)
      simp only [rebuildToken_mintHistory, rebuildToken_ownershipChanges,
        rebuildToken_ownershipHistory] at mints changes history
      exact ⟨mints, changes, history⟩

theorem lastOwner_rebuildToken (store : OwnershipStore) (key : TokenMintsKey)
    (holder : Option ScriptPublicKey) (token : OwnershipKey) :
    (store.rebuildToken key holder).lastOwnerWithTxModScore token =
      store.lastOwnerWithTxModScore token :=
  lastOwner_congr fun reversed => by rw [rebuildToken_ownershipHistory]

/-- A touched token of the list. -/
def Touched (affected : List (TokenMintsKey × Option ScriptPublicKey)) (token : OwnershipKey) :
    Prop :=
  ∃ entry ∈ affected, (⟨entry.1.tick, entry.1.tokenId⟩ : OwnershipKey) = token

/-- An address that a removed history row of a touched token named. -/
def PastHolder (affected : List (TokenMintsKey × Option ScriptPublicKey))
    (token : OwnershipKey) (spk : ScriptPublicKey) : Prop :=
  ∃ entry ∈ affected, (⟨entry.1.tick, entry.1.tokenId⟩ : OwnershipKey) = token ∧
    entry.2 = some spk

theorem currentOwnership_rebuildToken (store : OwnershipStore) (key : TokenMintsKey)
    (holder : Option ScriptPublicKey) (token : OwnershipKey) :
    (store.rebuildToken key holder).currentOwnership.get token =
      if (⟨key.tick, key.tokenId⟩ : OwnershipKey) = token then
        match store.lastOwnerWithTxModScore token with
        | some (owner, modTxScore) => some ⟨owner, modTxScore⟩
        | none => store.currentOwnership.get token
      else store.currentOwnership.get token := by
  have same : ∀ spk, lastOwnerWithTxModScore { store with
      addressHoldings := store.addressHoldings.erase ⟨spk, key.tick, key.tokenId⟩ }
        ⟨key.tick, key.tokenId⟩ =
      store.lastOwnerWithTxModScore ⟨key.tick, key.tokenId⟩ := fun spk => rfl
  unfold rebuildToken
  cases holder with
  | none =>
      cases found : store.lastOwnerWithTxModScore ⟨key.tick, key.tokenId⟩ <;>
        grind
  | some spk =>
      simp only [same]
      cases found : store.lastOwnerWithTxModScore ⟨key.tick, key.tokenId⟩ <;>
        grind

theorem addressHoldings_rebuildToken (store : OwnershipStore) (key : TokenMintsKey)
    (holder : Option ScriptPublicKey) (spk : ScriptPublicKey) (token : OwnershipKey) :
    (store.rebuildToken key holder).addressHoldings.get ⟨spk, token.tick, token.tokenId⟩ =
      if (⟨key.tick, key.tokenId⟩ : OwnershipKey) = token then
        match store.lastOwnerWithTxModScore token with
        | some (owner, modTxScore) =>
            if owner = spk then some modTxScore
            else if holder = some spk then none
            else store.addressHoldings.get ⟨spk, token.tick, token.tokenId⟩
        | none =>
            if holder = some spk then none
            else store.addressHoldings.get ⟨spk, token.tick, token.tokenId⟩
      else store.addressHoldings.get ⟨spk, token.tick, token.tokenId⟩ := by
  have same : ∀ spk, lastOwnerWithTxModScore { store with
      addressHoldings := store.addressHoldings.erase ⟨spk, key.tick, key.tokenId⟩ }
        ⟨key.tick, key.tokenId⟩ =
      store.lastOwnerWithTxModScore ⟨key.tick, key.tokenId⟩ := fun spk => rfl
  obtain ⟨tick, tokenId⟩ := token
  unfold rebuildToken
  cases holder with
  | none =>
      cases found : store.lastOwnerWithTxModScore ⟨key.tick, key.tokenId⟩ <;>
        grind
  | some spk =>
      simp only [same]
      cases found : store.lastOwnerWithTxModScore ⟨key.tick, key.tokenId⟩ <;>
        grind

theorem currentOwnership_rebuild (store : OwnershipStore)
    (affected : List (TokenMintsKey × Option ScriptPublicKey)) (token : OwnershipKey) :
    (Touched affected token → (store.rebuildOwnershipState affected).currentOwnership.get token =
      match store.lastOwnerWithTxModScore token with
      | some (owner, modTxScore) => some ⟨owner, modTxScore⟩
      | none => store.currentOwnership.get token) ∧
    (¬ Touched affected token →
      (store.rebuildOwnershipState affected).currentOwnership.get token =
        store.currentOwnership.get token) := by
  unfold rebuildOwnershipState
  induction affected generalizing store with
  | nil => exact ⟨fun ⟨entry, member, _⟩ => (List.not_mem_nil member).elim, fun _ => rfl⟩
  | cons entry affected ih =>
      have tail := ih (store.rebuildToken entry.1 entry.2)
      have head := currentOwnership_rebuildToken store entry.1 entry.2 token
      rw [lastOwner_rebuildToken] at tail
      have split : Touched (entry :: affected) token ↔
          (⟨entry.1.tick, entry.1.tokenId⟩ : OwnershipKey) = token ∨
            Touched affected token := by
        simp [Touched]
      rw [List.foldl_cons, split]
      clear ih
      by_cases later : Touched affected token
      · refine ⟨fun _ => ?_, fun untouched => absurd (Or.inr later) untouched⟩
        rw [tail.1 later]
        cases found : store.lastOwnerWithTxModScore token with
        | none => rw [head, found, ite_self]
        | some entry => rfl
      · rw [tail.2 later, head]
        refine ⟨fun earlier => if_pos (earlier.resolve_right later), fun untouched => ?_⟩
        exact if_neg fun same => untouched (Or.inl same)

theorem addressHoldings_rebuild (store : OwnershipStore)
    (affected : List (TokenMintsKey × Option ScriptPublicKey)) (spk : ScriptPublicKey)
    (token : OwnershipKey) :
    (∀ modTxScore, store.lastOwnerWithTxModScore token = some (spk, modTxScore) →
      Touched affected token →
      (store.rebuildOwnershipState affected).addressHoldings.get
        ⟨spk, token.tick, token.tokenId⟩ = some modTxScore) ∧
    ((∀ modTxScore, store.lastOwnerWithTxModScore token ≠ some (spk, modTxScore)) →
      PastHolder affected token spk →
      (store.rebuildOwnershipState affected).addressHoldings.get
        ⟨spk, token.tick, token.tokenId⟩ = none) ∧
    ((∀ modTxScore, store.lastOwnerWithTxModScore token ≠ some (spk, modTxScore)) ∨
        ¬ Touched affected token →
      ¬ PastHolder affected token spk →
      (store.rebuildOwnershipState affected).addressHoldings.get
        ⟨spk, token.tick, token.tokenId⟩ =
        store.addressHoldings.get ⟨spk, token.tick, token.tokenId⟩) := by
  unfold rebuildOwnershipState
  induction affected generalizing store with
  | nil =>
      refine ⟨fun _ _ ⟨entry, member, _⟩ => ?_, fun _ ⟨entry, member, _⟩ => ?_, fun _ _ => rfl⟩
      · cases member
      · cases member
  | cons entry affected ih =>
      have tail := ih (store.rebuildToken entry.1 entry.2)
      have head := addressHoldings_rebuildToken store entry.1 entry.2 spk token
      simp only [lastOwner_rebuildToken] at tail
      have touched : Touched (entry :: affected) token ↔
          (⟨entry.1.tick, entry.1.tokenId⟩ : OwnershipKey) = token ∨
            Touched affected token := by
        simp [Touched]
      have held : PastHolder (entry :: affected) token spk ↔
          (⟨entry.1.tick, entry.1.tokenId⟩ : OwnershipKey) = token ∧ entry.2 = some spk ∨
            PastHolder affected token spk := by
        simp [PastHolder]
      have contained : PastHolder affected token spk → Touched affected token := by
        rintro ⟨entry, member, same, _⟩
        exact ⟨entry, member, same⟩
      rw [List.foldl_cons, touched, held]
      clear ih touched held
      generalize List.foldl _ (store.rebuildToken entry.1 entry.2) affected = final at *
      cases found : store.lastOwnerWithTxModScore token <;> grind

end Rebuild

theorem Wf.eq_of_history {left right : OwnershipStore} {bound bound' : ℕ}
    (leftWf : left.Wf bound) (rightWf : right.Wf bound')
    (mints : left.mintHistory = right.mintHistory)
    (changes : left.ownershipChanges = right.ownershipChanges)
    (history : left.ownershipHistory = right.ownershipHistory) : left = right := by
  have current : left.currentOwnership = right.currentOwnership := by
    ext token : 1
    rw [leftWf.current, rightWf.current,
      @lastOwner_congr left right token fun reversed => by rw [history]]
  have holdings : left.addressHoldings = right.addressHoldings := by
    ext1 ⟨spk, tick, tokenId⟩
    refine Option.ext fun score => ?_
    rw [leftWf.holdings, rightWf.holdings, current]
  exact OwnershipStore.ext mints changes history current holdings

/-- The state after the rows at or above a threshold have been removed from the history, with
the touched tokens and the owners that the removed rows named. -/
structure CutAt (full rest : OwnershipStore) (threshold : ℕ)
    (affected : List (TokenMintsKey × Option ScriptPublicKey)) : Prop where
  mints : rest.mintHistory = full.mintHistory.below MintHistoryKey.rowScore threshold
  changes : rest.ownershipChanges = full.ownershipChanges.below TokenMintsKey.rowScore threshold
  history : rest.ownershipHistory =
    full.ownershipHistory.below OwnershipHistoryKey.rowScore threshold
  current : rest.currentOwnership = full.currentOwnership
  holdings : rest.addressHoldings = full.addressHoldings
  touched : ∀ {key holder}, (key, holder) ∈ affected ↔
    (full.ownershipChanges.get key).isSome ∧ threshold ≤ key.score ∧
      holder = full.ownershipHistory.get (.withScore key.tick key.tokenId key.score)

section Cut

variable {full rest : OwnershipStore} {bound threshold : ℕ}
variable {affected : List (TokenMintsKey × Option ScriptPublicKey)}

theorem CutAt.touched_iff (cut : CutAt full rest threshold affected) (wf : full.Wf bound)
    {token : OwnershipKey} :
    Touched affected token ↔ ∃ reversed, threshold ≤ u64Max - reversed ∧
      (full.ownershipHistory.get ⟨token.tick, token.tokenId, reversed⟩).isSome := by
  constructor
  · rintro ⟨⟨key, holder⟩, member, rfl⟩
    obtain ⟨present, reached, _⟩ := cut.touched.1 member
    have le := wf.score_le present
    refine ⟨u64Max - key.score, by omega, ?_⟩
    exact wf.history.2 ⟨key.score, key.reversedSeqNumber, rfl, present⟩
  · rintro ⟨reversed, reached, present⟩
    obtain ⟨score, seq, rfl, row⟩ := wf.history.1 present
    have le := wf.score_le row
    refine ⟨_, cut.touched.2 ⟨row, ?_, rfl⟩, rfl⟩
    simp only at le ⊢
    omega

/-- The newest row of an untouched token is not cut off. -/
theorem CutAt.lastOwner_untouched (cut : CutAt full rest threshold affected)
    (wf : full.Wf bound) {token : OwnershipKey} (untouched : ¬ Touched affected token) :
    rest.lastOwnerWithTxModScore token = full.lastOwnerWithTxModScore token := by
  refine lastOwner_congr fun reversed => ?_
  rw [cut.history, Partition.get_below]
  cases stored : full.ownershipHistory.get ⟨token.tick, token.tokenId, reversed⟩ with
  | none => rfl
  | some owner =>
      rw [Option.filter_some, if_pos]
      rw [cut.touched_iff wf] at untouched
      push Not at untouched
      by_contra high
      refine absurd (Option.isSome_iff_exists.2 ⟨owner, stored⟩) (untouched reversed ?_)
      exact not_lt.1 fun low => high (decide_eq_true low)

/-- The current owner of a touched token is named by a row that is cut off. -/
theorem CutAt.pastHolder_current (cut : CutAt full rest threshold affected)
    (wf : full.Wf bound) {token : OwnershipKey} {value : CurrentOwnershipValue}
    (owned : full.currentOwnership.get token = some value)
    (touched : Touched affected token) : PastHolder affected token value.owner := by
  rw [wf.current, Option.map_eq_some_iff] at owned
  obtain ⟨⟨owner, modTxScore⟩, last, rfl⟩ := owned
  obtain ⟨newest, rfl, stored, least⟩ := lastOwner_eq_some_iff.1 last
  obtain ⟨reversed, reached, present⟩ := (cut.touched_iff wf).1 touched
  have le := least reversed present
  obtain ⟨score, seq, rfl, row⟩ := wf.history.1 (by rw [stored]; rfl)
  have scoreLe := wf.score_le row
  refine ⟨_, cut.touched.2 ⟨row, ?_, rfl⟩, rfl, stored⟩
  simp only at scoreLe ⊢
  omega

/-- The history of what is left is the reordering of the ownership changes that are left. -/
theorem CutAt.history_iff (cut : CutAt full rest threshold affected) (wf : full.Wf bound)
    {tick : Tick} {tokenId reversed : ℕ} :
    (rest.ownershipHistory.get ⟨tick, tokenId, reversed⟩).isSome ↔
      ∃ score seq, reversed = u64Max - score ∧
        (rest.ownershipChanges.get ⟨score, tick, tokenId, seq⟩).isSome := by
  rw [cut.history, isSome_below_history, wf.history]
  simp only [cut.changes, isSome_below_changes]
  constructor
  · rintro ⟨⟨score, seq, rfl, present⟩, low⟩
    have scoreLe := wf.score_le present
    refine ⟨score, seq, rfl, present, ?_⟩
    simp only at scoreLe low
    omega
  · rintro ⟨score, seq, rfl, present, low⟩
    have scoreLe := wf.score_le present
    refine ⟨⟨score, seq, rfl, present⟩, ?_⟩
    simp only at scoreLe low ⊢
    omega

/-- After the rebuild every token has the owner that the rest of its history names. -/
theorem CutAt.current_rebuild (cut : CutAt full rest threshold affected) (wf : full.Wf bound)
    (token : OwnershipKey) :
    ((rest.removeOwnershipRecords affected).rebuildOwnershipState affected).currentOwnership.get
        token =
      (rest.lastOwnerWithTxModScore token).map fun entry => ⟨entry.1, entry.2⟩ := by
  have rebuilt := currentOwnership_rebuild (rest.removeOwnershipRecords affected) affected token
  have erased := Partition.get_foldl_erase
    (fun entry : TokenMintsKey × Option ScriptPublicKey =>
      (⟨entry.1.tick, entry.1.tokenId⟩ : OwnershipKey)) affected rest.currentOwnership token
  by_cases touched : Touched affected token
  · rw [rebuilt.1 touched]
    change (match rest.lastOwnerWithTxModScore token with
      | some (owner, modTxScore) => some (CurrentOwnershipValue.mk owner modTxScore)
      | none => _) = _
    cases rest.lastOwnerWithTxModScore token with
    | none => exact erased.trans (if_pos touched)
    | some entry => rfl
  · rw [rebuilt.2 touched, cut.lastOwner_untouched wf touched, ← wf.current, ← cut.current]
    exact erased.trans (if_neg touched)

/-- After the rebuild a holder is shown for a token if and only if it owns it. -/
theorem CutAt.holdings_rebuild (cut : CutAt full rest threshold affected) (wf : full.Wf bound)
    {spk : ScriptPublicKey} {tick : Tick} {tokenId score : ℕ} :
    ((rest.removeOwnershipRecords affected).rebuildOwnershipState affected).addressHoldings.get
        ⟨spk, tick, tokenId⟩ = some score ↔
      (rest.lastOwnerWithTxModScore ⟨tick, tokenId⟩).map (fun entry =>
        (⟨entry.1, entry.2⟩ : CurrentOwnershipValue)) = some ⟨spk, score⟩ := by
  obtain ⟨restored, removed, kept⟩ := addressHoldings_rebuild
    (rest.removeOwnershipRecords affected) affected spk ⟨tick, tokenId⟩
  have same : (rest.removeOwnershipRecords affected).lastOwnerWithTxModScore ⟨tick, tokenId⟩ =
      rest.lastOwnerWithTxModScore ⟨tick, tokenId⟩ := rfl
  have stored : (rest.removeOwnershipRecords affected).addressHoldings =
    full.addressHoldings := cut.holdings
  rw [same] at restored removed kept
  rw [stored] at kept
  have before := @wf.holdings spk tick tokenId score
  by_cases touched : Touched affected ⟨tick, tokenId⟩
  · by_cases owned : ∃ modTxScore,
        rest.lastOwnerWithTxModScore ⟨tick, tokenId⟩ = some (spk, modTxScore)
    · obtain ⟨modTxScore, last⟩ := owned
      rw [restored modTxScore last touched, last]
      simp
    · push Not at owned
      have unowned : (rest.lastOwnerWithTxModScore ⟨tick, tokenId⟩).map (fun entry =>
          (⟨entry.1, entry.2⟩ : CurrentOwnershipValue)) ≠ some ⟨spk, score⟩ := by
        rw [Ne, Option.map_eq_some_iff]
        rintro ⟨⟨owner, modTxScore⟩, last, equal⟩
        injection equal with sameOwner
        exact owned modTxScore (sameOwner ▸ last)
      refine iff_of_false ?_ unowned
      by_cases past : PastHolder affected ⟨tick, tokenId⟩ spk
      · rw [removed owned past]
        exact Option.some_ne_none _ ∘ Eq.symm
      · rw [kept (.inl owned) past, before]
        exact fun current => past (cut.pastHolder_current wf current touched)
  · have unheld : ¬ PastHolder affected ⟨tick, tokenId⟩ spk :=
      fun ⟨entry, member, same, _⟩ => touched ⟨entry, member, same⟩
    rw [kept (.inr touched) unheld, before, wf.current, cut.lastOwner_untouched wf touched]

/-- Rebuilding the owners of the touched tokens restores the agreement of the partitions. -/
theorem CutAt.rebuild_wf (cut : CutAt full rest threshold affected) (wf : full.Wf bound)
    (le : threshold ≤ u64Max + 1) :
    ((rest.removeOwnershipRecords affected).rebuildOwnershipState affected).Wf threshold := by
  obtain ⟨mints, changes, history⟩ :=
    rebuildOwnershipState_history (rest.removeOwnershipRecords affected) affected
  refine ⟨le, ?_, ?_, ?_, ?_, ?_, ?_⟩
  · rw [changes]
    exact cut.changes ▸ Partition.under_below
  · intro score tick tokenId reversed reversed'
    rw [changes]
    change (rest.ownershipChanges.get _).isSome → (rest.ownershipChanges.get _).isSome → _
    rw [cut.changes, isSome_below_changes, isSome_below_changes]
    exact fun left right => wf.single left.1 right.1
  · intro tick tokenId reversed
    rw [changes, history]
    exact cut.history_iff wf
  · intro tick reversed tokenId score
    rw [changes, mints]
    change (rest.mintHistory.get _).isSome ↔ (rest.ownershipChanges.get _).isSome ∧ _
    rw [cut.changes, cut.mints, isSome_below_mints, isSome_below_changes, wf.mints]
    tauto
  · intro token
    rw [cut.current_rebuild wf]
    exact congrArg _ (lastOwner_congr fun reversed => by rw [history]; rfl)
  · intro spk tick tokenId score
    rw [cut.current_rebuild wf]
    exact cut.holdings_rebuild wf

end Cut

end OwnershipStore

end Krc721
