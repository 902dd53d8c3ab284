import Krc721.Processor.LogRemovalProperties

/-! Undoing a chain reorganisation. A ledger that extends an older one above a threshold is
taken back to exactly that older ledger, and no `expect` on the way can fail. -/

set_option autoImplicit false

namespace Krc721

open OrderedStore

/-! Deployments. -/

section Deployments

variable {store : CollectionStore} {bound : ℕ}

theorem foldl_deployments (keys : List DeploymentKey) (store : CollectionStore)
    (premintCount : Partition Tick ℕ)
    (erased : ∀ tick, (premintCount.get tick).isSome →
      store.collectionRegistry.get tick = none) :
    let final := keys.foldl (fun (store, premintCount) key =>
      (({ collectionDeployments := store.collectionDeployments.erase key
          collectionRegistry := store.collectionRegistry.erase key.tick } : CollectionStore),
        match store.collectionRegistry.get key.tick with
        | some deployment => premintCount.insert key.tick deployment.info.info.premint
        | none => premintCount)) (store, premintCount)
    final.1.collectionDeployments =
        keys.foldl (fun deployments key => deployments.erase key) store.collectionDeployments ∧
      final.1.collectionRegistry =
        keys.foldl (fun registry key => registry.erase key.tick) store.collectionRegistry ∧
      ∀ tick, premintOf final.2 final.1 tick = premintOf premintCount store tick := by
  induction keys generalizing store premintCount with
  | nil => exact ⟨rfl, rfl, fun _ => rfl⟩
  | cons key keys ih =>
      simp only [List.foldl_cons]
      cases found : store.collectionRegistry.get key.tick with
      | none =>
          obtain ⟨deployments, registry, premints⟩ := ih
            ⟨store.collectionDeployments.erase key, store.collectionRegistry.erase key.tick⟩
            premintCount (fun tick counted => by
              rw [Partition.erase_of_get_eq_none found]
              exact erased tick counted)
          refine ⟨deployments, registry, fun tick => (premints tick).trans ?_⟩
          simp only [premintOf, Partition.erase_of_get_eq_none found]
      | some deployment =>
          obtain ⟨deployments, registry, premints⟩ := ih
            ⟨store.collectionDeployments.erase key, store.collectionRegistry.erase key.tick⟩
            (premintCount.insert key.tick deployment.info.info.premint) (fun tick counted => by
              rw [Partition.get_insert] at counted
              rw [Partition.get_erase]
              split
              · rfl
              · rename_i different
                rw [if_neg different] at counted
                exact erased tick counted)
          refine ⟨deployments, registry, fun tick => (premints tick).trans ?_⟩
          have uncounted : premintCount.get key.tick = none := by
            rw [← Option.not_isSome_iff_eq_none]
            intro counted
            rw [erased _ counted] at found
            cases found
          simp only [premintOf, Partition.get_insert, Partition.get_erase]
          by_cases same : key.tick = tick
          · subst same
            simp [uncounted, found]
          · simp [same]

/-- `remove_affected_deployments` leaves the collections below the threshold and remembers
the premints of those it removes. -/
theorem CollectionStore.Wf.removeAffectedDeployments (wf : store.Wf bound)
    (threshold : ℕ) :
    (store.removeAffectedDeployments threshold).1.collectionDeployments =
        store.collectionDeployments.below DeploymentKey.rowScore threshold ∧
      (store.removeAffectedDeployments threshold).1.collectionRegistry =
        store.collectionRegistry.below (fun _ entry => entry.score) threshold ∧
      ∀ tick, premintOf (store.removeAffectedDeployments threshold).2
          (store.removeAffectedDeployments threshold).1 tick =
        (store.collectionRegistry.get tick).map (·.info.info.premint) := by
  obtain ⟨deployments, registry, premints⟩ := foldl_deployments
    (store.collectionDeployments.keysFrom ⟨threshold, Tick.MIN⟩) store ∅ (by simp)
  have reached : ∀ key, key ∈ store.collectionDeployments.keysFrom ⟨threshold, Tick.MIN⟩ ↔
      (store.collectionDeployments.get key).isSome ∧ threshold ≤ key.score := by
    intro key
    rw [Partition.mem_keysFrom, DeploymentKey.start_le_iff]
  refine ⟨deployments.trans ?_, registry.trans ?_, premints⟩
  · refine Partition.foldl_erase_eq_below id _ ?_ ?_
    · intro key info stored high
      exact ⟨key, (reached key).2 ⟨by rw [stored]; rfl, high⟩, rfl⟩
    · intro key member info _
      exact ((reached key).1 member).2
  · refine Partition.foldl_erase_eq_below DeploymentKey.tick _ ?_ ?_
    · rintro tick ⟨score, info⟩ stored high
      exact ⟨⟨score, tick⟩, (reached _).2 ⟨by rw [wf.deployments.2 stored]; rfl, high⟩, rfl⟩
    · rintro ⟨score, tick⟩ member entry stored
      obtain ⟨present, high⟩ := (reached _).1 member
      obtain ⟨info, deployed⟩ := Option.isSome_iff_exists.1 present
      have registered := wf.deployments.1 deployed
      rw [stored, Option.some_inj] at registered
      subst registered
      exact high

end Deployments

/-! Discounts. -/

/-- Every discount in force is in the index by score that a removal scans. -/
def Db.DiscountsIndexed (db : Db) : Prop :=
  ∀ key, (db.vip.get key).isSome → ∃ score, score ≤ u64Max ∧
    key.reversedScore = u64Max - score ∧
    db.scoreToDiscount.get ⟨score, key.tick, key.spk⟩ = some key.fee

theorem Db.DiscountsIndexed.removeDiscounts (db : Db) {threshold : ℕ}
    (indexed : db.DiscountsIndexed) (le : threshold ≤ u64Max) :
    Krc721.removeDiscounts db threshold =
      { db with vip := db.vip.below VipKey.rowScore threshold } := by
  unfold Krc721.removeDiscounts
  congr 2
  refine Partition.foldl_erase_eq_below
    (fun entry : ScoredDiscountKey × ℕ =>
      (⟨entry.1.spk, entry.1.tick, u64Max - entry.1.score, entry.2⟩ : VipKey)) _ ?_ ?_
  · rintro ⟨spk, tick, reversed, fee⟩ row stored high
    obtain ⟨score, scoreLe, same, discount⟩ := indexed _ (by rw [stored]; rfl)
    simp only at same discount
    refine ⟨(⟨score, tick, spk⟩, fee), mem_rangeFromScore.2 ⟨discount, ?_⟩, by rw [same]⟩
    simp only [VipKey.rowScore, same] at high ⊢
    omega
  · rintro ⟨⟨score, tick, spk⟩, fee⟩ member row _
    have high := (mem_rangeFromScore.1 member).2
    simp only [VipKey.rowScore] at high ⊢
    omega

/-! Ownership and ranges. -/

namespace TokenMintsKey

/-- The history row of a change. -/
def historyKey (key : TokenMintsKey) : OwnershipHistoryKey :=
  .withScore key.tick key.tokenId key.score

/-- The mint row of a change, if the change is a mint. -/
def mintKey (key : TokenMintsKey) : MintHistoryKey :=
  ⟨key.tick, key.reversedSeqNumber, key.tokenId, key.score⟩

/-- Whether a change is a mint above the preminted ids. -/
def isDrawn (premints : Tick → Option ℕ) (mints : Partition MintHistoryKey Unit)
    (key : TokenMintsKey) : Bool :=
  (mints.get key.mintKey).isSome && (premints key.tick).any fun premint => premint < key.tokenId

end TokenMintsKey

/-- One affected key: its rows go, and a random mint is rolled back. -/
theorem removeTokenOperation_eq {premintFromRemoved : Partition Tick ℕ} {db : Db}
    {key : TokenMintsKey} {ranges : RangeStore}
    (known : (db.mintHistory.get key.mintKey).isSome →
      (premintOf premintFromRemoved db.toCollectionStore key.tick).isSome)
    (rolled : if key.isDrawn (premintOf premintFromRemoved db.toCollectionStore) db.mintHistory
      then db.rollbackTokenGeneration key.tick key.tokenId = .ok ranges
      else ranges = db.toRangeStore) :
    removeTokenOperation premintFromRemoved db key = .ok ({ db with
      toRangeStore := ranges
      mintHistory := db.mintHistory.erase key.mintKey
      ownershipChanges := db.ownershipChanges.erase key
      ownershipHistory := db.ownershipHistory.erase key.historyKey },
      db.ownershipHistory.get key.historyKey) := by
  have keys_eq : OwnershipHistoryKey.withScore key.tick key.tokenId key.score =
    key.historyKey := rfl
  have mint_eq : (⟨key.tick, key.reversedSeqNumber, key.tokenId, key.score⟩ :
    MintHistoryKey) = key.mintKey := rfl
  unfold removeTokenOperation
  simp only [keys_eq, mint_eq]
  by_cases minted : (db.mintHistory.get key.mintKey).isSome
  · obtain ⟨premint, found⟩ := Option.isSome_iff_exists.1 (known minted)
    simp only [minted, if_true, found]
    by_cases above : premint < key.tokenId
    · have drawn : key.isDrawn (premintOf premintFromRemoved db.toCollectionStore)
          db.mintHistory = true := by
        simp [TokenMintsKey.isDrawn, minted, found, above]
      rw [if_pos drawn] at rolled
      simp only [if_pos above, rolled]
    · have undrawn : key.isDrawn (premintOf premintFromRemoved db.toCollectionStore)
          db.mintHistory = false := by
        simp [TokenMintsKey.isDrawn, found, not_lt.1 above]
      rw [undrawn] at rolled
      simp only [Bool.false_eq_true, if_false] at rolled
      subst rolled
      simp only [if_neg above]
  · have undrawn : key.isDrawn (premintOf premintFromRemoved db.toCollectionStore)
        db.mintHistory = false := by
      simp [TokenMintsKey.isDrawn, minted]
    rw [undrawn] at rolled
    simp only [Bool.false_eq_true, if_false] at rolled
    subst rolled
    simp only [minted, Bool.false_eq_true, if_false]

/-- The loop over the affected keys erases their rows and rolls the random mints back. -/
theorem removeTokenOperations_eq (premintFromRemoved : Partition Tick ℕ) (db : Db)
    {keys : List TokenMintsKey} {ranges : RangeStore}
    (distinct : keys.Pairwise fun left right => left.historyKey ≠ right.historyKey)
    (known : ∀ key ∈ keys, (db.mintHistory.get key.mintKey).isSome →
      (premintOf premintFromRemoved db.toCollectionStore key.tick).isSome)
    (rollback : db.toRangeStore.rollbackAll (keys.filter
      (TokenMintsKey.isDrawn (premintOf premintFromRemoved db.toCollectionStore)
        db.mintHistory)) = .ok ranges) :
    removeTokenOperations premintFromRemoved db keys = .ok ({ db with
      toRangeStore := ranges
      mintHistory := keys.foldl (fun mints key => mints.erase key.mintKey) db.mintHistory
      ownershipChanges := keys.foldl (fun changes key => changes.erase key) db.ownershipChanges
      ownershipHistory :=
        keys.foldl (fun history key => history.erase key.historyKey) db.ownershipHistory },
      keys.map fun key => (key, db.ownershipHistory.get key.historyKey)) := by
  induction keys generalizing db with
  | nil =>
      simp only [List.filter_nil, RangeStore.rollbackAll, Except.ok.injEq] at rollback
      subst rollback
      rfl
  | cons key keys ih =>
      obtain ⟨first, later⟩ := List.pairwise_cons.1 distinct
      -- the keys that remain have rows of their own
      have mintApart : ∀ other ∈ keys, key.mintKey ≠ other.mintKey := by
        rintro other member equal
        refine first other member ?_
        simp only [TokenMintsKey.mintKey, MintHistoryKey.mk.injEq] at equal
        obtain ⟨tick, _, tokenId, score⟩ := equal
        simp only [TokenMintsKey.historyKey, tick, tokenId, score]
      have sameMint : ∀ other ∈ keys, (db.mintHistory.erase key.mintKey).get other.mintKey =
          db.mintHistory.get other.mintKey :=
        fun other member => Partition.get_erase_of_ne _ (mintApart other member)
      have sameDrawn : ∀ premints, keys.filter
          (TokenMintsKey.isDrawn premints (db.mintHistory.erase key.mintKey)) =
          keys.filter (TokenMintsKey.isDrawn premints db.mintHistory) := by
        intro premints
        refine List.filter_congr fun other member => ?_
        rw [TokenMintsKey.isDrawn, TokenMintsKey.isDrawn, sameMint other member]
      have sameHolders : (keys.map fun other =>
          (other, (db.ownershipHistory.erase key.historyKey).get other.historyKey)) =
          keys.map fun other => (other, db.ownershipHistory.get other.historyKey) := by
        refine List.map_congr_left fun other member => ?_
        rw [Partition.get_erase_of_ne _ (first other member)]
      obtain ⟨ranges', rolled, rest⟩ : ∃ ranges',
          (if key.isDrawn (premintOf premintFromRemoved db.toCollectionStore) db.mintHistory
            then db.rollbackTokenGeneration key.tick key.tokenId = .ok ranges'
            else ranges' = db.toRangeStore) ∧
          ranges'.rollbackAll (keys.filter (TokenMintsKey.isDrawn
            (premintOf premintFromRemoved db.toCollectionStore) db.mintHistory)) =
              .ok ranges := by
        rw [List.filter_cons] at rollback
        split at rollback
        · rename_i drawn
          simp only [drawn, if_true]
          rw [RangeStore.rollbackAll] at rollback
          split at rollback
          · cases rollback
          · rename_i ranges' success
            exact ⟨ranges', success, rollback⟩
        · rename_i undrawn
          exact ⟨db.toRangeStore, by rw [if_neg undrawn], rollback⟩
      have turn := removeTokenOperation_eq (known key List.mem_cons_self) rolled
      have tail := @ih { db with
        toRangeStore := ranges'
        mintHistory := db.mintHistory.erase key.mintKey
        ownershipChanges := db.ownershipChanges.erase key
        ownershipHistory := db.ownershipHistory.erase key.historyKey } later
        (fun other member minted => known other (List.mem_cons_of_mem _ member)
          (sameMint other member ▸ minted))
        (by rw [sameDrawn]; exact rest)
      simp only [sameHolders] at tail
      simp only [removeTokenOperations, turn, tail, List.foldl_cons, List.map_cons]

section Reconstruct

variable {before old : Ledger} {bound threshold : ℕ}

/-- The keys `get_affected_token_operations` walks, newest change first. -/
def affectedKeys (store : OwnershipStore) (threshold : ℕ) : List TokenMintsKey :=
  (store.ownershipChanges.keysFrom ⟨threshold, Tick.MIN, 0, 0⟩).reverse

theorem mem_affectedKeys {store : OwnershipStore} {key : TokenMintsKey} :
    key ∈ affectedKeys store threshold ↔
      (store.ownershipChanges.get key).isSome ∧ threshold ≤ key.score := by
  rw [affectedKeys, List.mem_reverse, Partition.mem_keysFrom, TokenMintsKey.start_le_iff]

/-- Every affected key has a history row of its own. -/
theorem affectedKeys_distinct (wf : before.Wf bound) :
    (affectedKeys before.toOwnershipStore threshold).Pairwise fun left right =>
      left.historyKey ≠ right.historyKey := by
  have ordered : (affectedKeys before.toOwnershipStore threshold).Pairwise (· > ·) :=
    List.pairwise_reverse.2 (Partition.keysFrom_ordered _ _)
  refine ordered.imp_of_mem fun {left right} leftMember rightMember less equal => ?_
  have leftRow := (mem_affectedKeys.1 leftMember).1
  have rightRow := (mem_affectedKeys.1 rightMember).1
  have leftLe := wf.owned.score_le leftRow
  have rightLe := wf.owned.score_le rightRow
  obtain ⟨score, tick, tokenId, reversed⟩ := left
  obtain ⟨score', tick', tokenId', reversed'⟩ := right
  simp only [TokenMintsKey.historyKey, OwnershipHistoryKey.withScore,
    OwnershipHistoryKey.mk.injEq] at equal leftLe rightLe
  obtain ⟨rfl, rfl, scores⟩ := equal
  have same : score = score' := by omega
  subst same
  have sameReversed := wf.owned.single leftRow rightRow
  subst sameReversed
  exact absurd less (lt_irrefl _)

theorem Ledger.Wf.mint_deployed (wf : before.Wf bound) {key : TokenMintsKey}
    (minted : (before.mintHistory.get key.mintKey).isSome) :
    (before.collectionRegistry.get key.tick).isSome := by
  by_contra missing
  rw [Option.not_isSome_iff_eq_none] at missing
  obtain ⟨index, found, _⟩ := (wf.undeployed missing 0 0).issued.numbered minted
  simp at found

/-- The random mints among the affected keys, newest first. -/
theorem affectedKeys_drawn (wf : before.Wf bound) {draws : List TokenMintsKey}
    (listed : Draws before threshold draws) {premints : Tick → Option ℕ}
    (lookup : ∀ tick, premints tick =
      (before.collectionRegistry.get tick).map (·.info.info.premint)) :
    (affectedKeys before.toOwnershipStore threshold).filter
      (TokenMintsKey.isDrawn premints before.mintHistory) = draws.reverse := by
  rw [affectedKeys, List.filter_reverse]
  refine congrArg List.reverse (List.Pairwise.eq_of_mem_iff (r := (· < ·))
    ((Partition.keysFrom_ordered _ _).filter _) listed.ordered fun key => ?_)
  rw [List.mem_filter, Partition.mem_keysFrom, TokenMintsKey.start_le_iff, listed.mem,
    TokenMintsKey.isDrawn, lookup, Bool.and_eq_true, Option.any_eq_true]
  simp only [Option.map_eq_some_iff, decide_eq_true_eq, Ledger.Drawn, TokenMintsKey.mintKey]
  constructor
  · rintro ⟨⟨_, reached⟩, minted, premint, ⟨entry, found, rfl⟩, above⟩
    exact ⟨reached, minted, entry, found, above⟩
  · rintro ⟨reached, minted, entry, found, above⟩
    exact ⟨⟨(wf.owned.mints.1 minted).1, reached⟩, minted, _, ⟨entry, found, rfl⟩, above⟩

/-- The owners without the rows of the affected keys. -/
def dropAffected (store : OwnershipStore) (threshold : ℕ) : OwnershipStore where
  mintHistory := (affectedKeys store threshold).foldl
    (fun mints key => mints.erase key.mintKey) store.mintHistory
  ownershipChanges := (affectedKeys store threshold).foldl
    (fun changes key => changes.erase key) store.ownershipChanges
  ownershipHistory := (affectedKeys store threshold).foldl
    (fun history key => history.erase key.historyKey) store.ownershipHistory
  currentOwnership := store.currentOwnership
  addressHoldings := store.addressHoldings

/-- Dropping the rows of the affected keys cuts the histories at the threshold. -/
theorem cutAt_dropAffected (threshold : ℕ) {owned : OwnershipStore} (wf : owned.Wf bound) :
    OwnershipStore.CutAt owned (dropAffected owned threshold) threshold
      ((affectedKeys owned threshold).map fun key =>
        (key, owned.ownershipHistory.get key.historyKey)) := by
  refine ⟨?_, ?_, ?_, rfl, rfl, ?_⟩
  · refine Partition.foldl_erase_eq_below TokenMintsKey.mintKey _ ?_ ?_
    · rintro ⟨tick, reversed, tokenId, score⟩ row stored high
      have minted : (owned.mintHistory.get ⟨tick, reversed, tokenId, score⟩).isSome := by
        rw [stored]
        rfl
      exact ⟨⟨score, tick, tokenId, reversed⟩,
        mem_affectedKeys.2 ⟨(wf.mints.1 minted).1, high⟩, rfl⟩
    · intro key member row _
      exact (mem_affectedKeys.1 member).2
  · refine Partition.foldl_erase_eq_below id _ ?_ ?_
    · intro key row stored high
      exact ⟨key, mem_affectedKeys.2 ⟨by rw [stored]; rfl, high⟩, rfl⟩
    · intro key member row _
      exact (mem_affectedKeys.1 member).2
  · refine Partition.foldl_erase_eq_below TokenMintsKey.historyKey _ ?_ ?_
    · rintro ⟨tick, tokenId, reversed⟩ owner stored high
      obtain ⟨score, seq, rfl, row⟩ := wf.history.1 (by rw [stored]; rfl)
      have le := wf.score_le row
      simp only [OwnershipHistoryKey.rowScore] at high le
      exact ⟨⟨score, tick, tokenId, seq⟩, mem_affectedKeys.2 ⟨row, by simp only; omega⟩, rfl⟩
    · intro key member owner _
      obtain ⟨row, high⟩ := mem_affectedKeys.1 member
      have le := wf.score_le row
      simp only [OwnershipHistoryKey.rowScore, TokenMintsKey.historyKey,
        OwnershipHistoryKey.withScore]
      omega
  · intro key holder
    simp only [List.mem_map, Prod.mk.injEq, mem_affectedKeys]
    constructor
    · rintro ⟨key', ⟨row, high⟩, rfl, rfl⟩
      exact ⟨row, high, rfl⟩
    · rintro ⟨row, high, rfl⟩
      exact ⟨key, ⟨row, high⟩, rfl, rfl⟩

/-- `reconstruct_token_ownership` restores the owners and the ranges of the old ledger. -/
theorem reconstructTokenOwnership_eq (db : Db) {premintFromRemoved : Partition Tick ℕ}
    (wf : before.Wf bound) (oldWf : old.Wf threshold)
    (extended : old.Extends threshold before)
    (sameOwned : db.toOwnershipStore = before.toOwnershipStore)
    (sameRanges : db.toRangeStore = before.toRangeStore)
    (lookup : ∀ tick, premintOf premintFromRemoved db.toCollectionStore tick =
      (before.collectionRegistry.get tick).map (·.info.info.premint)) :
    reconstructTokenOwnership db threshold premintFromRemoved = .ok { db with
      toOwnershipStore := old.toOwnershipStore
      toRangeStore := old.toRangeStore } := by
  obtain ⟨draws, listed, rollback⟩ := extended.ranges
  have sameMints : db.mintHistory = before.mintHistory :=
    congrArg OwnershipStore.mintHistory sameOwned
  have drawn := affectedKeys_drawn wf listed lookup
  have removed := removeTokenOperations_eq premintFromRemoved db
    (affectedKeys_distinct wf) (fun key _ minted => by
      rw [lookup, Option.isSome_map]
      exact wf.mint_deployed (sameMints ▸ minted))
    (by rw [sameMints, drawn, sameRanges]; exact rollback)
  simp only [sameOwned] at removed
  have cut := cutAt_dropAffected threshold wf.owned
  have rebuilt := cut.rebuild_wf wf.owned oldWf.bounded
  obtain ⟨mints, changes, history⟩ := OwnershipStore.rebuildOwnershipState_history
    (OwnershipStore.removeOwnershipRecords _ ((affectedKeys before.toOwnershipStore
      threshold).map fun key => (key, before.ownershipHistory.get key.historyKey))) _
  have restored := rebuilt.eq_of_history oldWf.owned
    (mints.trans (cut.mints.trans extended.mintHistory))
    (changes.trans (cut.changes.trans extended.ownershipChanges))
    (history.trans (cut.history.trans extended.ownershipHistory))
  have sameChanges : db.ownershipChanges = before.ownershipChanges :=
    congrArg OwnershipStore.ownershipChanges sameOwned
  have keys : (db.ownershipChanges.keysFrom ⟨threshold, Tick.MIN, 0, 0⟩).reverse =
      affectedKeys before.toOwnershipStore threshold := by
    rw [sameChanges, affectedKeys]
  unfold reconstructTokenOwnership getAffectedTokenOperations
  rw [keys, removed]
  simp only [dropAffected] at restored
  simp only [restored]

end Reconstruct

/-! The whole removal. -/

/-- Rolling an extended ledger back to its threshold yields exactly the old ledger. The address
index stays right unless a restored listing meets a newer one by another seller. -/
theorem processRemoval_restores {kaspa : Kaspa} {db : Db} {removedBlocks : List RpcHash}
    {forced : Option ℕ} {chain : ChainStore} {minBlueScore bound : ℕ} {old : Ledger}
    (found : db.identifyReorgBlocksAndDelete removedBlocks forced = (chain, some minBlueScore))
    (wf : db.toLedger.Wf bound) (discounts : db.DiscountsIndexed)
    (oldWf : old.Wf (calculateTxScoreFromBlue kaspa minBlueScore))
    (extended : old.Extends (calculateTxScoreFromBlue kaspa minBlueScore) db.toLedger) :
    ∃ db' diff, processRemoval kaspa db removedBlocks forced = .ok (db', diff) ∧
      db'.toLedger = old ∧ db'.toChainStore = chain ∧
      db'.scoreToDiscount = db.scoreToDiscount ∧
      (db.AddressIndexed →
        ¬ RestoreClash (calculateTxScoreFromBlue kaspa minBlueScore) old db.toLedger →
        db'.AddressIndexed) := by
  have le : calculateTxScoreFromBlue kaspa minBlueScore ≤ u64Max :=
    lt_two_pow_iff_le_u64Max.1 (Nat.mod_lt _ (by positivity))
  unfold processRemoval
  simp only [found]
  generalize calculateTxScoreFromBlue kaspa minBlueScore = threshold at *
  obtain ⟨cleared, diff, success, clearing⟩ := removeAffectedOperations_cleared
    { db with toChainStore := chain } wf oldWf extended
  obtain ⟨sameCollections, sameOwned, sameRanges, sameVip, sameChain, sameDiscounts⟩ :=
    clearing.frame
  simp only at sameCollections sameOwned sameRanges sameVip sameChain sameDiscounts
  obtain ⟨deployments, registry, premints⟩ :=
    wf.collections.removeAffectedDeployments threshold
  rcases removed : db.removeAffectedDeployments threshold with ⟨kept, premintFromRemoved⟩
  rw [removed] at deployments registry premints
  have collections : kept = old.toCollectionStore :=
    CollectionStore.ext (deployments.trans extended.collectionDeployments)
      (registry.trans extended.collectionRegistry)
  have vip : removeDiscounts { cleared with toCollectionStore := kept } threshold =
      { cleared with toCollectionStore := kept, vip := old.vip } := by
    rw [Db.DiscountsIndexed.removeDiscounts { cleared with
      toCollectionStore := kept } ?_ le]
    · simp only [sameVip, extended.vip]
    · intro key present
      simp only [sameVip, sameDiscounts] at present ⊢
      exact discounts key present
  obtain ⟨listings, byTick⟩ := clearing.listings_eq oldWf extended
  obtain ⟨address, cleaned⟩ : ∃ address, removeAffectedListings { cleared with
      toCollectionStore := kept, vip := old.vip } threshold = { cleared with
        toCollectionStore := kept
        vip := old.vip
        listings := old.listings
        listingsByTick := old.listingsByTick
        addressListings := address } := by
    have folded := foldl_removeListing { cleared with toCollectionStore := kept, vip := old.vip }
      (cleared.listings.entries.filter fun entry => threshold ≤ entry.2.opScore)
    simp only [listings, byTick] at folded
    exact ⟨_, folded⟩
  have addressed : db.AddressIndexed → ¬ RestoreClash threshold old db.toLedger →
      (removeAffectedListings { cleared with
        toCollectionStore := kept, vip := old.vip } threshold).AddressIndexed :=
    fun indexed unclashed => Db.AddressIndexed.removeAffectedListings
      { cleared with toCollectionStore := kept, vip := old.vip }
      (clearing.addressed indexed unclashed) threshold
  rw [cleaned] at addressed
  have rebuilt := reconstructTokenOwnership_eq { cleared with
      toCollectionStore := kept
      vip := old.vip
      listings := old.listings
      listingsByTick := old.listingsByTick
      addressListings := address }
    wf oldWf extended sameOwned sameRanges premints
  simp only [success, sameCollections, removed, vip, cleaned, rebuilt]
  refine ⟨_, _, rfl, ?_, sameChain, sameDiscounts, addressed⟩
  have log := clearing.log_eq extended
  refine Ledger.ext ?_ ?_ ?_ ?_ rfl rfl rfl rfl rfl rfl rfl rfl rfl rfl rfl
  · exact congrArg LogStore.operationHistory log
  · exact congrArg LogStore.txIdToOpscore log
  · exact congrArg CollectionStore.collectionDeployments collections
  · exact congrArg CollectionStore.collectionRegistry collections

end Krc721
