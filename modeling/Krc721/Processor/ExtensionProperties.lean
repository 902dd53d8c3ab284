import Krc721.Processor.LedgerProperties

/-! A ledger that extends another above a threshold: below the threshold the history rows are
those of the old ledger, and what the old ledger held besides them can be restored. Operations
at or above the threshold keep that relation. -/

set_option autoImplicit false

namespace Krc721

open OrderedStore

/-- The row of a random mint above the preminted ids of its tick. -/
def Ledger.Drawn (ledger : Ledger) (key : TokenMintsKey) : Prop :=
  (ledger.mintHistory.get ⟨key.tick, key.reversedSeqNumber, key.tokenId, key.score⟩).isSome ∧
    ∃ entry, ledger.collectionRegistry.get key.tick = some entry ∧
      entry.info.info.premint < key.tokenId

/-- The random mints at or above a threshold, oldest first. -/
structure Draws (ledger : Ledger) (threshold : ℕ) (draws : List TokenMintsKey) : Prop where
  ordered : draws.Pairwise (· < ·)
  mem : ∀ {key}, key ∈ draws ↔ threshold ≤ key.score ∧ ledger.Drawn key

/-- Roll back a list of random mints, the first of the list first. -/
def RangeStore.rollbackAll : RangeStore → List TokenMintsKey → Except Fault RangeStore
  | ranges, [] => .ok ranges
  | ranges, key :: keys =>
      match ranges.rollbackTokenGeneration key.tick key.tokenId with
      | .error fault => .error fault
      | .ok ranges => ranges.rollbackAll keys

/-- An accepted send at or above the threshold that spends a listing from below it. -/
def Ledger.SpentListing (ledger : Ledger) (threshold : ℕ) (token : OwnershipKey)
    (txId : TransactionId) : Prop :=
  ∃ score common info listScore, threshold ≤ score ∧
    ledger.operationHistory.get score = some ⟨⟨common, .send info⟩, none⟩ ∧
    common.tick = token.tick ∧ info.tokenId = token.tokenId ∧ info.listingUtxoTxid = txId ∧
    ledger.txIdToOpscore.get txId = some listScore ∧ listScore < threshold

/-- Every listing of a token is from the threshold on. -/
def Ledger.Relisted (ledger : Ledger) (threshold : ℕ) (token : OwnershipKey) : Prop :=
  ∀ listing, ledger.listings.get token = some listing → threshold ≤ listing.opScore

/-- How the listing of a token below the threshold can be told from the ledger above it. -/
inductive Restorable (threshold : ℕ) (old new : Ledger) (token : OwnershipKey) : Prop where
  | kept (unspent : ∀ txId, ¬ new.SpentListing threshold token txId)
      (same : new.listings.get token = old.listings.get token)
  | unlisted (unspent : ∀ txId, ¬ new.SpentListing threshold token txId)
      (absent : old.listings.get token = none) (relisted : new.Relisted threshold token)
  | spent (listing : ListingValue) (found : old.listings.get token = some listing)
      (spending : new.SpentListing threshold token listing.listingTxId)
      (unique : ∀ txId, new.SpentListing threshold token txId → txId = listing.listingTxId)
      (relisted : new.Relisted threshold token)

/-- Nothing changes for a token whose listing and spending sends are the same. -/
theorem Restorable.congr {threshold : ℕ} {old new new' : Ledger} {token : OwnershipKey}
    (sameSpent : ∀ txId, new'.SpentListing threshold token txId ↔
      new.SpentListing threshold token txId)
    (unchanged : new'.listings.get token = new.listings.get token)
    (earlier : Restorable threshold old new token) : Restorable threshold old new' token := by
  cases earlier with
  | kept unspent kept =>
      exact .kept (fun txId => mt (sameSpent txId).1 (unspent txId)) (unchanged.trans kept)
  | unlisted unspent absent relisted =>
      exact .unlisted (fun txId => mt (sameSpent txId).1 (unspent txId)) absent
        fun listing stored => relisted listing (unchanged ▸ stored)
  | spent listing found spending unique relisted =>
      exact .spent listing found ((sameSpent _).2 spending)
        (fun txId spentNow => unique txId ((sameSpent txId).1 spentNow))
        fun listing stored => relisted listing (unchanged ▸ stored)

/-- A token without a listing gets one from the threshold on. -/
theorem Restorable.listed {threshold : ℕ} {old new new' : Ledger} {token : OwnershipKey}
    (earlier : Restorable threshold old new token) (absent : new.listings.get token = none)
    (sameSpent : ∀ txId, new'.SpentListing threshold token txId ↔
      new.SpentListing threshold token txId)
    (relisted : new'.Relisted threshold token) : Restorable threshold old new' token := by
  cases earlier with
  | kept unspent kept =>
      exact .unlisted (fun txId => mt (sameSpent txId).1 (unspent txId)) (kept.symm.trans absent)
        relisted
  | unlisted unspent absent _ =>
      exact .unlisted (fun txId => mt (sameSpent txId).1 (unspent txId)) absent relisted
  | spent listing found spending unique _ =>
      exact .spent listing found ((sameSpent _).2 spending)
        (fun txId spentNow => unique txId ((sameSpent txId).1 spentNow)) relisted

/-- The score of a row of the deployments. -/
def DeploymentKey.rowScore (key : DeploymentKey) (_ : DeployInfoWithCommon) : ℕ := key.score

structure Ledger.Extends (threshold : ℕ) (old new : Ledger) : Prop where
  operationHistory :
    new.operationHistory.below (fun score _ => score) threshold = old.operationHistory
  txIdToOpscore : new.txIdToOpscore.below (fun _ score => score) threshold = old.txIdToOpscore
  collectionDeployments :
    new.collectionDeployments.below DeploymentKey.rowScore threshold = old.collectionDeployments
  collectionRegistry : new.collectionRegistry.below (fun _ entry => entry.score) threshold =
    old.collectionRegistry
  mintHistory : new.mintHistory.below MintHistoryKey.rowScore threshold = old.mintHistory
  ownershipChanges :
    new.ownershipChanges.below TokenMintsKey.rowScore threshold = old.ownershipChanges
  ownershipHistory :
    new.ownershipHistory.below OwnershipHistoryKey.rowScore threshold = old.ownershipHistory
  vip : new.vip.below VipKey.rowScore threshold = old.vip
  ranges : ∃ draws, Draws new threshold draws ∧
    new.toRangeStore.rollbackAll draws.reverse = .ok old.toRangeStore
  listings : ∀ token, Restorable threshold old new token

namespace Ledger

variable {ledger : Ledger} {bound threshold : ℕ}

theorem Wf.mint_lt (wf : ledger.Wf bound) {key : MintHistoryKey}
    (present : (ledger.mintHistory.get key).isSome) : key.score < bound :=
  wf.owned.score_lt (wf.owned.mints.1 present).1

theorem Wf.operation_lt (wf : ledger.Wf bound) {score : ℕ} {checked : CheckedOperation}
    (logged : ledger.operationHistory.get score = some checked) : score < bound :=
  wf.log.under _ _ logged

theorem Wf.listing_lt (wf : ledger.Wf bound) {token : OwnershipKey} {listing : ListingValue}
    (stored : ledger.listings.get token = some listing) : listing.opScore < bound := by
  obtain ⟨common, info, logged, _⟩ := (wf.listed stored).1.logged
  exact wf.operation_lt logged

/-- A well-formed ledger extends itself above its bound. -/
theorem Wf.extends_self (wf : ledger.Wf bound) (le : bound ≤ threshold) :
    ledger.Extends threshold ledger where
  operationHistory := Partition.below_eq_self (wf.log.under.mono le)
  txIdToOpscore := by
    refine Partition.below_eq_self fun txId score stored => ?_
    obtain ⟨checked, logged, _⟩ := wf.log.indexed.1 stored
    exact (wf.operation_lt logged).trans_le le
  collectionDeployments := by
    refine Partition.below_eq_self fun key info stored => ?_
    have registered := wf.collections.deployments.1 stored
    exact (wf.collections.under _ _ registered).trans_le le
  collectionRegistry := Partition.below_eq_self (wf.collections.under.mono le)
  mintHistory := by
    refine Partition.below_eq_self fun key row stored => ?_
    exact (wf.mint_lt (Option.isSome_iff_exists.2 ⟨row, stored⟩)).trans_le le
  ownershipChanges := Partition.below_eq_self (wf.owned.under.mono le)
  ownershipHistory := by
    refine Partition.below_eq_self fun key owner stored => ?_
    obtain ⟨score, seq, reversed, row⟩ := wf.owned.history.1 (by rw [stored]; rfl)
    have low := wf.owned.score_lt row
    have scoreLe := wf.owned.score_le row
    simp only [OwnershipHistoryKey.rowScore, reversed] at low scoreLe ⊢
    omega
  vip := Partition.below_eq_self (wf.vip.mono le)
  ranges := by
    refine ⟨[], ⟨List.Pairwise.nil, ?_⟩, rfl⟩
    intro key
    refine iff_of_false List.not_mem_nil ?_
    rintro ⟨reached, minted, _⟩
    have low := wf.mint_lt minted
    simp only at low
    omega
  listings := by
    intro token
    refine .kept ?_ rfl
    rintro txId ⟨score, common, info, listScore, reached, logged, _⟩
    have low := wf.operation_lt logged
    omega

end Ledger

/-- The listing of a token is spent. One made below the threshold is the one to restore, and no
send has spent it before. -/
theorem Restorable.sold {threshold : ℕ} {old new new' : Ledger} {token : OwnershipKey}
    (earlier : Restorable threshold old new token) (oldWf : old.Wf threshold)
    {listing : ListingValue} (found : new.listings.get token = some listing)
    (gone : new'.listings.get token = none)
    (spent : ∀ txId, new'.SpentListing threshold token txId ↔
      new.SpentListing threshold token txId ∨
        txId = listing.listingTxId ∧ listing.opScore < threshold) :
    Restorable threshold old new' token := by
  have relisted : new'.Relisted threshold token := by
    intro listing' stored
    rw [gone] at stored
    cases stored
  rcases lt_or_ge listing.opScore threshold with low | high
  · cases earlier with
    | kept unspent same =>
        refine .spent listing (by rw [← same, found]) ((spent _).2 (.inr ⟨rfl, low⟩)) ?_ relisted
        intro txId spentNow
        exact (((spent txId).1 spentNow).resolve_left (unspent txId)).1
    | unlisted _ _ relisted | spent _ _ _ _ relisted =>
        have high := relisted listing found
        omega
  · have sameSpent : ∀ txId, new'.SpentListing threshold token txId ↔
        new.SpentListing threshold token txId := by
      intro txId
      rw [spent]
      refine or_iff_left ?_
      rintro ⟨_, low⟩
      omega
    cases earlier with
    | kept unspent kept =>
        rw [found] at kept
        have low := oldWf.listing_lt kept.symm
        omega
    | unlisted unspent absent _ =>
        exact .unlisted (fun txId => mt (sameSpent txId).1 (unspent txId)) absent relisted
    | spent listing' found' spending unique _ =>
        exact .spent listing' found' ((sameSpent _).2 spending)
          (fun txId spentNow => unique txId ((sameSpent txId).1 spentNow)) relisted

/-! The history rows of an operation at or above the threshold do not show below it. -/

/-- Two stores have the same history rows below a threshold. -/
structure OwnershipStore.SameBelow (threshold : ℕ) (left right : OwnershipStore) : Prop where
  mintHistory : left.mintHistory.below MintHistoryKey.rowScore threshold =
    right.mintHistory.below MintHistoryKey.rowScore threshold
  ownershipChanges : left.ownershipChanges.below TokenMintsKey.rowScore threshold =
    right.ownershipChanges.below TokenMintsKey.rowScore threshold
  ownershipHistory : left.ownershipHistory.below OwnershipHistoryKey.rowScore threshold =
    right.ownershipHistory.below OwnershipHistoryKey.rowScore threshold

namespace OwnershipStore

variable {threshold score : ℕ} (owned : OwnershipStore) (tick : Tick) (seq tokenId : ℕ)

theorem SameBelow.refl : owned.SameBelow threshold owned := ⟨rfl, rfl, rfl⟩

theorem below_insert_history (reached : threshold ≤ score) (le : score ≤ u64Max)
    (toSpk : ScriptPublicKey) :
    (owned.ownershipHistory.insert (.withScore tick tokenId score) toSpk).below
        OwnershipHistoryKey.rowScore threshold =
      owned.ownershipHistory.below OwnershipHistoryKey.rowScore threshold := by
  refine Partition.below_insert_of_key _ fun _ => ?_
  simp only [OwnershipHistoryKey.rowScore, OwnershipHistoryKey.withScore]
  omega

theorem sameBelow_recordMint (reached : threshold ≤ score) (le : score ≤ u64Max)
    (toSpk : ScriptPublicKey) :
    (owned.recordMint tick seq tokenId score toSpk).SameBelow threshold owned where
  mintHistory := Partition.below_insert_of_key _ fun _ => reached
  ownershipChanges := Partition.below_insert_of_key _ fun _ => reached
  ownershipHistory := owned.below_insert_history tick tokenId reached le toSpk

theorem sameBelow_recordTransfer (reached : threshold ≤ score) (le : score ≤ u64Max)
    (fromSpk toSpk : ScriptPublicKey) :
    (owned.recordTransfer tick tokenId score fromSpk toSpk).SameBelow threshold owned where
  mintHistory := rfl
  ownershipChanges := Partition.below_insert_of_key _ fun _ => reached
  ownershipHistory := owned.below_insert_history tick tokenId reached le toSpk

theorem sameBelow_premints (reached : threshold ≤ score) (le : score ≤ u64Max)
    (toSpk : ScriptPublicKey) (count : ℕ) :
    (owned.premints tick score toSpk seq count).SameBelow threshold owned := by
  induction count generalizing owned seq with
  | zero => exact SameBelow.refl owned
  | succ count ih =>
      obtain ⟨mints, changes, history⟩ :=
        ih (owned.recordMint tick (seq + 1) (seq + 1) score toSpk) (seq + 1)
      have first := owned.sameBelow_recordMint tick (seq + 1) (seq + 1) reached le toSpk
      exact ⟨mints.trans first.mintHistory, changes.trans first.ownershipChanges,
        history.trans first.ownershipHistory⟩

/-- Premints are mints of their own tick. -/
theorem premints_mintHistory (toSpk : ScriptPublicKey) (count : ℕ) {key : MintHistoryKey}
    (different : key.tick ≠ tick) :
    (owned.premints tick score toSpk seq count).mintHistory.get key =
      owned.mintHistory.get key := by
  induction count generalizing owned seq with
  | zero => rfl
  | succ count ih =>
      rw [premints, ih, recordMint]
      refine Partition.get_insert_of_ne _ _ ?_
      rintro rfl
      exact different rfl

end OwnershipStore

namespace Ledger

variable {ledger : Ledger} {bound : ℕ}

/-- The random mints after a token was minted. -/
theorem drawn_minted {new : Ledger} {tick : Tick} {seq tokenId score : ℕ}
    {toSpk : ScriptPublicKey} {entry : ScoredDeployInfoWithCommon} {key : TokenMintsKey}
    (found : ledger.collectionRegistry.get tick = some entry)
    (registry : new.collectionRegistry = ledger.collectionRegistry)
    (mints : new.mintHistory = (ledger.recordMint tick seq tokenId score toSpk).mintHistory) :
    new.Drawn key ↔ ledger.Drawn key ∨
      key = .withSeq score tick tokenId seq ∧ entry.info.info.premint < tokenId := by
  obtain ⟨score', tick', tokenId', reversed'⟩ := key
  simp only [Drawn, registry, mints, OwnershipStore.recordMint, MintHistoryKey.withSeq,
    TokenMintsKey.withSeq, TokenMintsKey.mk.injEq, Partition.get_insert, MintHistoryKey.mk.injEq]
  by_cases same : tick = tick' ∧ u64Max - seq = reversed' ∧ tokenId = tokenId' ∧ score = score'
  · obtain ⟨rfl, rfl, rfl, rfl⟩ := same
    simp only [found, and_self, if_true, Option.isSome_some, true_and, Option.some.injEq,
      exists_eq_left']
    exact ⟨.inr, fun drawn => drawn.elim And.right id⟩
  · rw [if_neg same]
    refine (or_iff_left ?_).symm
    rintro ⟨⟨rfl, rfl, rfl, rfl⟩, _⟩
    exact same ⟨rfl, rfl, rfl, rfl⟩

/-- A deployment makes no random mint: its premints do not lie above themselves. -/
theorem Wf.drawn_deployed (wf : ledger.Wf bound) {new : Ledger} {info : DeployInfo}
    {common : OperationCommon} {score : ℕ} {key : TokenMintsKey} (reached : bound ≤ score)
    (le : score ≤ u64Max) (sound : info.Sound)
    (free : ledger.collectionRegistry.get common.tick = none)
    (registry : new.collectionRegistry =
      ledger.collectionRegistry.insert common.tick ⟨score, info, common⟩)
    (mints : new.mintHistory =
      (ledger.premints common.tick score info.deployer 0 info.premint).mintHistory) :
    new.Drawn key ↔ ledger.Drawn key := by
  simp only [Drawn, registry, mints, Partition.get_insert]
  by_cases same : common.tick = key.tick
  · refine iff_of_false ?_ ?_
    · rintro ⟨minted, entry, found, high⟩
      rw [if_pos same] at found
      cases found
      obtain ⟨_, ids, length, supply⟩ := OwnershipStore.premints_spec info.premint info.deployer
        (wf.owned.mono (by omega : bound ≤ score + 1) (by omega)) (Nat.lt_succ_self _) sound
        (wf.undeployed free _ _) (by simp)
      simp only [List.length_nil, zero_add] at length
      rw [← same] at minted
      obtain ⟨index, atIndex, _⟩ := supply.issued.numbered minted
      have bounds := supply.mem_premint length.le (List.mem_of_getElem? atIndex)
      simp only at high
      omega
    · rintro ⟨_, entry, found, _⟩
      rw [← same, free] at found
      cases found
  · rw [if_neg same, OwnershipStore.premints_mintHistory _ _ _ _ _ (Ne.symm same)]

end Ledger

namespace Applied

variable {kaspa : Kaspa} {db db' : Db} {context : ContextOperation} {checked : CheckedOperation}
variable {bound threshold : ℕ}

theorem sameBelow (applied : Applied kaspa db context db' checked)
    (above : threshold ≤ context.txScore) (le : context.txScore ≤ u64Max) :
    db'.toOwnershipStore.SameBelow threshold db.toOwnershipStore := by
  cases applied with
  | deployed info kind free => exact OwnershipStore.sameBelow_premints _ _ _ above le _ _
  | minted info entry ids tokenId ranges kind found mint supply =>
      exact OwnershipStore.sameBelow_recordMint _ _ _ _ above le _
  | transferred info current kind owned bySender unlisted =>
      exact OwnershipStore.sameBelow_recordTransfer _ _ _ above le _ _
  | sold info listing buyer kind found spends toBuyer =>
      exact OwnershipStore.sameBelow_recordTransfer _ _ _ above le _ _
  | _ => exact OwnershipStore.SameBelow.refl _

theorem collections_below (applied : Applied kaspa db context db' checked)
    (above : threshold ≤ context.txScore) :
    db'.collectionDeployments.below DeploymentKey.rowScore threshold =
        db.collectionDeployments.below DeploymentKey.rowScore threshold ∧
      db'.collectionRegistry.below (fun _ entry => entry.score) threshold =
        db.collectionRegistry.below (fun _ entry => entry.score) threshold := by
  cases applied with
  | deployed info kind free =>
      exact ⟨Partition.below_insert_of_key _ fun _ => above, Partition.below_insert above free⟩
  | _ => exact ⟨rfl, rfl⟩

theorem vip_below (applied : Applied kaspa db context db' checked)
    (above : threshold ≤ context.txScore) (le : context.txScore ≤ u64Max) :
    db'.vip.below VipKey.rowScore threshold = db.vip.below VipKey.rowScore threshold := by
  cases applied with
  | discounted info entry kind found byDeployer lower =>
      refine Partition.below_insert_of_key _ fun _ => ?_
      simp only [VipKey.rowScore]
      omega
  | _ => rfl

/-- A random mint is newer than every earlier one. -/
theorem draws_append {draws : List TokenMintsKey} {key : TokenMintsKey}
    (wf : db.toLedger.Wf bound) (reached : bound ≤ key.score)
    (listed : Draws db.toLedger threshold draws) : (draws ++ [key]).Pairwise (· < ·) := by
  rw [List.pairwise_append]
  refine ⟨listed.ordered, List.pairwise_singleton _ _, ?_⟩
  intro earlier member last lastMember
  rw [List.mem_singleton] at lastMember
  subst last
  have low := wf.mint_lt (listed.mem.1 member).2.1
  simp only at low
  exact TokenMintsKey.lt_iff.2 (.inl (by omega))

/-- The random mints after an operation, and the ranges they can be rolled back to. -/
theorem draws (applied : Applied kaspa db context db' checked)
    (wf : db.toLedger.Wf bound) (reached : bound ≤ context.txScore)
    (above : threshold ≤ context.txScore) (le : context.txScore ≤ u64Max)
    (sound : context.operation.Sound) {old : RangeStore}
    (earlier : ∃ draws, Draws db.toLedger threshold draws ∧
      db.toRangeStore.rollbackAll draws.reverse = .ok old) :
    ∃ draws, Draws db'.toLedger threshold draws ∧
      db'.toRangeStore.rollbackAll draws.reverse = .ok old := by
  obtain ⟨draws, listed, rollback⟩ := earlier
  cases applied with
  | deployed info kind free =>
      refine ⟨draws, ⟨listed.ordered, fun {key} => listed.mem.trans ?_⟩, rollback⟩
      exact and_congr_right fun _ =>
        (wf.drawn_deployed reached le (sound info kind) free rfl rfl).symm
  | minted info entry ids tokenId ranges kind found mint supply =>
      rcases mint.source with ⟨low, rfl⟩ | ⟨high, restored⟩
      · refine ⟨draws, ⟨listed.ordered, fun {key} => listed.mem.trans ?_⟩, rollback⟩
        refine and_congr_right fun _ => Iff.symm ?_
        refine Iff.trans (Ledger.drawn_minted found rfl rfl) (or_iff_left ?_)
        rintro ⟨_, drawn⟩
        omega
      · refine ⟨draws ++ [.withSeq context.txScore context.operation.common.tick tokenId
          (ids.length + 1)], ⟨draws_append wf reached listed, fun {key} => ?_⟩, ?_⟩
        · rw [List.mem_append, List.mem_singleton, listed.mem]
          refine Iff.symm (Iff.trans (and_congr_right fun _ =>
            Ledger.drawn_minted found rfl rfl) ?_)
          rw [and_iff_left high, and_or_left]
          refine or_congr_right (and_iff_right_of_imp ?_)
          rintro rfl
          exact above
        · rw [List.reverse_append, List.reverse_singleton, List.singleton_append,
            RangeStore.rollbackAll]
          simp only [TokenMintsKey.withSeq, restored]
          exact rollback
  | _ => exact ⟨draws, ⟨listed.ordered, listed.mem⟩, rollback⟩

/-- The listings that sends from the threshold on have spent, after one more operation. -/
theorem spentListing_iff (token : OwnershipKey) (txId : TransactionId)
    (applied : Applied kaspa db context db' checked)
    (above : threshold ≤ context.txScore) (wf : db.toLedger.Wf bound)
    (reached : bound ≤ context.txScore)
    (fresh : db.txIdToOpscore.get context.operation.common.txId = none) :
    (db'.recordOperation context.txScore checked).SpentListing threshold token txId ↔
      db.SpentListing threshold token txId ∨
        ∃ common info listScore, checked = ⟨⟨common, .send info⟩, none⟩ ∧
          common.tick = token.tick ∧ info.tokenId = token.tokenId ∧
          info.listingUtxoTxid = txId ∧ db.txIdToOpscore.get txId = some listScore ∧
          listScore < threshold := by
  obtain ⟨sameLog, _, sameCommon⟩ := applied.frame
  have history : (db'.recordOperation context.txScore checked).operationHistory =
      db.operationHistory.insert context.txScore checked := by
    rw [Db.recordOperation, congrArg LogStore.operationHistory sameLog]
  -- a transaction with a score below the threshold is not the one just recorded
  have index : ∀ {listScore}, listScore < threshold →
      ((db'.recordOperation context.txScore checked).txIdToOpscore.get txId = some listScore ↔
        db.txIdToOpscore.get txId = some listScore) := by
    intro listScore low
    rw [Db.recordOperation, congrArg LogStore.txIdToOpscore sameLog, Partition.get_insert,
      sameCommon]
    split
    · rename_i same
      subst same
      rw [fresh]
      simp only [Option.some.injEq, reduceCtorEq, iff_false]
      omega
    · rfl
  simp only [Ledger.SpentListing, history, Partition.get_insert]
  constructor
  · rintro ⟨score, common, info, listScore, high, logged, tick, tokenId, spends, stored, low⟩
    rw [index low] at stored
    split at logged
    · exact .inr ⟨common, info, listScore, Option.some.inj logged, tick, tokenId, spends,
        stored, low⟩
    · exact .inl ⟨score, common, info, listScore, high, logged, tick, tokenId, spends, stored,
        low⟩
  · intro spent
    rcases spent with
      ⟨score, common, info, listScore, high, logged, tick, tokenId, spends, stored, low⟩ |
      ⟨common, info, listScore, accepted, tick, tokenId, spends, stored, low⟩
    · refine ⟨score, common, info, listScore, high, ?_, tick, tokenId, spends,
        (index low).2 stored, low⟩
      have older := wf.operation_lt logged
      rw [if_neg (by omega), logged]
    · exact ⟨context.txScore, common, info, listScore, above, by rw [if_pos rfl, accepted],
        tick, tokenId, spends, (index low).2 stored, low⟩

/-- An operation that is no accepted send keeps every listing, or makes a new one. -/
theorem listings_of_not_send (applied : Applied kaspa db context db' checked)
    (unsent : ∀ common info, checked ≠ ⟨⟨common, .send info⟩, none⟩) (token : OwnershipKey) :
    db'.listings.get token = db.listings.get token ∨
      db.listings.get token = none ∧
        ∃ listing, db'.listings.get token = some listing ∧ listing.opScore = context.txScore := by
  cases applied with
  | listed info current kind owned bySender unlisted locked =>
      simp only [Db.insertListing, Partition.get_insert]
      split
      · rename_i same
        subst same
        exact .inr ⟨unlisted, _, rfl, rfl⟩
      · exact .inl rfl
  | sold info listing buyer kind found spends toBuyer
  | cancelled info listing kind found spends noBuyer =>
      refine absurd ?_ (unsent context.operation.common info)
      rw [← kind]
  | _ => exact .inl rfl

/-- An accepted send spends the listing it found, besides those spent before. -/
theorem spentListing_sent (applied : Applied kaspa db context db' checked)
    (above : threshold ≤ context.txScore) (wf : db.toLedger.Wf bound)
    (reached : bound ≤ context.txScore)
    (fresh : db.txIdToOpscore.get context.operation.common.txId = none) {common : OperationCommon}
    {info : SendInfo} (accepted : checked = ⟨⟨common, .send info⟩, none⟩)
    {listing : ListingValue}
    (found : db.listings.get ⟨common.tick, info.tokenId⟩ = some listing)
    (spends : info.listingUtxoTxid = listing.listingTxId) (txId : TransactionId) :
    (db'.recordOperation context.txScore checked).SpentListing threshold
        ⟨common.tick, info.tokenId⟩ txId ↔
      db.SpentListing threshold ⟨common.tick, info.tokenId⟩ txId ∨
        txId = listing.listingTxId ∧ listing.opScore < threshold := by
  have indexed := (wf.listed found).1.indexed
  rw [applied.spentListing_iff _ txId above wf reached fresh]
  refine or_congr_right ⟨?_, ?_⟩
  · rintro ⟨common', info', listScore, accepted', _, _, rfl, stored, low⟩
    rw [accepted] at accepted'
    cases accepted'
    rw [spends, indexed, Option.some_inj] at stored
    subst stored
    exact ⟨spends, low⟩
  · rintro ⟨rfl, low⟩
    exact ⟨common, info, _, accepted, rfl, rfl, spends, indexed, low⟩

/-- An operation that is no accepted send of a token spends none of its listings. -/
theorem spentListing_of_not_sent (applied : Applied kaspa db context db' checked)
    (above : threshold ≤ context.txScore) (wf : db.toLedger.Wf bound)
    (reached : bound ≤ context.txScore)
    (fresh : db.txIdToOpscore.get context.operation.common.txId = none) (token : OwnershipKey)
    (unsent : ∀ common info, checked = ⟨⟨common, .send info⟩, none⟩ →
      (⟨common.tick, info.tokenId⟩ : OwnershipKey) ≠ token) (txId : TransactionId) :
    (db'.recordOperation context.txScore checked).SpentListing threshold token txId ↔
      db.SpentListing threshold token txId := by
  rw [applied.spentListing_iff _ txId above wf reached fresh]
  refine or_iff_left ?_
  rintro ⟨common, info, _, accepted, tick, tokenId, _⟩
  exact unsent common info accepted (by rw [tick, tokenId])

/-- The listings below the threshold stay restorable. -/
theorem restorable (applied : Applied kaspa db context db' checked)
    (above : threshold ≤ context.txScore) (wf : db.toLedger.Wf bound)
    (reached : bound ≤ context.txScore)
    (fresh : db.txIdToOpscore.get context.operation.common.txId = none) {old : Ledger}
    (oldWf : old.Wf threshold) {token : OwnershipKey}
    (earlier : Restorable threshold old db.toLedger token) :
    Restorable threshold old (db'.recordOperation context.txScore checked).toLedger token := by
  by_cases send : ∃ common info, checked = ⟨⟨common, .send info⟩, none⟩
  · obtain ⟨common, info, accepted⟩ := send
    obtain ⟨listing, _, found, spends, erased⟩ := applied.accepted_send accepted
    by_cases same : (⟨common.tick, info.tokenId⟩ : OwnershipKey) = token
    · subst same
      have gone : (db'.recordOperation context.txScore checked).listings.get
          ⟨common.tick, info.tokenId⟩ = none := by
        rw [Db.recordOperation, erased, Partition.get_erase_self]
      exact earlier.sold oldWf found gone
        (applied.spentListing_sent above wf reached fresh accepted found spends)
    · have unchanged : (db'.recordOperation context.txScore checked).listings.get token =
          db.listings.get token := by
        rw [Db.recordOperation, erased, Partition.get_erase_of_ne _ same]
      refine earlier.congr (applied.spentListing_of_not_sent above wf reached fresh token ?_)
        unchanged
      intro common' info' accepted'
      rw [accepted] at accepted'
      cases accepted'
      exact same
  · push Not at send
    have sameSpent := applied.spentListing_of_not_sent above wf reached fresh token
      fun common info accepted => absurd accepted (send common info)
    rcases applied.listings_of_not_send send token with unchanged | ⟨absent, listing, made, at_⟩
    · exact earlier.congr sameSpent unchanged
    · refine earlier.listed absent sameSpent ?_
      intro listing' stored
      have recorded : (db'.recordOperation context.txScore checked).listings = db'.listings := rfl
      rw [recorded, made, Option.some_inj] at stored
      subst stored
      omega

/-- An operation at or above the threshold keeps the extension. -/
theorem extends_step (applied : Applied kaspa db context db' checked)
    (wf : db.toLedger.Wf bound) (reached : bound ≤ context.txScore)
    (above : threshold ≤ context.txScore) (le : context.txScore ≤ u64Max)
    (sound : context.operation.Sound)
    (fresh : db.txIdToOpscore.get context.operation.common.txId = none) {old : Ledger}
    (oldWf : old.Wf threshold) (earlier : old.Extends threshold db.toLedger) :
    old.Extends threshold (db'.recordOperation context.txScore checked).toLedger := by
  obtain ⟨sameLog, _, sameCommon⟩ := applied.frame
  obtain ⟨mints, changes, history⟩ := applied.sameBelow above le
  obtain ⟨deployments, registry⟩ := applied.collections_below above
  refine ⟨?_, ?_, deployments.trans earlier.collectionDeployments,
    registry.trans earlier.collectionRegistry, mints.trans earlier.mintHistory,
    changes.trans earlier.ownershipChanges, history.trans earlier.ownershipHistory,
    (applied.vip_below above le).trans earlier.vip,
    ?_,
    fun token => applied.restorable above wf reached fresh oldWf (earlier.listings token)⟩
  · rw [Db.recordOperation, congrArg LogStore.operationHistory sameLog,
      Partition.below_insert_of_key _ fun _ => above]
    exact earlier.operationHistory
  · rw [Db.recordOperation, congrArg LogStore.txIdToOpscore sameLog,
      Partition.below_insert above (by rw [sameCommon]; exact fresh)]
    exact earlier.txIdToOpscore
  · obtain ⟨draws, listed, rollback⟩ :=
      applied.draws wf reached above le sound earlier.ranges
    exact ⟨draws, ⟨listed.ordered, listed.mem⟩, rollback⟩

end Applied

end Krc721
