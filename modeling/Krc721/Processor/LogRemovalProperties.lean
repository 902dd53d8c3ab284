import Krc721.Processor.ExtensionProperties

/-! Undoing the log. The loop over the operations from the threshold on clears both indexes of
the log in ascending order, so that a reorged send finds its list operation exactly when that
operation stays; then it puts the listing of the old ledger back. -/

set_option autoImplicit false

namespace Krc721

open OrderedStore

/-- The address index names every listing under its seller, and nothing else. -/
def Db.AddressIndexed (db : Db) : Prop :=
  ∀ spk tick tokenId score, db.addressListings.get ⟨spk, tick, tokenId⟩ = some score ↔
    ∃ listing, db.listings.get ⟨tick, tokenId⟩ = some listing ∧ listing.seller = spk ∧
      listing.opScore = score

/-- A listing from the threshold on whose token was listed by somebody else below it. -/
def RestoreClash (threshold : ℕ) (old new : Ledger) : Prop :=
  ∃ token listing current, old.listings.get token = some listing ∧
    new.listings.get token = some current ∧ threshold ≤ current.opScore ∧
    current.seller ≠ listing.seller

/-- An accepted send of a token whose listing is from below the threshold. -/
def Ledger.Spends (ledger : Ledger) (threshold : ℕ) (token : OwnershipKey)
    (checked : CheckedOperation) : Prop :=
  ∃ common info listScore, checked = ⟨⟨common, .send info⟩, none⟩ ∧
    common.tick = token.tick ∧ info.tokenId = token.tokenId ∧
    ledger.txIdToOpscore.get info.listingUtxoTxid = some listScore ∧ listScore < threshold

/-- The loop over the removed operations, with `rest` still to come: from the threshold on
only they are logged, and a listing is the newest one or already the old one. -/
structure Clearing (threshold : ℕ) (old : Ledger) (before : Db)
    (rest : List (ℕ × CheckedOperation)) (db : Db) : Prop where
  operationHistory : ∀ {score checked}, db.operationHistory.get score = some checked ↔
    before.operationHistory.get score = some checked ∧
      (score < threshold ∨ (score, checked) ∈ rest)
  txIdToOpscore : ∀ {txId score}, db.txIdToOpscore.get txId = some score ↔
    before.txIdToOpscore.get txId = some score ∧
      (score < threshold ∨ ∃ checked, (score, checked) ∈ rest)
  listings : ∀ token, db.listings.get token = old.listings.get token ∨
    db.listings.get token = before.listings.get token ∧
      ((∀ txId, ¬ before.SpentListing threshold token txId) ∨
        ∃ entry ∈ rest, before.Spends threshold token entry.2)
  byTick : ∀ token, db.listingsByTick.get ⟨token.tick, token.tokenId⟩ =
    (db.listings.get token).map fun _ => ()
  addressed : before.AddressIndexed → ¬ RestoreClash threshold old before.toLedger →
    db.AddressIndexed
  frame : db.toCollectionStore = before.toCollectionStore ∧
    db.toOwnershipStore = before.toOwnershipStore ∧ db.toRangeStore = before.toRangeStore ∧
    db.vip = before.vip ∧ db.toChainStore = before.toChainStore ∧
    db.scoreToDiscount = before.scoreToDiscount

/-- Storing a listing over one by the same seller, or over none, keeps the address index. -/
theorem Db.AddressIndexed.insertListing {db : Db} (indexed : db.AddressIndexed) {tick : Tick}
    {tokenId : ℕ} {value : ListingValue}
    (sameSeller : ∀ listing, db.listings.get ⟨tick, tokenId⟩ = some listing →
      listing.seller = value.seller) : (db.insertListing tick tokenId value).AddressIndexed := by
  intro spk tick' tokenId' score
  have before := indexed spk tick' tokenId' score
  simp only [Db.insertListing, Partition.get_insert, AddressHoldingKey.mk.injEq,
    OwnershipKey.mk.injEq]
  by_cases same : tick = tick' ∧ tokenId = tokenId'
  · obtain ⟨rfl, rfl⟩ := same
    simp only [and_self, and_true, if_true, Option.some.injEq, exists_eq_left']
    by_cases seller : value.seller = spk
    · simp [seller]
    · simp only [seller, if_false, false_and, iff_false]
      intro stored
      obtain ⟨listing, found, sold, _⟩ := before.1 stored
      exact seller (by rw [← sameSeller listing found, sold])
  · rw [if_neg same, if_neg fun equal => same equal.2]
    exact before

/-- Removing a listing under its seller keeps the address index. -/
theorem Db.AddressIndexed.removeListing {db : Db} (indexed : db.AddressIndexed) {tick : Tick}
    {tokenId : ℕ} {seller : ScriptPublicKey}
    (bySeller : ∀ listing, db.listings.get ⟨tick, tokenId⟩ = some listing →
      listing.seller = seller) : (db.removeListing tick tokenId seller).AddressIndexed := by
  intro spk tick' tokenId' score
  have before := indexed spk tick' tokenId' score
  simp only [Db.removeListing, Partition.get_erase, AddressHoldingKey.mk.injEq,
    OwnershipKey.mk.injEq]
  by_cases same : tick = tick' ∧ tokenId = tokenId'
  · obtain ⟨rfl, rfl⟩ := same
    simp only [and_self, and_true, if_true, reduceCtorEq, false_and, exists_false, iff_false]
    split
    · exact Option.some_ne_none _ ∘ Eq.symm
    · rename_i other
      intro stored
      obtain ⟨listing, found, sold, _⟩ := before.1 stored
      exact other (by rw [← bySeller listing found, sold])
  · rw [if_neg same, if_neg fun equal => same equal.2]
    exact before

namespace Clearing

variable {threshold bound : ℕ} {old : Ledger} {before db : Db}
variable {rest : List (ℕ × CheckedOperation)} {score : ℕ} {checked : CheckedOperation}

theorem start (wf : before.toLedger.Wf bound) :
    Clearing threshold old before (before.operationHistory.entriesFrom threshold) before where
  operationHistory := by
    intro score checked
    rw [Partition.mem_entriesFrom]
    constructor
    · intro logged
      exact ⟨logged, (lt_or_ge score threshold).imp id fun reached => ⟨logged, reached⟩⟩
    · exact And.left
  txIdToOpscore := by
    intro txId score
    constructor
    · intro stored
      refine ⟨stored, (lt_or_ge score threshold).imp id fun reached => ?_⟩
      obtain ⟨checked, logged, _⟩ := wf.log.indexed.1 stored
      exact ⟨checked, Partition.mem_entriesFrom.2 ⟨logged, reached⟩⟩
    · exact And.left
  listings := by
    intro token
    refine .inr ⟨rfl, ?_⟩
    by_cases spent : ∃ txId, before.SpentListing threshold token txId
    · obtain ⟨txId, score, common, info, listScore, reached, logged, tick, tokenId, rfl, stored,
        low⟩ := spent
      exact .inr ⟨_, Partition.mem_entriesFrom.2 ⟨logged, reached⟩, common, info, listScore,
        rfl, tick, tokenId, stored, low⟩
    · exact .inl (not_exists.1 spent)
  byTick := wf.indexed
  addressed := fun indexed _ => indexed
  frame := ⟨rfl, rfl, rfl, rfl, rfl, rfl⟩

theorem log (clearing : Clearing threshold old before ((score, checked) :: rest) db)
    (wf : before.toLedger.Wf bound) (reached : threshold ≤ score)
    (logged : before.operationHistory.get score = some checked)
    (ordered : ∀ entry ∈ rest, score < entry.1) :
    (∀ {score' checked'}, (db.operationHistory.erase score).get score' = some checked' ↔
      before.operationHistory.get score' = some checked' ∧
        (score' < threshold ∨ (score', checked') ∈ rest)) ∧
    ∀ {txId score'},
      (db.txIdToOpscore.erase checked.operation.common.txId).get txId = some score' ↔
        before.txIdToOpscore.get txId = some score' ∧
          (score' < threshold ∨ ∃ checked', (score', checked') ∈ rest) := by
  have indexed := @wf.log.indexed checked.operation.common.txId score
  have recorded := indexed.2 ⟨checked, logged, rfl⟩
  constructor
  · intro score' checked'
    rw [Partition.get_erase]
    split
    · rename_i same
      subst same
      simp only [reduceCtorEq, false_iff, not_and, not_or]
      refine fun _ => ⟨by omega, fun member => ?_⟩
      have later := ordered _ member
      simp only at later
      omega
    · rename_i different
      rw [clearing.operationHistory, List.mem_cons]
      refine and_congr_right fun _ => or_congr_right (or_iff_right ?_)
      rintro equal
      cases equal
      exact different rfl
  · intro txId score'
    rw [Partition.get_erase]
    split
    · rename_i same
      subst same
      simp only [reduceCtorEq, false_iff, not_and, not_or]
      intro stored
      rw [recorded, Option.some_inj] at stored
      subst stored
      refine ⟨by omega, ?_⟩
      rintro ⟨checked', member⟩
      have later := ordered _ member
      simp only at later
      omega
    · rename_i different
      rw [clearing.txIdToOpscore]
      refine and_congr_right fun stored => or_congr_right ?_
      simp only [List.mem_cons, Prod.mk.injEq]
      refine exists_congr fun checked' => or_iff_right ?_
      rintro ⟨rfl, rfl⟩
      obtain ⟨checked'', logged', same⟩ := wf.log.indexed.1 stored
      rw [logged, Option.some_inj] at logged'
      subst logged'
      exact different same

theorem skip (clearing : Clearing threshold old before ((score, checked) :: rest) db)
    (wf : before.toLedger.Wf bound) (reached : threshold ≤ score)
    (logged : before.operationHistory.get score = some checked)
    (ordered : ∀ entry ∈ rest, score < entry.1)
    (spendsNone : ∀ token, ¬ before.Spends threshold token checked) :
    Clearing threshold old before rest { db with
      txIdToOpscore := db.txIdToOpscore.erase checked.operation.common.txId
      operationHistory := db.operationHistory.erase score } := by
  obtain ⟨operations, index⟩ := clearing.log wf reached logged ordered
  refine ⟨operations, index, fun token => ?_, clearing.byTick, clearing.addressed,
    clearing.frame⟩
  refine (clearing.listings token).imp id fun ⟨same, spent⟩ => ⟨same, spent.imp id ?_⟩
  rintro ⟨entry, member, spends⟩
  rcases List.mem_cons.1 member with rfl | later
  · exact absurd spends (spendsNone token)
  · exact ⟨entry, later, spends⟩

/-- A turn that removes the send of a listing from below the threshold finds the list
operation and restores the old listing. -/
theorem restore (clearing : Clearing threshold old before ((score, checked) :: rest) db)
    (wf : before.toLedger.Wf bound) (oldWf : old.Wf threshold)
    (extended : old.Extends threshold before.toLedger) (reached : threshold ≤ score)
    (logged : before.operationHistory.get score = some checked)
    (ordered : ∀ entry ∈ rest, score < entry.1)
    {common : OperationCommon} {info : SendInfo} {listScore : ℕ}
    (accepted : checked = ⟨⟨common, .send info⟩, none⟩)
    (stored : before.txIdToOpscore.get info.listingUtxoTxid = some listScore)
    (low : listScore < threshold) :
    ∃ listing, old.listings.get ⟨common.tick, info.tokenId⟩ = some listing ∧
      restoreListingForReorgedSend { db with
          txIdToOpscore := db.txIdToOpscore.erase checked.operation.common.txId
          operationHistory := db.operationHistory.erase score } common info =
        Db.insertListing { db with
          txIdToOpscore := db.txIdToOpscore.erase checked.operation.common.txId
          operationHistory := db.operationHistory.erase score }
          common.tick info.tokenId listing := by
  obtain ⟨operations, index⟩ := clearing.log wf reached logged ordered
  have spending : before.SpentListing threshold ⟨common.tick, info.tokenId⟩
      info.listingUtxoTxid :=
    ⟨score, common, info, listScore, reached, by rw [logged, accepted], rfl, rfl, rfl, stored,
      low⟩
  cases extended.listings ⟨common.tick, info.tokenId⟩ with
  | kept unspent same => exact absurd spending (unspent _)
  | unlisted unspent absent relisted => exact absurd spending (unspent _)
  | spent listing found _ unique _ =>
      have spends := unique _ spending
      obtain ⟨indexed, listCommon, listInfo, listLogged, _, _, seller, utxo, redeem⟩ :=
        (oldWf.listed found).1
      -- the rows of the old log are rows of the log below the threshold
      rw [← extended.txIdToOpscore, Partition.get_below_eq_some_iff, ← spends, stored,
        Option.some_inj] at indexed
      obtain ⟨rfl, _⟩ := indexed
      rw [← extended.operationHistory, Partition.get_below_eq_some_iff] at listLogged
      refine ⟨listing, found, ?_⟩
      have value : (⟨listCommon.sender, info.listingUtxoTxid, listInfo.utxoAddress,
          listInfo.redeemScript, listing.opScore⟩ : ListingValue) = listing := by
        rw [seller, utxo, redeem, spends]
      unfold restoreListingForReorgedSend
      simp only [index.2 ⟨stored, .inl low⟩, operations.2 ⟨listLogged.1, .inl low⟩,
        Option.isSome_none, Bool.false_eq_true, if_false, value]

/-- A turn that removes any other send finds no list operation: its index entry is gone. -/
theorem restore_none (clearing : Clearing threshold old before ((score, checked) :: rest) db)
    (wf : before.toLedger.Wf bound) (reached : threshold ≤ score)
    (logged : before.operationHistory.get score = some checked)
    (ordered : ∀ entry ∈ rest, score < entry.1)
    {common : OperationCommon} {info : SendInfo}
    (accepted : checked = ⟨⟨common, .send info⟩, none⟩)
    (spendsNone : ∀ token, ¬ before.Spends threshold token checked) :
    restoreListingForReorgedSend { db with
        txIdToOpscore := db.txIdToOpscore.erase checked.operation.common.txId
        operationHistory := db.operationHistory.erase score } common info = { db with
      txIdToOpscore := db.txIdToOpscore.erase checked.operation.common.txId
      operationHistory := db.operationHistory.erase score } := by
  obtain ⟨_, index⟩ := clearing.log wf reached logged ordered
  obtain ⟨listScore, stored, older⟩ := wf.settled (accepted ▸ logged)
  have missing : (db.txIdToOpscore.erase checked.operation.common.txId).get
      info.listingUtxoTxid = none := by
    rw [Option.eq_none_iff_forall_ne_some]
    intro listScore' present
    obtain ⟨stored', position⟩ := index.1 present
    rw [stored, Option.some_inj] at stored'
    subst stored'
    rcases position with low | ⟨checked', member⟩
    · exact spendsNone ⟨common.tick, info.tokenId⟩
        ⟨common, info, listScore, accepted, rfl, rfl, stored, low⟩
    · have later := ordered _ member
      simp only at later
      omega
  unfold restoreListingForReorgedSend
  simp only [missing]

theorem restored (clearing : Clearing threshold old before ((score, checked) :: rest) db)
    (wf : before.toLedger.Wf bound) (extended : old.Extends threshold before.toLedger)
    (reached : threshold ≤ score) (logged : before.operationHistory.get score = some checked)
    (ordered : ∀ entry ∈ rest, score < entry.1)
    {common : OperationCommon} {info : SendInfo} {listScore : ℕ} {listing : ListingValue}
    (accepted : checked = ⟨⟨common, .send info⟩, none⟩)
    (stored : before.txIdToOpscore.get info.listingUtxoTxid = some listScore)
    (low : listScore < threshold)
    (found : old.listings.get ⟨common.tick, info.tokenId⟩ = some listing) :
    Clearing threshold old before rest (Db.insertListing { db with
        txIdToOpscore := db.txIdToOpscore.erase checked.operation.common.txId
        operationHistory := db.operationHistory.erase score }
      common.tick info.tokenId listing) := by
  obtain ⟨operations, index⟩ := clearing.log wf reached logged ordered
  refine ⟨operations, index, fun token => ?_, fun token => ?_, fun indexed unclashed => ?_,
    clearing.frame⟩
  · simp only [Db.insertListing, Partition.get_insert]
    split
    · rename_i same
      subst same
      exact .inl found.symm
    · rename_i different
      refine (clearing.listings token).imp id fun sold => ⟨sold.1, sold.2.imp id ?_⟩
      rintro ⟨entry, member, spends⟩
      rcases List.mem_cons.1 member with rfl | later
      · obtain ⟨common', info', _, accepted', tick, tokenId, _⟩ := spends
        rw [accepted] at accepted'
        cases accepted'
        exact absurd (by rw [tick, tokenId]) different
      · exact ⟨entry, later, spends⟩
  · have byTick := clearing.byTick token
    obtain ⟨tick, tokenId⟩ := token
    simp only [Db.insertListing, Partition.get_insert, ListingByTickKey.mk.injEq,
      OwnershipKey.mk.injEq]
    split
    · rfl
    · exact byTick
  · refine Db.AddressIndexed.insertListing ?_ fun current held => ?_
    · exact fun spk tick tokenId score =>
        clearing.addressed indexed unclashed spk tick tokenId score
    · rcases clearing.listings ⟨common.tick, info.tokenId⟩ with same | ⟨same, _⟩
      · have equal := held.symm.trans (same.trans found)
        rw [Option.some_inj.1 equal]
      · by_contra different
        refine unclashed ⟨_, listing, current, found, same ▸ held, ?_, different⟩
        have spending : before.SpentListing threshold ⟨common.tick, info.tokenId⟩
            info.listingUtxoTxid :=
          ⟨score, common, info, listScore, reached, by rw [logged, accepted], rfl, rfl, rfl,
            stored, low⟩
        cases extended.listings ⟨common.tick, info.tokenId⟩ with
        | kept unspent _ => exact absurd spending (unspent _)
        | unlisted unspent _ _ => exact absurd spending (unspent _)
        | spent _ _ _ _ relisted => exact relisted current (same ▸ held)

theorem step (clearing : Clearing threshold old before ((score, checked) :: rest) db)
    (wf : before.toLedger.Wf bound) (oldWf : old.Wf threshold)
    (extended : old.Extends threshold before.toLedger) (reached : threshold ≤ score)
    (logged : before.operationHistory.get score = some checked)
    (ordered : ∀ entry ∈ rest, score < entry.1) (diff : StatsDiffs) :
    ∃ db' diff', removeOperation db diff score checked = .ok (db', diff') ∧
      Clearing threshold old before rest db' := by
  have present : db.operationHistory.get score = some checked :=
    clearing.operationHistory.2 ⟨logged, .inr List.mem_cons_self⟩
  unfold removeOperation
  simp only [present]
  obtain ⟨⟨common, info⟩, error⟩ := checked
  by_cases send : ∃ sendInfo, error = none ∧ info = .send sendInfo
  · obtain ⟨sendInfo, rfl, rfl⟩ := send
    simp only [Option.isSome_none, Bool.false_eq_true, if_false]
    by_cases spends : ∃ token,
        before.Spends threshold token ⟨⟨common, .send sendInfo⟩, none⟩
    · obtain ⟨token, common', info', listScore, accepted, _, _, stored, low⟩ := spends
      cases accepted
      obtain ⟨listing, found, restores⟩ := clearing.restore wf oldWf extended reached logged
        ordered rfl stored low
      refine ⟨_, _, rfl, ?_⟩
      simp only at restores
      rw [restores]
      exact clearing.restored wf extended reached logged ordered rfl stored low found
    · have none := clearing.restore_none wf reached logged ordered rfl (not_exists.1 spends)
      refine ⟨_, _, rfl, ?_⟩
      simp only at none
      rw [none]
      exact clearing.skip wf reached logged ordered (not_exists.1 spends)
  · have spendsNone : ∀ token, ¬ before.Spends threshold token ⟨⟨common, info⟩, error⟩ := by
      rintro token ⟨common', info', _, accepted, _⟩
      cases accepted
      exact send ⟨info', rfl, rfl⟩
    have skipped := clearing.skip wf reached logged ordered spendsNone
    cases error with
    | some error => exact ⟨_, _, rfl, skipped⟩
    | none =>
        cases info with
        | send sendInfo => exact absurd ⟨sendInfo, rfl, rfl⟩ send
        | _ => exact ⟨_, _, rfl, skipped⟩

theorem run (clearing : Clearing threshold old before rest db)
    (wf : before.toLedger.Wf bound) (oldWf : old.Wf threshold)
    (extended : old.Extends threshold before.toLedger)
    (logged : ∀ entry ∈ rest, threshold ≤ entry.1 ∧
      before.operationHistory.get entry.1 = some entry.2)
    (ordered : rest.Pairwise fun left right => left.1 < right.1) (diff : StatsDiffs) :
    ∃ db' diff', removeOperations db diff rest = .ok (db', diff') ∧
      Clearing threshold old before [] db' := by
  induction rest generalizing db diff with
  | nil => exact ⟨db, diff, rfl, clearing⟩
  | cons entry rest ih =>
      obtain ⟨score, checked⟩ := entry
      obtain ⟨first, later⟩ := List.pairwise_cons.1 ordered
      obtain ⟨reached, stored⟩ := logged _ List.mem_cons_self
      obtain ⟨db', diff', success, next⟩ :=
        clearing.step wf oldWf extended reached stored first diff
      obtain ⟨final, diffs, rest, cleared⟩ := ih next
        (fun entry member => logged entry (List.mem_cons_of_mem _ member)) later diff'
      exact ⟨final, diffs, by simp only [removeOperations, success, rest], cleared⟩

end Clearing

/-- `remove_affected_operations` never faults, and clears the log down to the old one. -/
theorem removeAffectedOperations_cleared {threshold bound : ℕ} {old : Ledger} (db : Db)
    (wf : db.toLedger.Wf bound) (oldWf : old.Wf threshold)
    (extended : old.Extends threshold db.toLedger) :
    ∃ db' diff, removeAffectedOperations db threshold = .ok (db', diff) ∧
      Clearing threshold old db [] db' := by
  refine (Clearing.start wf).run wf oldWf extended ?_
    (Partition.entriesFrom_ordered _ _) 0
  rintro ⟨score, checked⟩ member
  obtain ⟨logged, reached⟩ := Partition.mem_entriesFrom.1 member
  exact ⟨reached, logged⟩

section Cleared

variable {threshold bound : ℕ} {old : Ledger} {before db : Db}

theorem Clearing.log_eq (cleared : Clearing threshold old before [] db)
    (extended : old.Extends threshold before.toLedger) : db.toLogStore = old.toLogStore := by
  have operations : db.operationHistory = old.operationHistory := by
    rw [← extended.operationHistory]
    ext1 score
    refine Option.ext fun checked => ?_
    rw [cleared.operationHistory, Partition.get_below_eq_some_iff]
    simp
  have index : db.txIdToOpscore = old.txIdToOpscore := by
    rw [← extended.txIdToOpscore]
    ext1 txId
    refine Option.ext fun score => ?_
    rw [cleared.txIdToOpscore, Partition.get_below_eq_some_iff]
    simp
  exact LogStore.ext operations index

/-- Cleaning up listings touches the three listing partitions only. -/
theorem foldl_removeListing (db : Db) (entries : List (OwnershipKey × ListingValue)) :
    entries.foldl (fun db entry =>
        db.removeListing entry.1.tick entry.1.tokenId entry.2.seller) db =
      { db with
        listings := entries.foldl (fun listings entry => listings.erase entry.1) db.listings
        listingsByTick := entries.foldl (fun byTick entry =>
          byTick.erase ⟨entry.1.tick, entry.1.tokenId⟩) db.listingsByTick
        addressListings := entries.foldl (fun byAddress entry =>
          byAddress.erase ⟨entry.2.seller, entry.1.tick, entry.1.tokenId⟩)
            db.addressListings } := by
  induction entries generalizing db with
  | nil => rfl
  | cons entry entries ih =>
      simp only [List.foldl_cons]
      rw [ih]
      rfl

theorem Db.AddressIndexed.foldl_removeListing {db : Db} (indexed : db.AddressIndexed)
    {entries : List (OwnershipKey × ListingValue)}
    (stored : ∀ entry ∈ entries, ∀ listing, db.listings.get entry.1 = some listing →
      listing = entry.2) :
    (entries.foldl (fun db entry =>
      db.removeListing entry.1.tick entry.1.tokenId entry.2.seller) db).AddressIndexed := by
  induction entries generalizing db with
  | nil => exact indexed
  | cons entry entries ih =>
      refine ih (indexed.removeListing fun listing found => ?_) ?_
      · rw [stored entry List.mem_cons_self listing found]
      · intro later member listing found
        refine stored later (List.mem_cons_of_mem _ member) listing ?_
        simp only [Db.removeListing, Partition.get_erase] at found
        split at found
        · cases found
        · exact found

theorem Clearing.listings_eq (cleared : Clearing threshold old before [] db)
    (oldWf : old.Wf threshold) (extended : old.Extends threshold before.toLedger) :
    (db.listings.entries.filter fun entry => threshold ≤ entry.2.opScore).foldl
        (fun listings entry => listings.erase entry.1) db.listings = old.listings ∧
      (db.listings.entries.filter fun entry => threshold ≤ entry.2.opScore).foldl
        (fun byTick entry => byTick.erase ⟨entry.1.tick, entry.1.tokenId⟩)
          db.listingsByTick = old.listingsByTick := by
  have kept : (db.listings.entries.filter fun entry => threshold ≤ entry.2.opScore).foldl
      (fun listings entry => listings.erase entry.1) db.listings = old.listings := by
    ext1 token
    rw [Partition.get_foldl_erase]
    have removed : (∃ entry ∈ db.listings.entries.filter
        (fun entry => decide (threshold ≤ entry.2.opScore)), entry.1 = token) ↔
        ∃ listing, db.listings.get token = some listing ∧ threshold ≤ listing.opScore := by
      simp only [List.mem_filter, Prod.exists, Partition.mem_entries, decide_eq_true_eq]
      constructor
      · rintro ⟨key, listing, ⟨stored, high⟩, rfl⟩
        exact ⟨listing, stored, high⟩
      · rintro ⟨listing, stored, high⟩
        exact ⟨token, listing, ⟨stored, high⟩, rfl⟩
    simp only [removed]
    have older : ∀ listing, old.listings.get token = some listing →
        ¬ threshold ≤ listing.opScore := fun listing stored =>
      not_le.2 (oldWf.listing_lt stored)
    rcases cleared.listings token with same | ⟨same, unspent⟩
    · rw [same, if_neg]
      rintro ⟨listing, stored, high⟩
      exact older listing stored high
    · have unspent : ∀ txId, ¬ before.SpentListing threshold token txId :=
        unspent.resolve_right fun ⟨_, member, _⟩ => List.not_mem_nil member
      rw [same]
      cases extended.listings token with
      | kept _ kept =>
          rw [kept, if_neg]
          rintro ⟨listing, stored, high⟩
          exact older listing stored high
      | unlisted _ absent relisted =>
          rw [absent]
          split
          · rfl
          · rename_i none
            rw [Option.eq_none_iff_forall_ne_some]
            exact fun listing stored => none ⟨listing, stored, relisted listing stored⟩
      | spent listing found spending => exact absurd spending (unspent _)
  refine ⟨kept, ?_⟩
  ext1 ⟨tick, tokenId⟩
  have final := congrArg (fun listings => listings.get ⟨tick, tokenId⟩) kept
  simp only [Partition.get_foldl_erase] at final ⊢
  rw [oldWf.indexed ⟨tick, tokenId⟩, ← final, cleared.byTick ⟨tick, tokenId⟩]
  have same : ∀ entry : OwnershipKey × ListingValue,
      (⟨entry.1.tick, entry.1.tokenId⟩ : ListingByTickKey) = ⟨tick, tokenId⟩ ↔
        entry.1 = ⟨tick, tokenId⟩ := by
    rintro ⟨⟨tick', tokenId'⟩, listing⟩
    simp
  simp only [same]
  split <;> rfl

theorem Db.AddressIndexed.removeAffectedListings (db : Db) (indexed : db.AddressIndexed)
    (threshold : ℕ) : (removeAffectedListings db threshold).AddressIndexed := by
  refine indexed.foldl_removeListing ?_
  rintro ⟨token, value⟩ member listing found
  have stored := Partition.mem_entries.1 (List.mem_filter.1 member).1
  exact Option.some_inj.1 (found.symm.trans stored)

end Cleared

end Krc721
