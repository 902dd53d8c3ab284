import Krc721.Processor.Authority

/-! The escrow of listings: a listed token is still held by its seller, who has held it since
before the listing. -/

set_option autoImplicit false

namespace Krc721

open OrderedStore

/-- The current owner of a token took it below the bound. -/
theorem OwnershipStore.Wf.modTxScore_lt {store : OwnershipStore} {bound : ℕ}
    (wf : store.Wf bound) {token : OwnershipKey} {current : CurrentOwnershipValue}
    (owned : store.currentOwnership.get token = some current) : current.modTxScore < bound := by
  rw [wf.current, Option.map_eq_some_iff] at owned
  obtain ⟨⟨owner, modTxScore⟩, last, same⟩ := owned
  subst same
  obtain ⟨reversed, equal, stored, _⟩ := OwnershipStore.lastOwner_eq_some_iff.1 last
  obtain ⟨score, seq, sameReversed, row⟩ := wf.history.1 (by rw [stored]; rfl)
  have low := wf.score_lt row
  have le := wf.score_le row
  simp only at low le ⊢
  omega

/-- The owner of a listed token took it before the listing. -/
def Ledger.HeldSince (ledger : Ledger) : Prop :=
  ∀ token listing current, ledger.listings.get token = some listing →
    ledger.currentOwnership.get token = some current → current.modTxScore < listing.opScore

/-- No operation changes the owner of a token that stays listed. -/
theorem Applied.heldSince {kaspa : Kaspa} {db db' : Db} {context : ContextOperation}
    {checked : CheckedOperation} {bound : ℕ} (applied : Applied kaspa db context db' checked)
    (wf : db.toLedger.Wf bound) (reached : bound ≤ context.txScore)
    (held : db.toLedger.HeldSince) : db'.toLedger.HeldSince := by
  intro token listing current found owned
  cases applied with
  | rejected error => exact held token listing current found owned
  | deployed info kind free =>
      obtain ⟨_, modTxScore, before⟩ := wf.listed found
      refine held token listing current found ?_
      rw [← owned]
      refine (OwnershipStore.premints_currentOwnership fun same => ?_).symm
      have member := mem_of_owned wf (wf.undeployed (same ▸ free) 0 0) before
      cases member
  | minted info entry ids tokenId ranges kind registered mint supply =>
      obtain ⟨_, modTxScore, before⟩ := wf.listed found
      simp only [OwnershipStore.recordMint] at owned
      rw [Partition.get_insert_of_ne] at owned
      · exact held token listing current found owned
      · intro same
        subst same
        exact mint.fresh (mem_of_owned wf supply before)
  | transferred info previous kind ownedBefore bySender unlisted =>
      simp only [OwnershipStore.recordTransfer] at owned
      rw [Partition.get_insert_of_ne] at owned
      · exact held token listing current found owned
      · intro same
        subst same
        rw [unlisted] at found
        cases found
  | discounted info entry kind found byDeployer lower =>
      exact held token listing current found owned
  | listed info previous kind ownedBefore bySender unlisted locked =>
      simp only [Db.insertListing, Partition.get_insert] at found
      split at found
      · cases found
        exact (wf.owned.modTxScore_lt owned).trans_le reached
      · exact held token listing current found owned
  | sold info sold buyer kind foundBefore spends toBuyer =>
      simp only [Db.removeListing, Partition.get_erase] at found
      split at found
      · cases found
      · rename_i different
        simp only [Db.removeListing, OwnershipStore.recordTransfer] at owned
        rw [Partition.get_insert_of_ne _ _ different] at owned
        exact held token listing current found owned
  | cancelled info sold kind foundBefore spends noBuyer =>
      simp only [Db.removeListing, Partition.get_erase] at found
      split at found
      · cases found
      · exact held token listing current found owned

theorem Replay.heldSince {kaspa : Kaspa} {bound : ℕ} {ledger : Ledger}
    (replay : Replay kaspa bound ledger) : ledger.HeldSince := by
  induction replay with
  | empty =>
      intro token listing current found
      simp at found
  | step earlier reached le sound fresh applied ih => exact applied.heldSince earlier.wf reached ih

structure Escrowed (db : Db) (token : OwnershipKey) (listing : ListingValue) : Prop where
  held : ∃ modTxScore, db.currentOwnership.get token = some ⟨listing.seller, modTxScore⟩ ∧
    modTxScore < listing.opScore
  registered : (db.collectionRegistry.get token.tick).isSome
  logged : ∃ common info,
    db.operationHistory.get listing.opScore = some ⟨⟨common, .list info⟩, none⟩ ∧
      common.txId = listing.listingTxId ∧ common.tick = token.tick ∧
      info.tokenId = token.tokenId

/-- Without forks the seller of a listing holds the token, its collection is registered, and the
log has the accepted list operation of the listing. -/
theorem UnforkedReachable.escrow {kaspa : Kaspa} {db : Db}
    (reachable : UnforkedReachable kaspa db) {token : OwnershipKey} {listing : ListingValue}
    (listed : db.listings.get token = some listing) : Escrowed db token listing := by
  obtain ⟨bound, replay⟩ := reachable.consistent.replay
  have wf := replay.wf
  obtain ⟨backed, modTxScore, owned⟩ := wf.listed listed
  refine ⟨⟨modTxScore, owned, replay.heldSince token listing _ listed owned⟩, ?_, ?_⟩
  · rw [Option.isSome_iff_ne_none]
    intro unregistered
    have member := Applied.mem_of_owned wf (wf.undeployed unregistered 0 0) owned
    cases member
  · obtain ⟨common, info, stored, sameTick, sameId, _⟩ := backed.logged
    obtain ⟨checked, found, sameTx⟩ := wf.log.indexed.1 backed.indexed
    rw [stored] at found
    cases found
    exact ⟨common, info, stored, sameTx, sameTick, sameId⟩

theorem UnforkedReachable.escrow_sale : ∃ listing,
    Sample.offered.listings.get ⟨Sample.tick, 1⟩ = some listing ∧
      Escrowed Sample.offered ⟨Sample.tick, 1⟩ listing := by
  obtain ⟨listing, listed⟩ : ∃ listing,
    Sample.offered.listings.get ⟨Sample.tick, 1⟩ = some listing := ⟨_, rfl⟩
  exact ⟨listing, listed, UnforkedReachable.escrow Sample.offered_reachable listed⟩

namespace Sample

/-- A listing, and a mint in another block of the same blue score. -/
def forkedListing : List ChainStep := [
  .add [block 1 101 0 [deploys 1 3 1]],
  .add [block 2 102 0 [operation 2 alice (.list ⟨1, listingAddress, [7]⟩)]],
  .add [block 2 202 0 [mints 3]]]

theorem forkedListing_reachable : Reachable kaspa (reached forkedListing) :=
  reached_reachable (by decide) (by decide +kernel)

end Sample

/-- The mint takes the place of the list operation in the log, and the listing stays. -/
theorem Reachable.not_escrowed_forked : ∃ listing,
    Reachable Sample.kaspa (Sample.reached Sample.forkedListing) ∧
      (Sample.reached Sample.forkedListing).listings.get ⟨Sample.tick, 1⟩ = some listing ∧
      ¬ Escrowed (Sample.reached Sample.forkedListing) ⟨Sample.tick, 1⟩ listing := by
  have scored : ((Sample.reached Sample.forkedListing).listings.get ⟨Sample.tick, 1⟩).map
      (·.opScore) = some 4000 := by decide +kernel
  obtain ⟨listing, listed, score⟩ := Option.map_eq_some_iff.1 scored
  refine ⟨listing, Sample.forkedListing_reachable, listed, fun escrowed => ?_⟩
  obtain ⟨common, info, logged, _⟩ := escrowed.logged
  have replaced : ((Sample.reached Sample.forkedListing).operationHistory.get 4000).map
      (·.operation.info) = some (.mint ⟨2, Sample.bob, none⟩) := by decide +kernel
  rw [score] at logged
  rw [logged] at replaced
  cases replaced

end Krc721
