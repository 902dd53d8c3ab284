import Krc721.View.Tokens
import Krc721.View.ListingProperties
import Krc721.Processor.References

/-! No query meets a broken reference, and no removal does. -/

set_option autoImplicit false

namespace Krc721

open OrderedStore

theorem OwnershipStore.lastMintedToken_some {store : OwnershipStore} {tick : Tick}
    {last : TokenIdScoreSeqNo} (found : store.lastMintedToken tick = some last) :
    ∃ key : MintHistoryKey, (store.mintHistory.get key).isSome ∧ key.score = last.score := by
  unfold lastMintedToken at found
  rw [Option.map_eq_some_iff] at found
  obtain ⟨⟨key, row⟩, first, same⟩ := found
  subst same
  obtain ⟨stored, _, _⟩ := Partition.firstWhere_eq_some_iff.1 first
  exact ⟨key, by rw [stored]; rfl, rfl⟩

/-- The lookups of the queries, and everything a removal looks up, succeed. -/
structure NoBrokenReference (kaspa : Kaspa) (db : Db) : Prop where
  historyLogged : ∀ {tick tokenId reversedScore},
    (db.ownershipHistory.get ⟨tick, tokenId, reversedScore⟩).isSome →
      (db.operationHistory.get (u64Max - reversedScore)).isSome
  mintLogged : ∀ {tick reversedSeq tokenId score},
    (db.mintHistory.get ⟨tick, reversedSeq, tokenId, score⟩).isSome →
      (db.operationHistory.get score).isSome
  holdingRegistered : ∀ {spk tick tokenId},
    (db.addressHoldings.get ⟨spk, tick, tokenId⟩).isSome → (db.collectionRegistry.get tick).isSome
  remembered : ∀ {tick entry reversedSeq tokenId score},
    db.collectionRegistry.get tick = some entry →
    (db.mintHistory.get ⟨tick, reversedSeq, tokenId, score⟩).isSome →
      entry.info.info.premint < tokenId → (db.tokenIdMeta.get ⟨tick, tokenId⟩).isSome
  removals : ∀ removed forced, ∃ db' diff,
    processRemoval kaspa db removed forced = .ok (db', diff)
  collectionList : ∀ args restrictedProtocols, ∃ page,
    db.krc721CollectionList args restrictedProtocols = .ok page
  tokenHistoryList : ∀ tick tokenId args restrictedProtocols, ∃ page,
    db.krc721TokenHistoryList tick tokenId args restrictedProtocols = .ok page
  addressNftList : ∀ spk args restrictedProtocols, ∃ page,
    db.krc721AddressNftList spk args restrictedProtocols = .ok page

/-! Queries. -/

/-- A query whose lookups all succeed returns a page. -/
theorem processIter_total {Key Item : Type} {iter : List Key} {f : Key → Except ViewError Item}
    (each : ∀ key ∈ iter, ∃ value, f key = .ok value) (limit : ℕ) :
    ∃ page, processIter iter limit f = .ok page := by
  have good : ∀ key ∈ iter, ∃ value, f key = .ok value ∧ True := by
    intro key member
    obtain ⟨value, found⟩ := each key member
    exact ⟨value, found, trivial⟩
  obtain ⟨page, listed, _⟩ := processIter_ok good limit
  exact ⟨page, listed⟩

namespace Db

variable {db : Db} {restrictedProtocols : List String}

theorem krc721CollectionList_ok
    (logged : ∀ key : MintHistoryKey, (db.mintHistory.get key).isSome →
      (db.operationHistory.get key.score).isSome) (args : IteratorArgs ℕ) :
    ∃ page, db.krc721CollectionList args restrictedProtocols = .ok page := by
  apply processIter_total
  rintro ⟨key, info⟩ _
  unfold collection
  cases last : db.lastMintedToken key.tick with
  | none => exact ⟨_, rfl⟩
  | some lastMint =>
      obtain ⟨row, stored, same⟩ := OwnershipStore.lastMintedToken_some last
      obtain ⟨checked, found⟩ := Option.isSome_iff_exists.1 (same ▸ logged row stored)
      simp only [found]
      exact ⟨_, rfl⟩

theorem tokenHistoryRecord_ok
    (logged : ∀ key : OwnershipHistoryKey, (db.ownershipHistory.get key).isSome →
      (db.operationHistory.get (u64Max - key.reversedScore)).isSome)
    {key : OwnershipHistoryKey} {owner : ScriptPublicKey}
    (stored : db.ownershipHistory.get key = some owner) :
    ∃ record, db.tokenHistoryRecord key owner = .ok record := by
  obtain ⟨checked, found⟩ := Option.isSome_iff_exists.1 (logged key (by rw [stored]; rfl))
  unfold tokenHistoryRecord
  simp only [found]
  exact ⟨_, rfl⟩

theorem historyRows_stored {tick : Tick} {tokenId : ℕ} {args : IteratorArgs ℕ}
    {entry : OwnershipHistoryKey × ScriptPublicKey}
    (member : entry ∈ db.historyRows tick tokenId args) :
    db.ownershipHistory.get entry.1 = some entry.2 := by
  unfold historyRows at member
  split at member
  · rw [List.mem_reverse, List.mem_filter] at member
    exact (Partition.mem_entriesFrom.1 member.1).1
  · rw [List.mem_filter] at member
    exact (Partition.mem_entriesFrom.1 member.1).1

theorem krc721TokenHistoryList_ok
    (logged : ∀ key : OwnershipHistoryKey, (db.ownershipHistory.get key).isSome →
      (db.operationHistory.get (u64Max - key.reversedScore)).isSome)
    (tick : Tick) (tokenId : ℕ) (args : IteratorArgs ℕ) :
    ∃ page, db.krc721TokenHistoryList tick tokenId args restrictedProtocols = .ok page := by
  unfold krc721TokenHistoryList
  split
  · exact ⟨_, rfl⟩
  · split
    · exact ⟨_, rfl⟩
    · apply processIter_total
      intro entry member
      exact tokenHistoryRecord_ok logged (historyRows_stored member)

theorem holdingRows_stored {spk : ScriptPublicKey} {args : IteratorArgs TickTokenOffset}
    {entry : AddressHoldingKey × ℕ} (member : entry ∈ db.holdingRows spk args) :
    db.addressHoldings.get entry.1 = some entry.2 := by
  unfold holdingRows at member
  split at member
  · rw [List.mem_filter] at member
    exact (Partition.mem_entriesFrom.1 member.1).1
  · rw [List.mem_reverse, List.mem_filter] at member
    exact (Partition.mem_entriesFrom.1 member.1).1

theorem conditionalPush_ok {nfts : AddressNfts} {key : AddressHoldingKey} {modTxScore : ℕ}
    (registered : (db.collectionRegistry.get key.tick).isSome) :
    ∃ nfts', db.conditionalPush restrictedProtocols nfts key modTxScore = .ok nfts' := by
  obtain ⟨depl, found⟩ := Option.isSome_iff_exists.1 registered
  unfold conditionalPush
  simp only [found]
  split
  · exact ⟨_, rfl⟩
  · split
    · split <;> exact ⟨_, rfl⟩
    · exact ⟨_, rfl⟩

theorem addressNfts_ok {limit : ℕ} {entries : List (AddressHoldingKey × ℕ)} {nfts : AddressNfts}
    (registered : ∀ entry ∈ entries, (db.collectionRegistry.get entry.1.tick).isSome) :
    ∃ nfts', db.addressNfts restrictedProtocols limit nfts entries = .ok nfts' := by
  induction entries generalizing nfts with
  | nil => exact ⟨nfts, rfl⟩
  | cons entry entries ih =>
      obtain ⟨key, modTxScore⟩ := entry
      obtain ⟨next, pushed⟩ : ∃ next,
          db.conditionalPush restrictedProtocols nfts key modTxScore = .ok next :=
        conditionalPush_ok (registered _ List.mem_cons_self)
      simp only [addressNfts, pushed]
      split
      · exact ih fun other member => registered other (List.mem_cons_of_mem _ member)
      · exact ⟨next, rfl⟩

theorem krc721AddressNftList_ok
    (registered : ∀ key : AddressHoldingKey, (db.addressHoldings.get key).isSome →
      (db.collectionRegistry.get key.tick).isSome)
    (spk : ScriptPublicKey) (args : IteratorArgs TickTokenOffset) :
    ∃ page, db.krc721AddressNftList spk args restrictedProtocols = .ok page := by
  have rows : ∀ entry ∈ db.holdingRows spk args,
      (db.collectionRegistry.get entry.1.tick).isSome := by
    intro entry member
    exact registered entry.1 (by rw [holdingRows_stored member]; rfl)
  obtain ⟨nfts, collected⟩ := addressNfts_ok rows
  unfold krc721AddressNftList
  rw [collected]
  exact ⟨_, rfl⟩

end Db

/-- Without forks no row refers to a missing one: no query panics, and no removal does. -/
theorem UnforkedReachable.no_broken_reference {kaspa : Kaspa} {db : Db}
    (reachable : UnforkedReachable kaspa db) : NoBrokenReference kaspa db := by
  have consistent := reachable.consistent
  obtain ⟨bound, replay⟩ := consistent.replay
  have wf := replay.wf
  have referenced := replay.referenced
  have historyLogged : ∀ key : OwnershipHistoryKey, (db.ownershipHistory.get key).isSome →
      (db.operationHistory.get (u64Max - key.reversedScore)).isSome := by
    rintro ⟨tick, tokenId, reversedScore⟩ present
    obtain ⟨score, seq, reversed, row⟩ := wf.owned.history.1 present
    have le := wf.owned.score_le row
    have logged := referenced.logged row
    simp only at le reversed logged ⊢
    rwa [reversed, Nat.sub_sub_self le]
  have mintLogged : ∀ key : MintHistoryKey, (db.mintHistory.get key).isSome →
      (db.operationHistory.get key.score).isSome := by
    rintro ⟨tick, reversedSeq, tokenId, score⟩ present
    exact referenced.logged (wf.owned.mints.1 present).1
  have holdingRegistered : ∀ key : AddressHoldingKey, (db.addressHoldings.get key).isSome →
      (db.collectionRegistry.get key.tick).isSome := by
    rintro ⟨spk, tick, tokenId⟩ present
    obtain ⟨modTxScore, held⟩ := Option.isSome_iff_exists.1 present
    have owned := wf.owned.holdings.1 held
    rw [Option.isSome_iff_ne_none]
    intro unregistered
    have member := Applied.mem_of_owned wf (wf.undeployed unregistered 0 0) owned
    cases member
  have removals : ∀ removed forced, ∃ db' diff,
      processRemoval kaspa db removed forced = .ok (db', diff) := by
    intro removed forced
    obtain ⟨db', diff, success, _⟩ := consistent.processRemoval removed forced
    exact ⟨db', diff, success⟩
  exact {
    historyLogged := fun present => historyLogged _ present
    mintLogged := fun present => mintLogged _ present
    holdingRegistered := fun present => holdingRegistered _ present
    remembered := fun deployed present above => referenced.remembered deployed present above
    removals
    collectionList := fun args _ => Db.krc721CollectionList_ok mintLogged args
    tokenHistoryList := fun tick tokenId args _ =>
      Db.krc721TokenHistoryList_ok historyLogged tick tokenId args
    addressNftList := fun spk args _ => Db.krc721AddressNftList_ok holdingRegistered spk args }

theorem UnforkedReachable.no_broken_reference_sale : NoBrokenReference Sample.kaspa Sample.sold :=
  UnforkedReachable.no_broken_reference Sample.sold_reachable

namespace Sample

/-- Mints with two entropies in blocks of one blue score. -/
def forkedDraws : List ChainStep := [
  .add [block 1 101 0 [deploys 1 4 0]],
  .add [block 3 301 3 [mints 2]],
  .add [block 3 302 1 [mints 3]]]

theorem forkedDraws_reachable : Reachable kaspa (reached forkedDraws) :=
  reached_reachable (by decide) (by decide +kernel)

end Sample

/-- The removal of the two blocks panics in the rollback of the ranges. -/
theorem Reachable.not_noBrokenReference_forked :
    Reachable Sample.kaspa (Sample.reached Sample.forkedDraws) ∧
      ¬ NoBrokenReference Sample.kaspa (Sample.reached Sample.forkedDraws) := by
  refine ⟨Sample.forkedDraws_reachable, fun unbroken => ?_⟩
  obtain ⟨db', diff, success⟩ := unbroken.removals [301, 302] none
  have panics : (processRemoval Sample.kaspa (Sample.reached Sample.forkedDraws) [301, 302]
      none).toOption.isSome = false := by decide +kernel
  rw [success] at panics
  cases panics

end Krc721
