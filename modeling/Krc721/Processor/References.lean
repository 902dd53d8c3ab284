import Krc721.Processor.ReachableInvariants

/-! What the rows of the ledger refer to: the log entry of a change of owner, the premints of a
deployment, and the range a random token was taken from. -/

set_option autoImplicit false

namespace Krc721

open OrderedStore

namespace RangeStore

variable {store restored : RangeStore} {tick : Tick} {preModRange : PreModRange}
variable {rangesLen length : ℕ}

theorem revertRemovedRange_tokenIdMeta
    (success : store.revertRemovedRange tick preModRange rangesLen = .ok (restored, length)) :
    restored.tokenIdMeta = store.tokenIdMeta := by
  unfold revertRemovedRange at success
  split at success
  · split at success
    · cases success
    · cases success
      rfl
  · cases success
    rfl

theorem restoreRangeMaybeSplit_tokenIdMeta :
    (store.restoreRangeMaybeSplit tick preModRange rangesLen).1.tokenIdMeta =
      store.tokenIdMeta := by
  unfold restoreRangeMaybeSplit
  split <;> rfl

theorem removeInitialRange_tokenIdMeta
    (success : store.removeInitialRange tick preModRange rangesLen = .ok restored) :
    restored.tokenIdMeta = store.tokenIdMeta := by
  unfold removeInitialRange at success
  split at success
  · cases success
    rfl
  · cases success

/-- Only a token with a stored range can be rolled back, and then its range is forgotten. -/
theorem rollbackTokenGeneration_tokenIdMeta {tokenId : ℕ}
    (success : store.rollbackTokenGeneration tick tokenId = .ok restored) :
    (store.tokenIdMeta.get ⟨tick, tokenId⟩).isSome ∧
      restored.tokenIdMeta = store.tokenIdMeta.erase ⟨tick, tokenId⟩ := by
  unfold rollbackTokenGeneration at success
  cases found : store.tokenIdMeta.get ⟨tick, tokenId⟩ with
  | none => simp [found] at success
  | some preModRange =>
      simp only [found] at success
      refine ⟨rfl, ?_⟩
      split at success
      · cases success
      · rename_i ranges rangesLen reverted
        have kept : ranges.tokenIdMeta = store.tokenIdMeta := by
          split at reverted
          · exact revertRemovedRange_tokenIdMeta reverted
          · have same := congrArg (fun result => result.1.tokenIdMeta) (Except.ok.inj reverted)
            exact same.symm.trans restoreRangeMaybeSplit_tokenIdMeta
        split at success
        · rw [removeInitialRange_tokenIdMeta success, kept]
        · cases success
          rw [kept]

end RangeStore

namespace OwnershipStore

variable {store : OwnershipStore} {tick : Tick} {score seq : ℕ} {toSpk : ScriptPublicKey}

theorem premints_mintHistory_kept (count : ℕ) {key : MintHistoryKey}
    (present : (store.mintHistory.get key).isSome) :
    ((store.premints tick score toSpk seq count).mintHistory.get key).isSome := by
  induction count generalizing store seq with
  | zero => exact present
  | succ count ih =>
      apply ih
      rw [recordMint, Partition.get_insert]
      split
      · rfl
      · exact present

theorem premints_ownershipChanges (count : ℕ) {key : TokenMintsKey}
    (present : ((store.premints tick score toSpk seq count).ownershipChanges.get key).isSome) :
    (store.ownershipChanges.get key).isSome ∨ key.score = score := by
  induction count generalizing store seq with
  | zero => exact .inl present
  | succ count ih =>
      cases ih present with
      | inl earlier =>
          rw [recordMint, Partition.get_insert] at earlier
          split at earlier
          · rename_i same
            exact .inr (same ▸ rfl)
          · exact .inl earlier
      | inr same => exact .inr same

end OwnershipStore

/-- The rows that other rows refer to are there: the log entry of every change of owner, the
premints of every deployment, and the range of every token above them. -/
structure Ledger.Referenced (ledger : Ledger) : Prop where
  logged : ∀ {key}, (ledger.ownershipChanges.get key).isSome →
    (ledger.operationHistory.get key.score).isSome
  preminted : ∀ {tick entry}, ledger.collectionRegistry.get tick = some entry →
    ∀ {seq}, 1 ≤ seq → seq ≤ entry.info.info.premint →
      ∃ tokenId score, (ledger.mintHistory.get (.withSeq tick seq tokenId score)).isSome
  remembered : ∀ {tick entry}, ledger.collectionRegistry.get tick = some entry →
    ∀ {reversedSeq tokenId score},
      (ledger.mintHistory.get ⟨tick, reversedSeq, tokenId, score⟩).isSome →
        entry.info.info.premint < tokenId → (ledger.tokenIdMeta.get ⟨tick, tokenId⟩).isSome

/-- A mint keeps the stored ranges, and stores the one a random id was taken from. -/
theorem Mint.remembers {owned : OwnershipStore} {ranges ranges' : RangeStore}
    {tick : Tick} {deploy : DeployInfo} {ids : List ℕ} {tokenId score : ℕ}
    {toSpk : ScriptPublicKey}
    (mint : Mint owned ranges ranges' tick deploy ids tokenId score toSpk) :
    (deploy.premint < tokenId → (ranges'.tokenIdMeta.get ⟨tick, tokenId⟩).isSome) ∧
      ∀ key, (ranges.tokenIdMeta.get key).isSome → (ranges'.tokenIdMeta.get key).isSome := by
  cases mint.source with
  | inl preminted =>
      obtain ⟨low, same⟩ := preminted
      subst same
      exact ⟨fun above => by omega, fun _ present => present⟩
  | inr drawn =>
      obtain ⟨above, rollback⟩ := drawn
      obtain ⟨stored, erased⟩ := RangeStore.rollbackTokenGeneration_tokenIdMeta rollback
      refine ⟨fun _ => stored, ?_⟩
      intro key present
      rw [erased, Partition.get_erase] at present
      split at present
      · cases present
      · exact present

namespace Applied

variable {kaspa : Kaspa} {db db' : Db} {context : ContextOperation} {checked : CheckedOperation}
variable {bound : ℕ}

theorem ownershipChanges (applied : Applied kaspa db context db' checked) {key : TokenMintsKey}
    (present : (db'.ownershipChanges.get key).isSome) :
    (db.ownershipChanges.get key).isSome ∨ key.score = context.txScore := by
  cases applied with
  | deployed info kind free => exact OwnershipStore.premints_ownershipChanges _ present
  | minted info entry ids tokenId ranges kind found mint supply =>
      simp only [OwnershipStore.recordMint, Partition.get_insert] at present
      split at present
      · rename_i same
        exact .inr (same ▸ rfl)
      · exact .inl present
  | transferred | sold =>
      simp only [Db.removeListing, OwnershipStore.recordTransfer, Partition.get_insert] at present
      split at present
      · rename_i same
        exact .inr (same ▸ rfl)
      · exact .inl present
  | rejected | discounted | listed | cancelled => exact .inl present

/-- No operation takes a mint back. -/
theorem mintHistory_kept (applied : Applied kaspa db context db' checked) {key : MintHistoryKey}
    (present : (db.mintHistory.get key).isSome) : (db'.mintHistory.get key).isSome := by
  cases applied with
  | deployed info kind free => exact OwnershipStore.premints_mintHistory_kept _ present
  | minted info entry ids tokenId ranges kind found mint supply =>
      simp only [OwnershipStore.recordMint, Partition.get_insert]
      split
      · rfl
      · exact present
  | _ => exact present

/-- A new deployment has its premints and no random token. -/
theorem deployed_mints (wf : db.toLedger.Wf bound) (reached : bound ≤ context.txScore)
    (le : context.txScore ≤ u64Max) {info : DeployInfo} (sound : info.Sound)
    (free : db.collectionRegistry.get context.operation.common.tick = none) :
    ∃ ids, ids.length = info.premint ∧
      Supply (db.premints context.operation.common.tick context.txScore info.deployer 0
        info.premint) db.toRangeStore context.operation.common.tick info.max info.premint ids := by
  have kept : db.toOwnershipStore.Wf (context.txScore + 1) :=
    wf.owned.mono (by omega) (by omega)
  obtain ⟨_, ids, length, supply⟩ := OwnershipStore.premints_spec info.premint info.deployer kept
    (Nat.lt_succ_self _) sound (wf.undeployed free _ _) (by simp)
  exact ⟨ids, by simpa using length, supply⟩

theorem preminted (applied : Applied kaspa db context db' checked) (wf : db.toLedger.Wf bound)
    (reached : bound ≤ context.txScore) (le : context.txScore ≤ u64Max)
    (sound : context.operation.Sound) (referenced : db.toLedger.Referenced) {tick : Tick}
    {entry : ScoredDeployInfoWithCommon} (found : db'.collectionRegistry.get tick = some entry)
    {seq : ℕ} (positive : 1 ≤ seq) (within : seq ≤ entry.info.info.premint) :
    ∃ tokenId score, (db'.mintHistory.get (.withSeq tick seq tokenId score)).isSome := by
  have earlier (before : db.collectionRegistry.get tick = some entry) :
      ∃ tokenId score, (db'.mintHistory.get (.withSeq tick seq tokenId score)).isSome := by
    obtain ⟨tokenId, score, present⟩ := referenced.preminted before positive within
    exact ⟨tokenId, score, applied.mintHistory_kept present⟩
  cases applied with
  | deployed info kind free =>
      simp only [Partition.get_insert] at found
      split at found
      · rename_i same
        subst same
        cases found
        obtain ⟨ids, length, supply⟩ := deployed_mints wf reached le (sound info kind) free
        have bound : seq - 1 < ids.length := by simp only at within; omega
        obtain ⟨score, present⟩ := supply.issued.complete (List.getElem?_eq_getElem bound)
        rw [Nat.sub_add_cancel positive] at present
        exact ⟨_, score, present⟩
      · exact earlier found
  | _ => exact earlier found

theorem remembered (applied : Applied kaspa db context db' checked) (wf : db.toLedger.Wf bound)
    (reached : bound ≤ context.txScore) (le : context.txScore ≤ u64Max)
    (sound : context.operation.Sound) (referenced : db.toLedger.Referenced) {tick : Tick}
    {entry : ScoredDeployInfoWithCommon} (found : db'.collectionRegistry.get tick = some entry)
    {reversedSeq tokenId score : ℕ}
    (present : (db'.mintHistory.get ⟨tick, reversedSeq, tokenId, score⟩).isSome)
    (above : entry.info.info.premint < tokenId) :
    (db'.tokenIdMeta.get ⟨tick, tokenId⟩).isSome := by
  cases applied with
  | deployed info kind free =>
      simp only [Partition.get_insert] at found
      split at found
      · rename_i same
        subst same
        cases found
        obtain ⟨ids, length, supply⟩ := deployed_mints wf reached le (sound info kind) free
        obtain ⟨index, atIndex, _⟩ := supply.issued.numbered present
        have bounds := supply.mem_premint length.le (List.mem_of_getElem? atIndex)
        simp only at above
        omega
      · rename_i different
        simp only at present
        rw [OwnershipStore.premints_mintHistory _ _ _ _ _ (Ne.symm different)] at present
        exact referenced.remembered found present above
  | minted info deployed ids fresh ranges kind registered mint supply =>
      obtain ⟨stores, keeps⟩ := mint.remembers
      simp only [OwnershipStore.recordMint, Partition.get_insert] at present
      split at present
      · rename_i same
        injection same with sameTick _ sameId _
        subst sameTick sameId
        simp only at found
        rw [registered] at found
        cases found
        exact stores above
      · exact keeps _ (referenced.remembered found present above)
  | _ => exact referenced.remembered found present above

theorem referenced (applied : Applied kaspa db context db' checked) (wf : db.toLedger.Wf bound)
    (reached : bound ≤ context.txScore) (le : context.txScore ≤ u64Max)
    (sound : context.operation.Sound) (before : db.toLedger.Referenced) :
    (db'.recordOperation context.txScore checked).toLedger.Referenced where
  logged := by
    intro key present
    have sameLog : db'.operationHistory = db.operationHistory :=
      congrArg LogStore.operationHistory applied.frame.1
    simp only [Db.recordOperation, Partition.get_insert, sameLog]
    split
    · rfl
    · rename_i different
      cases applied.ownershipChanges present with
      | inl earlier => exact before.logged earlier
      | inr same => exact absurd same.symm different
  preminted := fun found _ positive within =>
    applied.preminted wf reached le sound before found positive within
  remembered := fun found _ _ _ present above =>
    applied.remembered wf reached le sound before found present above

end Applied

theorem Replay.referenced {kaspa : Kaspa} {bound : ℕ} {ledger : Ledger}
    (replay : Replay kaspa bound ledger) : ledger.Referenced := by
  induction replay with
  | empty => exact ⟨by simp, by simp, by simp⟩
  | step earlier reached le sound fresh applied ih =>
      exact applied.referenced earlier.wf reached le sound ih

end Krc721
