import Krc721.Processor.Reorg
import Krc721.Processor.GuardedRun

/-! The databases that additions and reorg removals reach without a fork. Every one of them is the
replay of the operations that are still logged, and every logged operation belongs to a stored
block. -/

set_option autoImplicit false

namespace Krc721

open OrderedStore

/-- The mergesets of a batch are valid and ascend, and those that are not skipped lie above the
stored chain. -/
structure Addable (kaspa : Kaspa) (chain : ChainStore) (lastAcceptedBlueScore : ℕ)
    (mergesets : List Mergeset) : Prop extends Batch kaspa mergesets where
  placed : ∀ mergeset ∈ mergesets,
    mergeset.Known chain lastAcceptedBlueScore ∨ mergeset.Above chain

theorem Addable.tail {kaspa : Kaspa} {chain : ChainStore} {lastAcceptedBlueScore : ℕ}
    {mergeset : Mergeset} {mergesets : List Mergeset}
    (addable : Addable kaspa chain lastAcceptedBlueScore (mergeset :: mergesets)) :
    Addable kaspa chain lastAcceptedBlueScore mergesets ∧
      Addable kaspa (chain.accept mergeset) lastAcceptedBlueScore mergesets := by
  obtain ⟨first, ascending⟩ := List.pairwise_cons.1 addable.ascending
  have valid : ∀ next ∈ mergesets, next.Valid kaspa :=
    fun next inRest => addable.valid next (List.mem_cons_of_mem _ inRest)
  refine ⟨⟨⟨valid, ascending⟩, fun next inRest =>
    addable.placed next (List.mem_cons_of_mem _ inRest)⟩, ⟨⟨valid, ascending⟩, ?_⟩⟩
  intro next inRest
  refine (addable.placed next (List.mem_cons_of_mem _ inRest)).imp (Or.imp id ?_) ?_
  · intro stored
    rw [ChainStore.accept, Partition.get_insert]
    split
    · rfl
    · exact stored
  · intro above block stored
    rw [ChainStore.accept, Partition.get_insert] at stored
    split at stored
    · rename_i same
      subst same
      exact first next inRest
    · exact above block stored

/-- A batch none of whose blocks is a fork. -/
structure Admissible (kaspa : Kaspa) (db : Db) (mergesets : List Mergeset) : Prop extends
    Batch kaspa mergesets where
  unforked : db.Unforked mergesets

theorem Admissible.addable {kaspa : Kaspa} {db : Db} {mergesets : List Mergeset}
    (admissible : Admissible kaspa db mergesets) :
    Addable kaspa db.toChainStore db.lastAcceptedBlueScore mergesets where
  toBatch := admissible.toBatch
  placed := fun _ member => or_iff_not_imp_left.2 (admissible.unforked.above member)

/-- Every logged operation satisfies a predicate on its common part. -/
def LogStore.All (log : LogStore) (promised : OperationCommon → Prop) : Prop :=
  ∀ score checked, log.operationHistory.get score = some checked →
    promised checked.operation.common

/-- Every logged operation was given as one that satisfies a predicate. -/
def LogStore.AllFrom (log : LogStore) (promised : Operation → Prop) : Prop :=
  ∀ score checked, log.operationHistory.get score = some checked →
    ∃ operation, promised operation ∧ checked.Records operation

theorem LogStore.all_iff {log : LogStore} {promised : OperationCommon → Prop} :
    log.All promised ↔ log.AllFrom fun operation => promised operation.common := by
  constructor
  · intro all score checked logged
    exact ⟨checked.operation, all score checked logged, rfl, .inl rfl⟩
  · intro all score checked logged
    obtain ⟨operation, kept, records⟩ := all score checked logged
    rw [records.common]
    exact kept

/-- The invariant of a reachable database. -/
structure Consistent (kaspa : Kaspa) (db : Db) : Prop where
  replay : ∃ bound, Replay kaspa bound db.toLedger
  covered : ∀ score checked, db.operationHistory.get score = some checked →
    ∃ block, (db.chainBlockScores.get block).isSome ∧
      block.blueScore * kaspa.blockCapacity ≤ score ∧
        score < (block.blueScore + 1) * kaspa.blockCapacity
  discounts : db.DiscountsIndexed

/-- The bound of a replay is the score after the last logged one. -/
theorem Replay.bound_logged {kaspa : Kaspa} {bound : ℕ} {ledger : Ledger}
    (replay : Replay kaspa bound ledger) : bound = 0 ∨ ∃ score checked,
      bound = score + 1 ∧ ledger.operationHistory.get score = some checked := by
  cases replay with
  | empty => exact .inl rfl
  | @step _ db db' context checked earlier reached le sound fresh applied =>
      exact .inr ⟨context.txScore, checked, rfl, by simp [Db.recordOperation]⟩

namespace Consistent

variable {kaspa : Kaspa} {db : Db}

theorem new : Consistent kaspa .new where
  replay := ⟨0, .empty⟩
  covered := by simp [Db.new]
  discounts := by
    intro key present
    simp [Db.new] at present

/-! Additions. -/

section Additions

variable {mergeset : Mergeset} {mergesets : List Mergeset}

/-- All rows are below the scores of a mergeset above the stored blocks. -/
theorem replay_le (consistent : Consistent kaspa db) (valid : mergeset.Valid kaspa)
    (above : mergeset.Above db.toChainStore) :
    ∃ bound, Replay kaspa bound db.toLedger ∧
      bound ≤ calculateTxScoreFromBlue kaspa mergeset.blueScore := by
  obtain ⟨bound, replay⟩ := consistent.replay
  refine ⟨bound, replay, ?_⟩
  rcases replay.bound_logged with rfl | ⟨score, checked, rfl, logged⟩
  · exact Nat.zero_le _
  · obtain ⟨block, stored, _, below⟩ := consistent.covered score checked logged
    rw [calculateTxScoreFromBlue_eq valid.fits]
    exact below.trans_le (Nat.mul_le_mul_right _ (above block stored))

/-- What adding mergesets keeps: the invariant, the address index of the listings, any promise
about the operations, and whatever a new block and an operation preserve. -/
structure Grown (kaspa : Kaspa) (db : Db) (mergesets : List Mergeset) (db' : Db) : Prop where
  consistent : Consistent kaspa db'
  addressed : db.AddressIndexed → db'.AddressIndexed
  preserves : ∀ kept : Db → Prop,
    (∀ {db : Db}, ∀ mergeset ∈ mergesets, mergeset.Above db.toChainStore → kept db →
      kept { db with toChainStore := db.toChainStore.accept mergeset }) →
    (∀ {bound : ℕ} {db db' : Db} {context : ContextOperation} {checked : CheckedOperation},
      db.toLedger.Wf bound → bound ≤ context.txScore → context.txScore ≤ u64Max →
      Applied kaspa db context db' checked → kept db →
      kept (db'.recordOperation context.txScore checked)) → kept db → kept db'
  promises : ∀ {promised : Operation → Prop},
    (∀ mergeset ∈ mergesets, ∀ op ∈ mergeset.operations, promised op.operation) →
      db.AllFrom promised → db'.AllFrom promised

theorem Grown.trans {first rest : List Mergeset} {between db' : Db}
    (one : Grown kaspa db first between) (more : Grown kaspa between rest db') :
    Grown kaspa db (first ++ rest) db' where
  consistent := more.consistent
  addressed := fun indexed => more.addressed (one.addressed indexed)
  preserves := fun kept accept step initially => more.preserves kept
    (fun mergeset member => accept mergeset (List.mem_append_right _ member)) step
    (one.preserves kept (fun mergeset member => accept mergeset (List.mem_append_left _ member))
      step initially)
  promises := fun given kept => more.promises
    (fun mergeset member => given mergeset (List.mem_append_right _ member))
    (one.promises (fun mergeset member => given mergeset (List.mem_append_left _ member)) kept)

theorem processMergeset (consistent : Consistent kaspa db) (valid : mergeset.Valid kaspa)
    (above : mergeset.Above db.toChainStore) :
    ∃ db' added,
      (∀ lastAcceptedBlueScore diff, lastAcceptedBlueScore ≤ mergeset.blueScore →
        processMergeset kaspa lastAcceptedBlueScore db diff mergeset =
          .ok (db', diff + added)) ∧
      db'.toChainStore = db.toChainStore.accept mergeset ∧
      Grown kaspa db [mergeset] db' := by
  obtain ⟨bound, replay, le⟩ := consistent.replay_le valid above
  have scoreLe : calculateTxScoreFromBlue kaspa mergeset.blueScore ≤ u64Max :=
    lt_two_pow_iff_le_u64Max.1 (Nat.mod_lt _ (by positivity))
  have wf := replay.wf.mono le (scoreLe.trans (Nat.le_succ _))
  have newBlock : db.chainBlockScores.get
      ⟨mergeset.blueScore, mergeset.acceptedChainBlockHash⟩ = none := by
    rw [← Option.not_isSome_iff_eq_none]
    intro present
    exact lt_irrefl _ (above _ present)
  obtain ⟨db', added, last, success, run, _, logged⟩ := processMergeset_next wf valid newBlock
  have chain : db'.toChainStore = db.toChainStore.accept mergeset := run.chain
  refine ⟨db', added, success, chain, ⟨⟨?_, ?_, run.discounts wf consistent.discounts⟩,
    run.addressed, fun kept accept step initially => run.preserves kept wf step
      (accept mergeset List.mem_cons_self above initially), ?_⟩⟩
  · obtain ⟨bound', _, extended⟩ := Replay.run (show Replay kaspa bound ({ db with
      toChainStore := db.toChainStore.accept mergeset } : Db).toLedger from replay) le run
    exact ⟨bound', extended⟩
  · intro score checked inLog
    rw [congrArg ChainStore.chainBlockScores chain, ChainStore.accept]
    rcases logged score checked inLog with earlier | ⟨reached, below, _⟩
    · obtain ⟨block, stored, bounds⟩ := consistent.covered score checked earlier
      refine ⟨block, ?_, bounds⟩
      rw [Partition.get_insert]
      split
      · rfl
      · exact stored
    · rw [calculateTxScoreFromBlue_eq valid.fits] at reached
      exact ⟨⟨mergeset.blueScore, mergeset.acceptedChainBlockHash⟩, by simp, reached, below⟩
  · intro promised given kept score checked inLog
    rcases logged score checked inLog with earlier | ⟨_, _, op, member, records⟩
    · exact kept score checked earlier
    · exact ⟨op.operation, given mergeset List.mem_cons_self op member, records⟩

theorem processMergesets (consistent : Consistent kaspa db) {lastAcceptedBlueScore : ℕ}
    (addable : Addable kaspa db.toChainStore lastAcceptedBlueScore mergesets)
    (diff : StatsDiffs) :
    ∃ db' diff', processMergesets kaspa lastAcceptedBlueScore db diff mergesets =
      .ok (db', diff') ∧ Grown kaspa db mergesets db' := by
  induction mergesets generalizing db diff with
  | nil => exact ⟨db, diff, rfl, ⟨consistent, id, fun _ _ _ kept => kept, fun _ kept => kept⟩⟩
  | cons mergeset mergesets ih =>
      have member : mergeset ∈ mergeset :: mergesets := List.mem_cons_self
      obtain ⟨skipped, accepted⟩ := addable.tail
      by_cases known : mergeset.Known db.toChainStore lastAcceptedBlueScore
      · have skip : Krc721.processMergeset kaspa lastAcceptedBlueScore db diff mergeset =
            .ok (db, diff) := by
          unfold Krc721.processMergeset
          rcases known with low | stored
          · rw [if_pos low]
          · split
            · rfl
            · simp only [stored, if_true]
        obtain ⟨final, diffs, loop, grown⟩ := ih consistent skipped diff
        refine ⟨final, diffs, ?_,
          Grown.trans (show Grown kaspa db [mergeset] db from
            ⟨consistent, id, fun _ _ _ kept => kept, fun _ kept => kept⟩) grown⟩
        simp only [Krc721.processMergesets, skip, loop]
      · have reached : lastAcceptedBlueScore ≤ mergeset.blueScore :=
          not_lt.1 fun low => known (.inl low)
        obtain ⟨between, added, success, chain, one⟩ := consistent.processMergeset
          (addable.valid mergeset member) ((addable.placed mergeset member).resolve_left known)
        obtain ⟨final, diffs, loop, more⟩ :=
          ih one.consistent (chain ▸ accepted) (diff + added)
        refine ⟨final, diffs, ?_, one.trans more⟩
        simp only [Krc721.processMergesets, success _ diff reached, loop]

theorem processAdditions (consistent : Consistent kaspa db)
    (admissible : Admissible kaspa db mergesets) :
    ∃ db' diff, processAdditions kaspa db mergesets = .ok (db', diff) ∧
      Grown kaspa db mergesets db' :=
  consistent.processMergesets admissible.addable 0

end Additions

end Consistent

/-! Removals. -/

section Removals

variable {removed : List RpcHash} {forced : Option ℕ}

/-- A listing from the threshold on is by somebody else than the sender of a list operation from
below the threshold whose listing of that token was consumed from the threshold on. -/
def Ledger.RelistedByOther (ledger : Ledger) (threshold : ℕ) : Prop :=
  ∃ token current score common info listScore listCommon listInfo,
    ledger.listings.get token = some current ∧ threshold ≤ current.opScore ∧
    ledger.operationHistory.get score = some ⟨⟨common, .send info⟩, none⟩ ∧
    threshold ≤ score ∧ common.tick = token.tick ∧ info.tokenId = token.tokenId ∧
    ledger.operationHistory.get listScore = some ⟨⟨listCommon, .list listInfo⟩, none⟩ ∧
    listScore < threshold ∧ listCommon.txId = info.listingUtxoTxid ∧
    listCommon.sender ≠ current.seller

/-- A clash shows in the ledger before the removal. -/
theorem RestoreClash.relisted {old new : Ledger} {threshold : ℕ}
    (clash : RestoreClash threshold old new) (oldWf : old.Wf threshold)
    (extended : old.Extends threshold new) : new.RelistedByOther threshold := by
  obtain ⟨token, listing, current, found, relisted, above, sellers⟩ := clash
  cases extended.listings token with
  | kept _ same =>
      rw [relisted, found, Option.some_inj] at same
      exact absurd (congrArg ListingValue.seller same) sellers
  | unlisted _ absent _ =>
      rw [found] at absent
      cases absent
  | spent listing' found' spending _ _ =>
      rw [found, Option.some_inj] at found'
      subst found'
      obtain ⟨score, common, info, listScore, reached, logged, tick, tokenId, spends,
        indexed, below⟩ := spending
      obtain ⟨backed, _⟩ := oldWf.listed found
      obtain ⟨listCommon, listInfo, listLogged, _, _, seller, _⟩ := backed.logged
      obtain ⟨checked, sameLogged, txId⟩ := oldWf.log.indexed.1 backed.indexed
      rw [listLogged, Option.some_inj] at sameLogged
      subst sameLogged
      rw [← extended.operationHistory, Partition.get_below_eq_some_iff] at listLogged
      exact ⟨token, current, score, common, info, listing.opScore, listCommon, listInfo,
        relisted, above, logged, reached, tick, tokenId, listLogged.1, listLogged.2,
        txId.trans spends.symm, fun same => sellers (same.symm.trans seller)⟩

/-- The score from which a removal rolls back. -/
def removalThreshold (kaspa : Kaspa) (db : Db) (removed : List RpcHash) (forced : Option ℕ) :
    Option ℕ :=
  (db.identifyReorgBlocksAndDelete removed forced).2.map (calculateTxScoreFromBlue kaspa)

/-- What a removal keeps, and what it leaves of the chain and of the ledger. -/
structure RolledBack (kaspa : Kaspa) (db : Db) (removed : List RpcHash) (forced : Option ℕ)
    (db' : Db) : Prop where
  consistent : Consistent kaspa db'
  promises : ∀ {promised : Operation → Prop}, db.AllFrom promised → db'.AllFrom promised
  addressed : db.AddressIndexed → (∀ threshold, removalThreshold kaspa db removed forced =
    some threshold → ¬ db.toLedger.RelistedByOther threshold) → db'.AddressIndexed
  chain : db'.toChainStore = (db.identifyReorgBlocksAndDelete removed forced).1
  scoreToDiscount : db'.scoreToDiscount = db.scoreToDiscount
  unchanged : removalThreshold kaspa db removed forced = none → db'.toLedger = db.toLedger
  extended : ∀ threshold, removalThreshold kaspa db removed forced = some threshold →
    db'.toLedger.Extends threshold db.toLedger

theorem Consistent.processRemoval {kaspa : Kaspa} {db : Db} (consistent : Consistent kaspa db)
    (removed : List RpcHash) (forced : Option ℕ) :
    ∃ db' diff, processRemoval kaspa db removed forced = .ok (db', diff) ∧
      RolledBack kaspa db removed forced db' := by
  obtain ⟨cut, unchanged⟩ :=
    ChainStore.identifyReorgBlocksAndDelete_blocks db.toChainStore removed forced
  rcases found : db.identifyReorgBlocksAndDelete removed forced with ⟨chain, minBlueScore⟩
  rw [found] at cut unchanged
  cases minBlueScore with
  | none =>
      have same : chain = db.toChainStore := unchanged rfl
      subst same
      refine ⟨db, 0, ?_, ⟨consistent, fun kept => kept, fun indexed _ => indexed, ?_, rfl,
        fun _ => rfl, fun threshold reached => ?_⟩⟩
      · unfold Krc721.processRemoval
        simp only [found]
      · rw [found]
      · rw [removalThreshold, found] at reached
        cases reached
  | some minBlueScore =>
      have blocks := cut minBlueScore rfl
      simp only at blocks
      have le : calculateTxScoreFromBlue kaspa minBlueScore ≤ u64Max + 1 :=
        (lt_two_pow_iff_le_u64Max.1 (Nat.mod_lt _ (by positivity))).trans (Nat.le_succ _)
      obtain ⟨bound, replay⟩ := consistent.replay
      obtain ⟨bound', old, below, earlier, extended⟩ := replay.cut le
      have oldWf := earlier.wf.mono below le
      obtain ⟨db', diff, success, ledger, sameChain, discounts, addressed⟩ :=
        processRemoval_restores found replay.wf consistent.discounts oldWf extended
      have kept : ∀ {score checked}, db'.operationHistory.get score = some checked →
          db.operationHistory.get score = some checked ∧
            score < calculateTxScoreFromBlue kaspa minBlueScore := by
        intro score checked logged
        rw [congrArg LogStore.operationHistory (congrArg Ledger.toLogStore ledger),
          ← extended.operationHistory, Partition.get_below_eq_some_iff] at logged
        exact logged
      have reached : removalThreshold kaspa db removed forced =
          some (calculateTxScoreFromBlue kaspa minBlueScore) := by
        rw [removalThreshold, found, Option.map_some]
      refine ⟨db', diff, success, ⟨⟨⟨bound', ledger ▸ earlier⟩, ?_, ?_⟩, ?_, ?_, ?_, discounts,
        fun absent => ?_, fun threshold same => ?_⟩⟩
      · intro score checked logged
        obtain ⟨before, low⟩ := kept logged
        obtain ⟨block, stored, reached, bounded⟩ := consistent.covered score checked before
        refine ⟨block, ?_, reached, bounded⟩
        rw [congrArg ChainStore.chainBlockScores sameChain, blocks,
          Partition.isSome_get_below block.blueScore fun _ => rfl]
        refine ⟨stored, lt_of_not_ge fun high => ?_⟩
        have whole : calculateTxScoreFromBlue kaspa minBlueScore ≤
            minBlueScore * kaspa.blockCapacity := by
          refine (Nat.mod_le _ _).trans ?_
          simp [Kaspa.blockCapacity, mul_assoc]
        have scaled := Nat.mul_le_mul_right kaspa.blockCapacity high
        omega
      · intro key present
        rw [congrArg Ledger.vip ledger, ← extended.vip,
          Partition.isSome_get_below (u64Max - key.reversedScore)
            fun _ => rfl] at present
        rw [discounts]
        exact consistent.discounts key present.1
      · intro promised all score checked logged
        exact all score checked (kept logged).1
      · intro indexed unclashed
        exact addressed indexed fun clash =>
          unclashed _ reached (clash.relisted oldWf extended)
      · rw [sameChain, found]
      · rw [reached] at absent
        cases absent
      · rw [reached, Option.some_inj] at same
        subst same
        exact ledger ▸ extended

end Removals

/-! Runs without forks. -/

theorem UnforkedReachable.consistent {kaspa : Kaspa} {db : Db}
    (reachable : UnforkedReachable kaspa db) : Consistent kaspa db := by
  induction reachable with
  | new => exact .new
  | addition earlier batch unforked success ih =>
      obtain ⟨db', diff, same, grown⟩ := ih.processAdditions ⟨batch, unforked⟩
      rw [success] at same
      cases same
      exact grown.consistent
  | @removal _ _ removed forced _ earlier guarded success ih =>
      obtain ⟨db', diff, same, rolledBack⟩ := ih.processRemoval removed forced
      rw [success] at same
      cases same
      exact rolledBack.consistent
  | bookkeeping stats notificationQueue earlier ih => exact ⟨ih.replay, ih.covered, ih.discounts⟩

namespace UnforkedRun

variable {kaspa : Kaspa} {adds : Db → List Mergeset → Prop}
  {removes : Db → List RpcHash → Option ℕ → Prop} {db : Db}

theorem consistent (run : UnforkedRun kaspa adds removes db) : Consistent kaspa db :=
  UnforkedReachable.consistent run.unforkedReachable

theorem added {db' : Db} {mergesets : List Mergeset} {diff : StatsDiffs}
    (earlier : UnforkedRun kaspa adds removes db) (admissible : Admissible kaspa db mergesets)
    (guarded : adds db mergesets)
    (success : processAdditions kaspa db mergesets = .ok (db', diff)) :
    UnforkedRun kaspa adds removes db' :=
  .addition earlier admissible.toBatch ⟨admissible.unforked, guarded⟩ success

/-- What every guarded addition and every guarded removal preserves holds of every database of
the run. -/
theorem invariant (kept : Db → Prop) (run : UnforkedRun kaspa adds removes db)
    (initially : kept .new)
    (addition : ∀ {db db' : Db} {mergesets : List Mergeset}, Consistent kaspa db →
      adds db mergesets → Consistent.Grown kaspa db mergesets db' → kept db → kept db')
    (removal : ∀ {db db' : Db} {removed : List RpcHash} {forced : Option ℕ},
      Consistent kaspa db → removes db removed forced →
      RolledBack kaspa db removed forced db' → kept db → kept db')
    (bookkeeping : ∀ {db : Db} (stats : Option Stats)
      (notificationQueue : Partition ℕ VirtualChainChanges), kept db →
      kept { db with stats, notificationQueue }) : kept db := by
  induction run with
  | new => exact initially
  | addition earlier batch guarded success ih =>
      have consistent := UnforkedRun.consistent earlier
      obtain ⟨db', diff, same, grown⟩ := consistent.processAdditions ⟨batch, guarded.1⟩
      rw [success] at same
      cases same
      exact addition consistent guarded.2 grown ih
  | @removal _ _ removed forced _ earlier guarded success ih =>
      have consistent := UnforkedRun.consistent earlier
      obtain ⟨db', diff, same, rolledBack⟩ := consistent.processRemoval removed forced
      rw [success] at same
      cases same
      exact removal consistent guarded rolledBack ih
  | bookkeeping stats notificationQueue earlier ih => exact bookkeeping _ _ ih

end UnforkedRun

/-- A whole notification commits, and the database it commits is reachable. -/
theorem UnforkedReachable.processChainChanges {kaspa : Kaspa} {db : Db}
    (reachable : UnforkedReachable kaspa db) {vcc : VirtualChainChanges}
    (admissible : ∀ between, removalPhase kaspa db vcc = .ok between →
      Admissible kaspa between vcc.mergesets) :
    (processChainChanges kaspa db vcc).2 = .ok () ∧
      UnforkedReachable kaspa (processChainChanges kaspa db vcc).1 := by
  obtain ⟨between, removed, reachableBetween⟩ : ∃ between,
      removalPhase kaspa db vcc = .ok between ∧ UnforkedReachable kaspa between := by
    unfold removalPhase
    split
    · obtain ⟨db', diff, success, _⟩ := reachable.consistent.processRemoval
        vcc.removedChainBlockHashes vcc.forcedRollbackBlueScore
      simp only [success]
      exact ⟨_, rfl, .bookkeeping _ _ (.removal reachable trivial success)⟩
    · exact ⟨db, rfl, reachable⟩
  obtain ⟨final, added, reachableFinal⟩ : ∃ final,
      additionPhase kaspa between vcc = .ok final ∧ UnforkedReachable kaspa final := by
    unfold additionPhase
    split
    · obtain ⟨batch, unforked⟩ := admissible between removed
      obtain ⟨db', diff, success, _⟩ :=
        reachableBetween.consistent.processAdditions ⟨batch, unforked⟩
      simp only [success]
      exact ⟨_, rfl, .bookkeeping _ _ (.addition reachableBetween batch unforked success)⟩
    · exact ⟨between, rfl, reachableBetween⟩
  simp only [Krc721.processChainChanges, processChainChangesWtx, removed, added]
  exact ⟨trivial, reachableFinal⟩

end Krc721
