import Krc721.Processor.MergesetProperties
import Krc721.Model.Script

/-! A chain reorganisation equals a replay. Whatever the batches in which a chain was
processed, rolling it back to one of its blocks leaves what processing the blocks before it
produces from an empty database. -/

set_option autoImplicit false

namespace Krc721

open OrderedStore

/-- The mergesets of a chain in the order of the node: valid ones with strictly increasing blue
scores, distinct chain blocks and distinct transactions. -/
structure ValidChain (kaspa : Kaspa) (mergesets : List Mergeset) : Prop where
  valid : ∀ mergeset ∈ mergesets, mergeset.Valid kaspa
  ascending : mergesets.Pairwise fun left right => left.blueScore < right.blueScore
  hashes : mergesets.Pairwise fun left right =>
    left.acceptedChainBlockHash ≠ right.acceptedChainBlockHash
  txIds : mergesets.Pairwise fun left right => ∀ op ∈ left.operations,
    ∀ op' ∈ right.operations, op.operation.common.txId ≠ op'.operation.common.txId

theorem ValidChain.first_le {kaspa : Kaspa} {first : Mergeset} {rest : List Mergeset}
    (valid : ValidChain kaspa (first :: rest)) :
    ∀ mergeset ∈ first :: rest, first.blueScore ≤ mergeset.blueScore := by
  intro mergeset member
  cases List.mem_cons.1 member with
  | inl same =>
      subst same
      exact le_rfl
  | inr later => exact ((List.pairwise_cons.1 valid.ascending).1 mergeset later).le

/-- Process batches of mergesets one after the other. -/
def processBatches (kaspa : Kaspa) : Db → List (List Mergeset) → Except Fault Db
  | db, [] => .ok db
  | db, batch :: batches =>
      match processAdditions kaspa db batch with
      | .error fault => .error fault
      | .ok (db, _) => processBatches kaspa db batches

/-- Process mergesets one by one, whatever the tip. -/
def acceptMergesets (kaspa : Kaspa) : Db → List Mergeset → Except Fault Db
  | db, [] => .ok db
  | db, mergeset :: mergesets =>
      match processMergeset kaspa 0 db 0 mergeset with
      | .error fault => .error fault
      | .ok (db, _) => acceptMergesets kaspa db mergesets

/-- A database that the next mergesets of a chain can be added to. -/
structure Ready (kaspa : Kaspa) (db : Db) (mergesets : List Mergeset) : Prop where
  next : ValidChain kaspa mergesets
  chain : db.toChainStore.Wf
  ledger : ∃ bound, db.toLedger.Wf bound ∧
    ∀ mergeset ∈ mergesets, bound ≤ calculateTxScoreFromBlue kaspa mergeset.blueScore
  blocks : ∀ mergeset ∈ mergesets, ∀ block, (db.chainBlockScores.get block).isSome →
    block.blueScore < mergeset.blueScore
  hashes : ∀ mergeset ∈ mergesets,
    db.blockhashToScore.get mergeset.acceptedChainBlockHash = none
  txIds : ∀ mergeset ∈ mergesets, ∀ op ∈ mergeset.operations,
    db.txIdToOpscore.get op.operation.common.txId = none
  discounts : db.DiscountsIndexed

/-- What the mergesets of a chain do to a database: they store their blocks, and they extend
every ledger that the database extends above a threshold below them. -/
structure Extended (kaspa : Kaspa) (db : Db) (mergesets : List Mergeset) (db' : Db) : Prop where
  stored : ∀ mergeset ∈ mergesets,
    db'.blockhashToScore.get mergeset.acceptedChainBlockHash = some mergeset.blueScore
  kept : ∀ {hash score}, db.blockhashToScore.get hash = some score →
    db'.blockhashToScore.get hash = some score
  below : ∀ {first : ℕ}, (∀ mergeset ∈ mergesets, first ≤ mergeset.blueScore) →
    db'.toChainStore.below first = db.toChainStore.below first
  ledger : ∀ {threshold : ℕ} {old : Ledger},
    (∀ mergeset ∈ mergesets,
      threshold ≤ calculateTxScoreFromBlue kaspa mergeset.blueScore) →
    old.Wf threshold → old.Extends threshold db.toLedger → old.Extends threshold db'.toLedger

theorem Ready.new {kaspa : Kaspa} {mergesets : List Mergeset}
    (valid : ValidChain kaspa mergesets) : Ready kaspa Db.new mergesets where
  next := valid
  chain := ⟨by simp [Db.new]⟩
  ledger := ⟨0, .empty, fun _ _ => Nat.zero_le _⟩
  blocks := by simp [Db.new]
  hashes := by simp [Db.new]
  txIds := by simp [Db.new]
  discounts := by
    intro key present
    simp [Db.new] at present

section Step

variable {kaspa : Kaspa} {db : Db} {mergeset : Mergeset} {mergesets : List Mergeset}

/-- The scores of a chain block end below the scores of the next one. -/
theorem Mergeset.Valid.next_block {next : Mergeset} (nextValid : next.Valid kaspa)
    (less : mergeset.blueScore < next.blueScore) :
    (mergeset.blueScore + 1) * kaspa.blockCapacity ≤
      calculateTxScoreFromBlue kaspa next.blueScore := by
  rw [calculateTxScoreFromBlue_eq nextValid.fits]
  exact Nat.mul_le_mul_right _ less

theorem Ready.tail_hash (ready : Ready kaspa db (mergeset :: mergesets)) {next : Mergeset}
    (inRest : next ∈ mergesets) :
    mergeset.acceptedChainBlockHash ≠ next.acceptedChainBlockHash :=
  (List.pairwise_cons.1 ready.next.hashes).1 next inRest

theorem Ready.wf (ready : Ready kaspa db (mergeset :: mergesets)) :
    db.toLedger.Wf (calculateTxScoreFromBlue kaspa mergeset.blueScore) := by
  obtain ⟨bound, ledger, bounds⟩ := ready.ledger
  have scoreLe : calculateTxScoreFromBlue kaspa mergeset.blueScore ≤ u64Max :=
    lt_two_pow_iff_le_u64Max.1 (Nat.mod_lt _ (by positivity))
  exact ledger.mono (bounds mergeset List.mem_cons_self) (scoreLe.trans (Nat.le_succ _))

theorem Ready.newBlock (ready : Ready kaspa db (mergeset :: mergesets)) :
    db.chainBlockScores.get ⟨mergeset.blueScore, mergeset.acceptedChainBlockHash⟩ = none := by
  rw [← Option.not_isSome_iff_eq_none]
  intro present
  have less := ready.blocks mergeset List.mem_cons_self _ present
  simp only at less
  omega

/-- The operations of the later mergesets stay new. -/
theorem Ready.unrecorded (ready : Ready kaspa db (mergeset :: mergesets)) {db' : Db}
    {last : ℕ} (wf : db'.toLedger.Wf last)
    (logged : ∀ score checked, db'.operationHistory.get score = some checked →
      db.operationHistory.get score = some checked ∨
        calculateTxScoreFromBlue kaspa mergeset.blueScore ≤ score ∧
          score < (mergeset.blueScore + 1) * kaspa.blockCapacity ∧
          ∃ op ∈ mergeset.operations, checked.Records op.operation)
    {next : Mergeset} (inRest : next ∈ mergesets) {op : MergesetOperation}
    (inNext : op ∈ next.operations) :
    db'.txIdToOpscore.get op.operation.common.txId = none := by
  obtain ⟨_, ledger, _⟩ := ready.ledger
  rw [← Option.not_isSome_iff_eq_none]
  intro present
  obtain ⟨score, stored⟩ := Option.isSome_iff_exists.1 present
  obtain ⟨checked, inLog, same⟩ := wf.log.indexed.1 stored
  rcases logged score checked inLog with earlier | ⟨_, _, op', inMergeset, records⟩
  · have indexed := ledger.log.indexed.2 ⟨checked, earlier, same⟩
    rw [ready.txIds next (List.mem_cons_of_mem _ inRest) op inNext] at indexed
    cases indexed
  · exact (List.pairwise_cons.1 ready.next.txIds).1 next inRest op' inMergeset op inNext
      (records.common ▸ same)

/-- Running a mergeset stores its block and extends the ledger. -/
theorem Ready.extended (ready : Ready kaspa db (mergeset :: mergesets)) {db' : Db} {last : ℕ}
    (run : Run kaspa (calculateTxScoreFromBlue kaspa mergeset.blueScore)
      { db with toChainStore := db.toChainStore.accept mergeset } last db') :
    Extended kaspa db [mergeset] db' := by
  have newHash := ready.hashes mergeset List.mem_cons_self
  have chain := run.chain
  simp only at chain
  have index : db'.blockhashToScore = db.blockhashToScore.insert
      mergeset.acceptedChainBlockHash mergeset.blueScore :=
    congrArg ChainStore.blockhashToScore chain
  constructor
  case stored =>
    intro same member
    rw [List.mem_singleton] at member
    rw [member, index, Partition.get_insert_self]
  case kept =>
    intro hash score earlier
    rw [index, Partition.get_insert_of_ne, earlier]
    rintro rfl
    rw [newHash] at earlier
    cases earlier
  case below =>
    intro first above
    rw [chain]
    exact ChainStore.accept_below (above mergeset List.mem_cons_self) newHash
  case ledger =>
    intro threshold old above oldWf extended
    exact run.extends_of ready.wf (above mergeset List.mem_cons_self) oldWf extended

theorem Ready.step (ready : Ready kaspa db (mergeset :: mergesets)) :
    ∃ db' added,
      (∀ lastAcceptedBlueScore diff, lastAcceptedBlueScore ≤ mergeset.blueScore →
        processMergeset kaspa lastAcceptedBlueScore db diff mergeset =
          .ok (db', diff + added)) ∧
      Ready kaspa db' mergesets ∧ Extended kaspa db [mergeset] db' := by
  have later : ∀ {next}, next ∈ mergesets → next ∈ mergeset :: mergesets :=
    fun inRest => List.mem_cons_of_mem _ inRest
  have valid := ready.next.valid mergeset List.mem_cons_self
  obtain ⟨ascendingHead, ascending⟩ := List.pairwise_cons.1 ready.next.ascending
  have newHash := ready.hashes mergeset List.mem_cons_self
  obtain ⟨db', added, last, success, run, lastLe, logged⟩ :=
    processMergeset_next ready.wf valid ready.newBlock
  have chain := run.chain
  simp only at chain
  refine ⟨db', added, success, ?_, ready.extended run⟩
  constructor
  case next =>
    exact ⟨fun next inRest => ready.next.valid next (later inRest), ascending,
      ready.next.hashes.tail, ready.next.txIds.tail⟩
  case chain =>
    rw [chain]
    exact ready.chain.accept newHash
  case ledger =>
    refine ⟨last, run.wf ready.wf, fun next inRest => lastLe.trans ?_⟩
    exact (ready.next.valid next (later inRest)).next_block (ascendingHead next inRest)
  case blocks =>
    intro next inRest block present
    rw [congrArg ChainStore.chainBlockScores chain, ChainStore.accept,
      Partition.get_insert] at present
    split at present
    · rename_i same
      subst same
      exact ascendingHead next inRest
    · exact ready.blocks next (later inRest) block present
  case hashes =>
    intro next inRest
    rw [congrArg ChainStore.blockhashToScore chain, ChainStore.accept,
      Partition.get_insert_of_ne _ _ (ready.tail_hash inRest)]
    exact ready.hashes next (later inRest)
  case txIds =>
    exact fun next inRest op inNext => ready.unrecorded (run.wf ready.wf) logged inRest inNext
  case discounts => exact run.discounts ready.wf ready.discounts

theorem Ready.run {rest : List Mergeset} (ready : Ready kaspa db (mergesets ++ rest)) :
    ∃ db', acceptMergesets kaspa db mergesets = .ok db' ∧ Ready kaspa db' rest ∧
      Extended kaspa db mergesets db' := by
  induction mergesets generalizing db with
  | nil =>
      exact ⟨db, rfl, ready, ⟨fun _ member => (List.not_mem_nil member).elim, id,
        fun _ => rfl, fun _ _ extended => extended⟩⟩
  | cons mergeset mergesets ih =>
      obtain ⟨between, added, success, next, one⟩ := Ready.step ready
      obtain ⟨final, accepted, final_ready, more⟩ := ih next
      refine ⟨final, ?_, final_ready, ⟨?_, fun earlier => more.kept (one.kept earlier), ?_, ?_⟩⟩
      · simp only [acceptMergesets, success 0 0 (Nat.zero_le _), accepted]
      · intro later member
        rcases List.mem_cons.1 member with rfl | inRest
        · exact more.kept (one.stored _ List.mem_cons_self)
        · exact more.stored later inRest
      · intro first above
        rw [more.below fun later inRest => above later (List.mem_cons_of_mem _ inRest),
          one.below]
        intro same member
        rw [List.mem_singleton] at member
        exact member ▸ above mergeset List.mem_cons_self
      · intro threshold old above oldWf extended
        refine more.ledger (fun later inRest => above later (List.mem_cons_of_mem _ inRest))
          oldWf (one.ledger (fun first member => ?_) oldWf extended)
        rw [List.mem_singleton] at member
        exact member ▸ above mergeset List.mem_cons_self

/-- A batch is the same as its mergesets one by one. -/
theorem Ready.processMergesets {rest : List Mergeset}
    (ready : Ready kaspa db (mergesets ++ rest)) {lastAcceptedBlueScore : ℕ}
    (above : ∀ mergeset ∈ mergesets, lastAcceptedBlueScore ≤ mergeset.blueScore)
    (diff : StatsDiffs) :
    ∃ db' diff', processMergesets kaspa lastAcceptedBlueScore db diff mergesets =
      .ok (db', diff') ∧ acceptMergesets kaspa db mergesets = .ok db' ∧
        Ready kaspa db' rest := by
  induction mergesets generalizing db diff with
  | nil => exact ⟨db, diff, rfl, rfl, ready⟩
  | cons mergeset mergesets ih =>
      obtain ⟨between, added, success, next, _⟩ := Ready.step ready
      obtain ⟨final, diffs, loop, accepted, final_ready⟩ := ih next
        (fun later inRest => above later (List.mem_cons_of_mem _ inRest)) (diff + added)
      refine ⟨final, diffs, ?_, ?_, final_ready⟩
      · simp only [Krc721.processMergesets,
          success lastAcceptedBlueScore diff (above mergeset List.mem_cons_self), loop]
      · simp only [acceptMergesets, success 0 0 (Nat.zero_le _), accepted]

theorem Ready.processAdditions {rest : List Mergeset}
    (ready : Ready kaspa db (mergesets ++ rest)) :
    ∃ db' diff', processAdditions kaspa db mergesets = .ok (db', diff') ∧
      acceptMergesets kaspa db mergesets = .ok db' ∧ Ready kaspa db' rest := by
  refine ready.processMergesets (fun mergeset member => ?_) 0
  cases last : db.lastAcceptedBlock with
  | none => exact Nat.zero_le _
  | some tip =>
      have stored := (Partition.lastKey_eq_some_iff.1 last).1
      exact (ready.blocks mergeset (List.mem_append_left _ member) tip stored).le

theorem acceptMergesets_append {left : List Mergeset} (right : List Mergeset) {middle : Db}
    (accepted : acceptMergesets kaspa db left = .ok middle) :
    acceptMergesets kaspa db (left ++ right) = acceptMergesets kaspa middle right := by
  induction left generalizing db with
  | nil =>
      cases accepted
      rfl
  | cons mergeset left ih =>
      simp only [List.cons_append, acceptMergesets] at accepted ⊢
      cases success : processMergeset kaspa 0 db 0 mergeset with
      | error fault =>
          rw [success] at accepted
          cases accepted
      | ok result =>
          rw [success] at accepted
          exact ih accepted

/-- The batches do not matter. -/
theorem Ready.processBatches {batches : List (List Mergeset)}
    (ready : Ready kaspa db batches.flatten) :
    ∃ db', processBatches kaspa db batches = .ok db' ∧
      acceptMergesets kaspa db batches.flatten = .ok db' := by
  induction batches generalizing db with
  | nil => exact ⟨db, rfl, rfl⟩
  | cons batch batches ih =>
      rw [List.flatten_cons] at ready ⊢
      obtain ⟨between, diff, success, accepted, next⟩ := Ready.processAdditions ready
      obtain ⟨final, rest, more⟩ := ih next
      refine ⟨final, by simp only [Krc721.processBatches, success, rest], ?_⟩
      rw [acceptMergesets_append _ accepted, more]

end Step

/-! The removal. -/

/-- A removal that reaches back to the block of `first`: it names blocks of the chain from that
one on, or it forces the rollback to its blue score. -/
structure RollsBack (first : Mergeset) (rest : List Mergeset) (removed : List RpcHash)
    (forced : Option ℕ) : Prop where
  among : ∀ hash ∈ removed, ∃ mergeset ∈ first :: rest, mergeset.acceptedChainBlockHash = hash
  score : ∀ score, forced = some score → score = first.blueScore
  reaches : first.acceptedChainBlockHash ∈ removed ∨ forced = some first.blueScore

/-- What a removal leaves of a chain: the ledger and the blocks of a replay that stops before
`first`, and that the full ledger extends. -/
structure Replayed (kaspa : Kaspa) (first : Mergeset) (full replayed rolledBack : Db) :
    Prop where
  ledger : rolledBack.toLedger = replayed.toLedger
  chain : rolledBack.toChainStore = replayed.toChainStore
  fullWf : ∃ bound, full.toLedger.Wf bound
  wf : replayed.toLedger.Wf (calculateTxScoreFromBlue kaspa first.blueScore)
  extended : replayed.toLedger.Extends (calculateTxScoreFromBlue kaspa first.blueScore)
    full.toLedger

section Removal

variable {kaspa : Kaspa} {before rest : List Mergeset} {first : Mergeset}
  {batches replayBatches : List (List Mergeset)} {removed : List RpcHash} {forced : Option ℕ}

/-- A chain processed up to the block of `first`, and then to its end. -/
structure ChainSplit (kaspa : Kaspa) (before : List Mergeset) (first : Mergeset)
    (rest : List Mergeset) (replayed full : Db) : Prop where
  accepted : acceptMergesets kaspa Db.new before = .ok replayed
  more : acceptMergesets kaspa replayed (first :: rest) = .ok full
  ready : Ready kaspa replayed (first :: rest)
  done : Ready kaspa full []
  extended : Extended kaspa replayed (first :: rest) full
  wf : replayed.toLedger.Wf (calculateTxScoreFromBlue kaspa first.blueScore)
  ledger : replayed.toLedger.Extends (calculateTxScoreFromBlue kaspa first.blueScore)
    full.toLedger

theorem ValidChain.split (valid : ValidChain kaspa (before ++ first :: rest)) :
    ∃ replayed full, ChainSplit kaspa before first rest replayed full := by
  obtain ⟨replayed, accepted, ready, _⟩ := Ready.run (Ready.new valid)
  have ready' : Ready kaspa replayed ((first :: rest) ++ []) := by
    rw [List.append_nil]
    exact ready
  obtain ⟨full, more, done, extended⟩ := Ready.run ready'
  have fits := (ready.next.valid first List.mem_cons_self).fits
  have scoreLe : calculateTxScoreFromBlue kaspa first.blueScore ≤ u64Max :=
    lt_two_pow_iff_le_u64Max.1 (Nat.mod_lt _ (by positivity))
  have scoresAbove : ∀ mergeset ∈ first :: rest,
      calculateTxScoreFromBlue kaspa first.blueScore ≤
        calculateTxScoreFromBlue kaspa mergeset.blueScore := by
    intro mergeset member
    rw [calculateTxScoreFromBlue_eq fits,
      calculateTxScoreFromBlue_eq (ready.next.valid mergeset member).fits]
    exact Nat.mul_le_mul_right _ (ready.next.first_le mergeset member)
  obtain ⟨bound, ledger, bounds⟩ := ready.ledger
  have wf := ledger.mono (bounds first List.mem_cons_self) (scoreLe.trans (Nat.le_succ _))
  exact ⟨replayed, full, accepted, more, ready, done, extended, wf,
    extended.ledger scoresAbove wf (wf.extends_self le_rfl)⟩

/-- The removal of a split chain finds the block of `first`. -/
theorem ChainSplit.identify {replayed full : Db}
    (split : ChainSplit kaspa before first rest replayed full)
    (rollsBack : RollsBack first rest removed forced) :
    full.identifyReorgBlocksAndDelete removed forced =
      (full.toChainStore.below first.blueScore, some first.blueScore) := by
  have fits := (split.ready.next.valid first List.mem_cons_self).fits
  have blueLe : first.blueScore ≤ u64Max := by
    have capacity : 0 < kaspa.blockCapacity :=
      Nat.mul_pos kaspa.mergeSetLimit_pos (by decide)
    have below := Nat.le_mul_of_pos_right (first.blueScore + 1) capacity
    unfold u64Max
    omega
  exact split.done.chain.identifyReorgBlocksAndDelete blueLe
    (by
      intro hash member score indexed
      obtain ⟨mergeset, inRest, rfl⟩ := rollsBack.among hash member
      rw [split.extended.stored mergeset inRest, Option.some_inj] at indexed
      exact indexed ▸ split.ready.next.first_le mergeset inRest)
    (fun score given => (rollsBack.score score given).ge)
    (rollsBack.reaches.imp_left fun member =>
      ⟨_, member, split.extended.stored first List.mem_cons_self⟩)

theorem ValidChain.left {left right : List Mergeset} (valid : ValidChain kaspa (left ++ right)) :
    ValidChain kaspa left where
  valid := fun mergeset member => valid.valid mergeset (List.mem_append_left _ member)
  ascending := (List.pairwise_append.1 valid.ascending).1
  hashes := (List.pairwise_append.1 valid.hashes).1
  txIds := (List.pairwise_append.1 valid.txIds).1

/-- Rolling a chain back and replaying what remains give the same ledger and blocks. -/
theorem ValidChain.rollback (valid : ValidChain kaspa (before ++ first :: rest))
    (whole : batches.flatten = before ++ first :: rest)
    (shorter : replayBatches.flatten = before)
    (rollsBack : RollsBack first rest removed forced) :
    ∃ full replayed rolledBack diff,
      processBatches kaspa Db.new batches = .ok full ∧
      processBatches kaspa Db.new replayBatches = .ok replayed ∧
      processRemoval kaspa full removed forced = .ok (rolledBack, diff) ∧
      Replayed kaspa first full replayed rolledBack := by
  obtain ⟨replayed, full, split⟩ := valid.split
  obtain ⟨full', processed, same⟩ :=
    Ready.processBatches (show Ready kaspa Db.new batches.flatten from whole ▸ Ready.new valid)
  rw [whole, acceptMergesets_append _ split.accepted, split.more] at same
  cases same
  obtain ⟨replayed', replay, same⟩ :=
    Ready.processBatches (show Ready kaspa Db.new replayBatches.flatten from
      shorter ▸ Ready.new valid.left)
  rw [shorter, split.accepted] at same
  cases same
  obtain ⟨fullBound, fullWf, _⟩ := split.done.ledger
  obtain ⟨rolledBack, diff, success, sameLedger, sameChain, _⟩ :=
    processRemoval_restores (split.identify rollsBack) fullWf split.done.discounts split.wf
      split.ledger
  refine ⟨full, replayed, rolledBack, diff, processed, replay, success, sameLedger, ?_,
    ⟨fullBound, fullWf⟩, split.wf, split.ledger⟩
  rw [sameChain, split.extended.below split.ready.next.first_le,
    split.ready.chain.below_eq_self]
  intro block row stored
  exact split.ready.blocks first List.mem_cons_self block
    (Option.isSome_iff_exists.2 ⟨row, stored⟩)

end Removal

/-! A chain of two blocks: a deployment and a listing, then a sale and a mint. -/

namespace Sample

/-- The script public key of the hash of the one redeem script that is listed here. -/
def listingAddress : ScriptPublicKey :=
  .ofScriptHash [135, 62, 79, 233, 228, 30, 146, 73, 17, 187, 163, 236, 83, 255, 71, 130, 239,
    200, 192, 242, 68, 251, 117, 200, 121, 248, 164, 50, 141, 1, 66, 202]

def kaspa : Kaspa where
  mergeSetLimit := 2
  mergeSetLimit_pos := Nat.two_pos
  payToScriptHashScript := fun redeemScript =>
    if redeemScript = [7] then listingAddress else .ofScriptHash (List.replicate 32 0)

def tick : Tick := ⟨[65, 0, 0, 0, 0, 0, 0, 0, 0, 0], rfl, by decide⟩

def alice : ScriptPublicKey := .ofPubKey (List.replicate 32 1)

def bob : ScriptPublicKey := .ofPubKey (List.replicate 32 2)

def operation (txId : TransactionId) (sender : ScriptPublicKey) (info : OperationInfo) :
    Operation :=
  ⟨⟨tick, txId, 0, sender, 0, 0⟩, info⟩

/-- Alice deploys with one preminted token and lists it. -/
def deployBlock : Mergeset where
  operations := [
    ⟨0, 0, operation 1 alice (.deploy ⟨.remote "ipfs", 3, alice, none, 0, 1⟩)⟩,
    ⟨0, 1, operation 2 alice (.list ⟨1, listingAddress, [7]⟩)⟩]
  entropy := 5
  blueScore := 1
  acceptedChainBlockHash := 101

/-- Bob buys the token and mints another one. -/
def saleBlock : Mergeset where
  operations := [
    ⟨0, 0, operation 3 alice (.send ⟨1, 50, some bob, 2⟩)⟩,
    ⟨1, 0, operation 4 bob (.mint ⟨0, bob, none⟩)⟩]
  entropy := 6
  blueScore := 2
  acceptedChainBlockHash := 102

theorem deployBlock_valid : deployBlock.Valid kaspa := by decide

theorem saleBlock_valid : saleBlock.Valid kaspa := by decide

theorem chain_valid : ValidChain kaspa ([deployBlock] ++ saleBlock :: []) where
  valid := by decide
  ascending := by decide
  hashes := by decide
  txIds := by decide

theorem saleBlock_rollsBack :
    RollsBack saleBlock [] [saleBlock.acceptedChainBlockHash] none where
  among := by simp
  score := by simp
  reaches := .inl List.mem_cons_self

end Sample

section Removal

variable {kaspa : Kaspa} {before rest : List Mergeset} {first : Mergeset}
  {batches replayBatches : List (List Mergeset)} {removed : List RpcHash} {forced : Option ℕ}

/-- A reorganisation leaves the chain blocks, the log, the collections, the owners and the
ranges that processing the remaining chain leaves. -/
theorem reorg_eq_replay (valid : ValidChain kaspa (before ++ first :: rest))
    (whole : batches.flatten = before ++ first :: rest)
    (shorter : replayBatches.flatten = before)
    (rollsBack : RollsBack first rest removed forced) :
    ∃ full replayed rolledBack diff,
      processBatches kaspa Db.new batches = .ok full ∧
      processBatches kaspa Db.new replayBatches = .ok replayed ∧
      processRemoval kaspa full removed forced = .ok (rolledBack, diff) ∧
      rolledBack.toChainStore = replayed.toChainStore ∧
      rolledBack.toLogStore = replayed.toLogStore ∧
      rolledBack.toCollectionStore = replayed.toCollectionStore ∧
      rolledBack.toOwnershipStore = replayed.toOwnershipStore ∧
      rolledBack.toRangeStore = replayed.toRangeStore := by
  obtain ⟨full, replayed, rolledBack, diff, processed, replay, success, result⟩ :=
    valid.rollback whole shorter rollsBack
  exact ⟨full, replayed, rolledBack, diff, processed, replay, success, result.chain,
    congrArg Ledger.toLogStore result.ledger,
    congrArg Ledger.toCollectionStore result.ledger,
    congrArg Ledger.toOwnershipStore result.ledger,
    congrArg Ledger.toRangeStore result.ledger⟩

theorem reorg_eq_replay_sale :
    ∃ full replayed rolledBack diff,
      processBatches Sample.kaspa Db.new [[Sample.deployBlock, Sample.saleBlock]] =
        .ok full ∧
      processBatches Sample.kaspa Db.new [[Sample.deployBlock]] = .ok replayed ∧
      processRemoval Sample.kaspa full [102] none = .ok (rolledBack, diff) ∧
      rolledBack.toChainStore = replayed.toChainStore ∧
      rolledBack.toLogStore = replayed.toLogStore ∧
      rolledBack.toCollectionStore = replayed.toCollectionStore ∧
      rolledBack.toOwnershipStore = replayed.toOwnershipStore ∧
      rolledBack.toRangeStore = replayed.toRangeStore :=
  reorg_eq_replay Sample.chain_valid rfl rfl
    Sample.saleBlock_rollsBack

/-- The log holds the accepted list operation of a transaction. -/
def LogStore.ListSurvives (log : LogStore) (txId : TransactionId) : Prop :=
  ∃ score common info, log.operationHistory.get score = some ⟨⟨common, .list info⟩, none⟩ ∧
    common.txId = txId

/-- A listing consumed at or above the threshold is in the replayed listings exactly when its
list operation is in the replayed log. -/
theorem Replayed.restored {full replayed rolledBack : Db}
    (result : Replayed kaspa first full replayed rolledBack) {score : ℕ}
    {common : OperationCommon} {info : SendInfo}
    (reached : calculateTxScoreFromBlue kaspa first.blueScore ≤ score)
    (logged : full.operationHistory.get score = some ⟨⟨common, .send info⟩, none⟩) :
    (∃ listing, replayed.listings.get ⟨common.tick, info.tokenId⟩ = some listing ∧
        listing.listingTxId = info.listingUtxoTxid) ↔
      replayed.ListSurvives info.listingUtxoTxid := by
  constructor
  · rintro ⟨listing, found, spends⟩
    obtain ⟨backed, _⟩ := result.wf.listed found
    obtain ⟨listCommon, listInfo, listLogged, _⟩ := backed.logged
    obtain ⟨checked, sameLogged, txId⟩ := result.wf.log.indexed.1 backed.indexed
    rw [listLogged, Option.some_inj] at sameLogged
    subst sameLogged
    exact ⟨listing.opScore, listCommon, listInfo, listLogged, txId.trans spends⟩
  · rintro ⟨listScore, listCommon, listInfo, survives, txId⟩
    obtain ⟨bound, fullWf⟩ := result.fullWf
    have inFull := survives
    rw [← result.extended.operationHistory, Partition.get_below_eq_some_iff] at inFull
    have spentHere : full.toLedger.SpentListing
        (calculateTxScoreFromBlue kaspa first.blueScore) ⟨common.tick, info.tokenId⟩
        info.listingUtxoTxid :=
      ⟨score, common, info, listScore, reached, logged, rfl, rfl, rfl,
        fullWf.log.indexed.2 ⟨_, inFull.1, txId⟩, inFull.2⟩
    cases result.extended.listings ⟨common.tick, info.tokenId⟩ with
    | kept unspent _ => exact (unspent _ spentHere).elim
    | unlisted unspent _ _ => exact (unspent _ spentHere).elim
    | spent listing found _ unique _ => exact ⟨listing, found, (unique _ spentHere).symm⟩

/-- A reorganisation leaves the listings that processing the remaining chain leaves: none from
the removed blocks, and each one they consumed whose list operation survives. -/
theorem reorg_listings (valid : ValidChain kaspa (before ++ first :: rest))
    (whole : batches.flatten = before ++ first :: rest)
    (shorter : replayBatches.flatten = before)
    (rollsBack : RollsBack first rest removed forced) :
    ∃ full replayed rolledBack diff,
      processBatches kaspa Db.new batches = .ok full ∧
      processBatches kaspa Db.new replayBatches = .ok replayed ∧
      processRemoval kaspa full removed forced = .ok (rolledBack, diff) ∧
      rolledBack.listings = replayed.listings ∧
      (∀ token listing, rolledBack.listings.get token = some listing →
        listing.opScore < calculateTxScoreFromBlue kaspa first.blueScore) ∧
      ∀ score common info, calculateTxScoreFromBlue kaspa first.blueScore ≤ score →
        full.operationHistory.get score = some ⟨⟨common, .send info⟩, none⟩ →
          ((∃ listing, rolledBack.listings.get ⟨common.tick, info.tokenId⟩ = some listing ∧
              listing.listingTxId = info.listingUtxoTxid) ↔
            rolledBack.ListSurvives info.listingUtxoTxid) := by
  obtain ⟨full, replayed, rolledBack, diff, processed, replay, success, result⟩ :=
    valid.rollback whole shorter rollsBack
  have listings : rolledBack.listings = replayed.listings :=
    congrArg Ledger.listings result.ledger
  have log : rolledBack.toLogStore = replayed.toLogStore :=
    congrArg Ledger.toLogStore result.ledger
  refine ⟨full, replayed, rolledBack, diff, processed, replay, success, listings, ?_, ?_⟩
  · intro token listing found
    rw [listings] at found
    exact result.wf.listing_lt found
  · intro score common info reached logged
    rw [listings, log]
    exact result.restored reached logged

theorem reorg_listings_sale :
    ∃ full replayed rolledBack diff,
      processBatches Sample.kaspa Db.new [[Sample.deployBlock], [Sample.saleBlock]] =
        .ok full ∧
      processBatches Sample.kaspa Db.new [[Sample.deployBlock]] = .ok replayed ∧
      processRemoval Sample.kaspa full [102] none = .ok (rolledBack, diff) ∧
      rolledBack.listings = replayed.listings ∧
      (∀ token listing, rolledBack.listings.get token = some listing →
        listing.opScore <
          calculateTxScoreFromBlue Sample.kaspa Sample.saleBlock.blueScore) ∧
      ∀ score common info,
        calculateTxScoreFromBlue Sample.kaspa Sample.saleBlock.blueScore ≤ score →
        full.operationHistory.get score = some ⟨⟨common, .send info⟩, none⟩ →
          ((∃ listing, rolledBack.listings.get ⟨common.tick, info.tokenId⟩ = some listing ∧
              listing.listingTxId = info.listingUtxoTxid) ↔
            rolledBack.ListSurvives info.listingUtxoTxid) :=
  reorg_listings Sample.chain_valid rfl rfl
    Sample.saleBlock_rollsBack

namespace Sample

/-- Alice deploys with a preminted token, lists it, and a block of the same blue score follows. -/
def forkedChain : List Mergeset := [
  { operations := [⟨0, 0, operation 1 alice (.deploy ⟨.remote "ipfs", 3, alice, none, 0, 1⟩)⟩]
    entropy := 5
    blueScore := 1
    acceptedChainBlockHash := 101 },
  { operations := [⟨0, 0, operation 2 alice (.list ⟨1, listingAddress, [7]⟩)⟩]
    entropy := 6
    blueScore := 2
    acceptedChainBlockHash := 102 },
  { operations := []
    entropy := 7
    blueScore := 2
    acceptedChainBlockHash := 202 }]

end Sample

/-- All three mergesets are accepted, and the removal of the last one takes the listing of the
second one back. -/
theorem not_reorg_listings_forked : ∃ full replayed rolledBack diff,
    (∀ mergeset ∈ Sample.forkedChain, mergeset.Valid Sample.kaspa ∧
      (full.chainBlockScores.get
        ⟨mergeset.blueScore, mergeset.acceptedChainBlockHash⟩).isSome) ∧
    (Sample.forkedChain.flatMap fun mergeset =>
      mergeset.operations.map (·.operation.common.txId)).Nodup ∧
    processBatches Sample.kaspa Db.new [Sample.forkedChain] = .ok full ∧
    processBatches Sample.kaspa Db.new [Sample.forkedChain.take 2] = .ok replayed ∧
    processRemoval Sample.kaspa full [202] none = .ok (rolledBack, diff) ∧
    rolledBack.listings ≠ replayed.listings := by
  have evaluated : ((processBatches Sample.kaspa Db.new [Sample.forkedChain]).toOption.bind
      fun full => (processBatches Sample.kaspa Db.new [Sample.forkedChain.take 2]).toOption.bind
      fun replayed => (processRemoval Sample.kaspa full [202] none).toOption.map
      fun (rolledBack, _) =>
        (Sample.forkedChain.all fun mergeset => (full.chainBlockScores.get
          ⟨mergeset.blueScore, mergeset.acceptedChainBlockHash⟩).isSome,
        rolledBack.listings.entries.length, replayed.listings.entries.length)) =
      some (true, 0, 1) := by decide +kernel
  simp only [Option.bind_eq_some_iff, Option.map_eq_some_iff, toOption_eq_some_iff] at evaluated
  obtain ⟨full, processed, replayed, replay, ⟨rolledBack, diff⟩, removal, same⟩ := evaluated
  simp only [Prod.mk.injEq, List.all_eq_true] at same
  obtain ⟨stored, empty, one⟩ := same
  have valid : ∀ mergeset ∈ Sample.forkedChain, mergeset.Valid Sample.kaspa := by decide
  refine ⟨full, replayed, rolledBack, diff, fun mergeset member => ⟨valid mergeset member,
    stored mergeset member⟩, by decide, processed, replay, removal, fun equal => ?_⟩
  rw [equal, one] at empty
  cases empty

end Removal

end Krc721
