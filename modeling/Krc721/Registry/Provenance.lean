import Krc721.Accessor.Walks
import Krc721.Registry.Simulation

/-! The provenance of a token: the rows of its ownership history are the accepted operations of
the log that gave it an owner, each of them an act of the owner before, and they are what a
client reads page by page. -/

set_option autoImplicit false

namespace Krc721

open OrderedStore SymbolStream TokenRegistry

/-- The accepted operations of a part of the log. -/
def acceptedEvents (kaspa : Kaspa) (entries : List (ℕ × CheckedOperation)) :
    List (Event Tick ScriptPublicKey TransactionId) :=
  entries.filterMap fun entry =>
    if entry.2.error.isNone then some (entry.2.operation.event kaspa) else none

/-- The new owner that a logged operation gave a token. -/
def CheckedOperation.gives (kaspa : Kaspa) (token : Tick × ℕ) (checked : CheckedOperation) :
    Option ScriptPublicKey :=
  if checked.error.isNone then (checked.operation.event kaspa).gives token else none

namespace OwnershipStore

variable {store : OwnershipStore} {tick : Tick} {score seq : ℕ} {toSpk : ScriptPublicKey}

theorem history_insert_get (history : Partition OwnershipHistoryKey ScriptPublicKey)
    (tokenId : ℕ) (key : OwnershipHistoryKey) :
    (history.insert (.withScore tick tokenId score) toSpk).get key =
      (if key.reversedScore = u64Max - score then
        if (key.tick, key.tokenId) = (tick, tokenId) then some toSpk else none
      else none).or (history.get key) := by
  obtain ⟨keyTick, keyId, reversed⟩ := key
  rw [Partition.get_insert]
  by_cases same : OwnershipHistoryKey.withScore tick tokenId score = ⟨keyTick, keyId, reversed⟩
  · rw [if_pos same]
    injection same with sameTick sameId sameScore
    rw [if_pos sameScore.symm, if_pos (by rw [sameTick, sameId])]
    rfl
  · rw [if_neg same]
    by_cases sameScore : reversed = u64Max - score
    · rw [if_pos sameScore, if_neg, Option.none_or]
      intro sameToken
      rw [Prod.mk.injEq] at sameToken
      obtain ⟨rfl, rfl⟩ := sameToken
      exact same (by rw [OwnershipHistoryKey.withScore, sameScore])
    · rw [if_neg sameScore, Option.none_or]

/-- The premints write one row for each of the numbers after the first `seq`. -/
theorem history_premints (count : ℕ) (key : OwnershipHistoryKey) :
    (store.premints tick score toSpk seq count).ownershipHistory.get key =
      (if key.reversedScore = u64Max - score then
        if key.tick = tick ∧ seq + 1 ≤ key.tokenId ∧ key.tokenId ≤ seq + count then some toSpk
        else none
      else none).or (store.ownershipHistory.get key) := by
  induction count generalizing store seq with
  | zero =>
      have outside : ¬ (key.tick = tick ∧ seq + 1 ≤ key.tokenId ∧ key.tokenId ≤ seq + 0) := by
        omega
      rw [premints, if_neg outside, ite_self, Option.none_or]
  | succ count ih =>
      rw [premints, ih, recordMint, history_insert_get, ← Option.or_assoc]
      congr 1
      by_cases sameScore : key.reversedScore = u64Max - score
      · simp only [if_pos sameScore, Prod.mk.injEq]
        by_cases later : key.tick = tick ∧ seq + 1 + 1 ≤ key.tokenId ∧
            key.tokenId ≤ seq + 1 + count
        · have within : key.tick = tick ∧ seq + 1 ≤ key.tokenId ∧ key.tokenId ≤ seq + (count + 1) :=
            ⟨later.1, by omega, by omega⟩
          rw [if_pos later, if_pos within, Option.some_or]
        · rw [if_neg later, Option.none_or]
          apply if_congr _ rfl rfl
          constructor
          · intro first
            exact ⟨first.1, by omega, by omega⟩
          · intro within
            refine ⟨within.1, ?_⟩
            by_contra different
            exact later ⟨within.1, by omega, by omega⟩
      · simp only [if_neg sameScore, Option.none_or]

end OwnershipStore

section Rows

variable {kaspa : Kaspa} {db db' : Db} {context : ContextOperation} {checked : CheckedOperation}
variable {bound : ℕ} {ledger : Ledger}

/-- An accepted operation writes a row for each token that its event gives an owner. -/
theorem Applied.history (applied : Applied kaspa db context db' checked)
    (key : OwnershipHistoryKey) :
    db'.ownershipHistory.get key =
      (if key.reversedScore = u64Max - context.txScore then
        checked.gives kaspa (key.tick, key.tokenId)
      else none).or (db.ownershipHistory.get key) := by
  unfold CheckedOperation.gives
  cases applied with
  | rejected error => simp
  | deployed info kind free =>
      rw [Operation.event, kind, Option.isNone_none, if_pos rfl]
      have rows := @OwnershipStore.history_premints db.toOwnershipStore
        context.operation.common.tick context.txScore 0 info.deployer info.premint key
      simp only [Nat.zero_add] at rows
      exact rows
  | minted info entry ids tokenId ranges kind found mint supply =>
      rw [Operation.event, Option.isNone_none, if_pos rfl]
      exact OwnershipStore.history_insert_get _ _ key
  | transferred info current kind owned bySender unlisted =>
      rw [Operation.event, kind, Option.isNone_none, if_pos rfl]
      exact OwnershipStore.history_insert_get _ _ key
  | discounted info entry kind found byDeployer lower =>
      rw [Operation.event, kind, Event.gives, ite_self, ite_self, Option.none_or]
  | listed info current kind owned bySender unlisted locked =>
      rw [Operation.event, kind, Event.gives, ite_self, ite_self, Option.none_or]
      rfl
  | sold info listing buyer kind found spends toBuyer =>
      rw [Operation.event, kind, Option.isNone_none, if_pos rfl, Event.gives, toBuyer]
      exact OwnershipStore.history_insert_get _ _ key
  | cancelled info listing kind found spends noBuyer =>
      rw [Operation.event, kind, Event.gives, noBuyer, ite_self, ite_self, ite_self, Option.none_or]
      rfl

/-- The rows of the history are the logged operations that gave a token an owner. -/
theorem Replay.history_iff (replay : Replay kaspa bound ledger) {key : OwnershipHistoryKey}
    {owner : ScriptPublicKey} :
    ledger.ownershipHistory.get key = some owner ↔
      ∃ score checked, key.reversedScore = u64Max - score ∧ score ≤ u64Max ∧
        ledger.operationHistory.get score = some checked ∧
        checked.gives kaspa (key.tick, key.tokenId) = some owner := by
  induction replay with
  | empty => simp
  | @step bound db db' context checked earlier reached le sound fresh applied ih =>
      have rows := applied.history key
      have wf := earlier.wf
      have newer (score : ℕ) (logged : (db.operationHistory.get score).isSome) :
          score < context.txScore := by
        obtain ⟨row, found⟩ := Option.isSome_iff_exists.1 logged
        exact (wf.log.under score row found).trans_le reached
      have log : (db'.recordOperation context.txScore checked).operationHistory =
          db.operationHistory.insert context.txScore checked := by
        rw [Db.recordOperation, congrArg LogStore.operationHistory applied.frame.1]
      change db'.ownershipHistory.get key = some owner ↔ ∃ score found, _ ∧ _ ∧
        (db'.recordOperation context.txScore checked).operationHistory.get score = some found ∧ _
      rw [rows, log]
      by_cases current : key.reversedScore = u64Max - context.txScore
      · have unwritten : db.ownershipHistory.get key = none := by
          rw [← Option.not_isSome_iff_eq_none]
          intro present
          exact (wf.owned.older reached present).2 le current
        rw [if_pos current, unwritten, Option.or_none]
        constructor
        · intro given
          exact ⟨_, checked, current, le, Partition.get_insert_self _ _ _, given⟩
        · intro logged
          obtain ⟨score, found, reversed, scoreLe, logged, given⟩ := logged
          obtain rfl : score = context.txScore := by omega
          rw [Partition.get_insert_self, Option.some_inj] at logged
          rwa [logged]
      · rw [if_neg current, Option.none_or]
        refine ih.trans ⟨fun logged => ?_, fun logged => ?_⟩
        · obtain ⟨score, found, reversed, scoreLe, logged, given⟩ := logged
          have older := newer score (by rw [logged]; rfl)
          exact ⟨score, found, reversed, scoreLe,
            (Partition.get_insert_of_ne _ _ older.ne').trans logged, given⟩
        · obtain ⟨score, found, reversed, scoreLe, logged, given⟩ := logged
          rw [Partition.get_insert_of_ne] at logged
          · exact ⟨score, found, reversed, scoreLe, logged, given⟩
          · intro same
            exact current (by rw [reversed, same])

end Rows

/-! What clients read. -/

/-- Every row of the ownership history is an accepted operation of the log that hands the token
over: it issues a token that nobody owns, it is the transfer of the owner before, or it settles
an offer that the owner before opened. -/
theorem StandardRun.custody {kaspa : Kaspa} {db : Db} (run : StandardRun kaspa db)
    {key : OwnershipHistoryKey} {owner : ScriptPublicKey}
    (row : db.ownershipHistory.get key = some owner) :
    ∃ before score checked after,
      db.operationHistory.entries = before ++ (score, checked) :: after ∧
      key.reversedScore = u64Max - score ∧ checked.error = none ∧
      (checked.operation.event kaspa).gives (key.tick, key.tokenId) = some owner ∧
      HandsOver (acceptedEvents kaspa before) (key.tick, key.tokenId)
        (checked.operation.event kaspa) := by
  obtain ⟨bound, executed⟩ := GivenRun.executed run
  obtain ⟨score, checked, reversed, _, logged, gave⟩ := executed.replay.history_iff.1 row
  obtain ⟨before, after, split⟩ := List.append_of_mem (Partition.mem_entries.2 logged)
  unfold CheckedOperation.gives at gave
  split at gave
  · rename_i accepted
    have events : db.toLogStore.events kaspa = acceptedEvents kaspa before ++
        checked.operation.event kaspa :: acceptedEvents kaspa after := by
      rw [LogStore.events, split, List.filterMap_append, List.filterMap_cons, if_pos accepted]
      rfl
    refine ⟨before, score, checked, after, split, reversed, Option.isNone_iff_eq_none.1 accepted,
      gave, ?_⟩
    exact executed.history.handsOver events (Option.isSome_of_eq_some gave)
  · cases gave

namespace Sample

theorem sold_standard : StandardRun kaspa sold := by
  obtain ⟨diff, success⟩ := processAdditions_added .new chain_admissible
  apply UnforkedRun.added .new chain_admissible _ success
  simp only [deployBlock, saleBlock, operation, List.forall_mem_cons, List.not_mem_nil,
    false_implies, implies_true, and_true]
  exact ⟨⟨.deploy (by decide), .of_trade trivial⟩, .of_trade trivial,
    .mint (.pubKey _ List.length_replicate)⟩

theorem sold_row : sold.ownershipHistory.get (.withScore tick 1 4000) = some bob := by
  decide +kernel

end Sample

theorem StandardRun.custody_sold : ∃ before score checked after,
    Sample.sold.operationHistory.entries = before ++ (score, checked) :: after ∧
      u64Max - 4000 = u64Max - score ∧ checked.error = none ∧
      (checked.operation.event Sample.kaspa).gives (Sample.tick, 1) = some Sample.bob ∧
      HandsOver (acceptedEvents Sample.kaspa before) (Sample.tick, 1)
        (checked.operation.event Sample.kaspa) :=
  StandardRun.custody Sample.sold_standard Sample.sold_row

end Krc721
