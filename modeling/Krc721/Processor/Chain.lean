import Krc721.Processor.Removal

/-! Notifications of the virtual chain: mergesets are added in order, and a notification
with removed blocks or a forced rollback first undoes the chain above them. -/

set_option autoImplicit false

namespace Krc721

open OrderedStore

/-- The operations of a mergeset whose transactions are not in the log, with their scores.
The index is read before any of them is processed. -/
def scoredOperations (kaspa : Kaspa) (db : Db) (mergeset : Mergeset) : List ContextOperation :=
  mergeset.operations.filterMap fun op =>
    match db.txIdToOpscore.get op.operation.common.txId with
    | some _ => none
    | none => some {
        txScore := calculateTxScore kaspa mergeset.blueScore op.blockIndexWithinMergeset
          op.indexWithinMergedBlock
        operation := op.operation
        mergesetEntropy := mergeset.entropy }

/-- The rows of an accepted chain block. -/
def ChainStore.accept (chain : ChainStore) (mergeset : Mergeset) : ChainStore where
  chainBlockScores := chain.chainBlockScores.insert
    ⟨mergeset.blueScore, mergeset.acceptedChainBlockHash⟩ ()
  blockhashToScore :=
    chain.blockhashToScore.insert mergeset.acceptedChainBlockHash mergeset.blueScore

/-- One turn of the loop in `process_additions`. -/
def processMergeset (kaspa : Kaspa) (lastAcceptedBlueScore : ℕ) (db : Db)
    (statsDiff : StatsDiffs) (mergeset : Mergeset) : Except Fault (Db × StatsDiffs) :=
  if mergeset.blueScore < lastAcceptedBlueScore then .ok (db, statsDiff)
  else
    let block : BlueScoredChainBlockHash :=
      ⟨mergeset.blueScore, mergeset.acceptedChainBlockHash⟩
    if (db.chainBlockScores.get block).isSome then .ok (db, statsDiff)
    else
      let db := { db with toChainStore := db.toChainStore.accept mergeset }
      match processNftOperations kaspa db 0 (scoredOperations kaspa db mergeset) with
      | .error fault => .error fault
      | .ok (db, diff) => .ok (db, statsDiff + diff)

def processMergesets (kaspa : Kaspa) (lastAcceptedBlueScore : ℕ) :
    Db → StatsDiffs → List Mergeset → Except Fault (Db × StatsDiffs)
  | db, statsDiff, [] => .ok (db, statsDiff)
  | db, statsDiff, mergeset :: mergesets =>
      match processMergeset kaspa lastAcceptedBlueScore db statsDiff mergeset with
      | .error fault => .error fault
      | .ok (db, statsDiff) => processMergesets kaspa lastAcceptedBlueScore db statsDiff mergesets

/-- `process_additions`. The tip is read once, before the loop. -/
def processAdditions (kaspa : Kaspa) (db : Db) (mergesets : List Mergeset) :
    Except Fault (Db × StatsDiffs) :=
  let lastAcceptedBlueScore := (db.lastAcceptedBlock.map (·.blueScore)).getD 0
  processMergesets kaspa lastAcceptedBlueScore db 0 mergesets

def Db.statsAddition (db : Db) (diffs : StatsDiffs) : Db :=
  { db with stats := some (db.stats.getD 0 + diffs) }

def Db.statsRemoval (db : Db) (diffs : StatsDiffs) : Db :=
  { db with stats := some (db.stats.getD 0 - diffs) }

/-- The first phase of `process_chain_changes_wtx`. -/
def removalPhase (kaspa : Kaspa) (db : Db) (vcc : VirtualChainChanges) : Except Fault Db :=
  if !vcc.removedChainBlockHashes.isEmpty || vcc.forcedRollbackBlueScore.isSome then
    match processRemoval kaspa db vcc.removedChainBlockHashes vcc.forcedRollbackBlueScore with
    | .error fault => .error fault
    | .ok (db, statsDiffs) => .ok (db.statsRemoval statsDiffs)
  else .ok db

/-- The second phase of `process_chain_changes_wtx`. -/
def additionPhase (kaspa : Kaspa) (db : Db) (vcc : VirtualChainChanges) : Except Fault Db :=
  if !vcc.mergesets.isEmpty then
    match processAdditions kaspa db vcc.mergesets with
    | .error fault => .error fault
    | .ok (db, statsDiffs) => .ok (db.statsAddition statsDiffs)
  else .ok db

def processChainChangesWtx (kaspa : Kaspa) (db : Db) (vcc : VirtualChainChanges) :
    Except Fault Db :=
  match removalPhase kaspa db vcc with
  | .error fault => .error fault
  | .ok db => additionPhase kaspa db vcc

/-- `process_chain_changes`: the transaction is committed only when it succeeds. -/
def processChainChanges (kaspa : Kaspa) (db : Db) (vcc : VirtualChainChanges) :
    Db × Except Fault Unit :=
  match processChainChangesWtx kaspa db vcc with
  | .error fault => (db, .error fault)
  | .ok committed => (committed, .ok ())

end Krc721
