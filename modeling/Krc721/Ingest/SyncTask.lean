import Krc721.Model.Keys
import Krc721.Model.Operation
import Krc721.Transition.Reach

/-! The flags of the syncer. The sync task reads the sink, clears the resync flag, hands over to the
realtime thread and then publishes that it is synced; a notification or a disconnect can come
between any two of these steps, and each takes its own steps. Nobody requests a shutdown here. -/

set_option autoImplicit false

namespace Krc721

inductive TargetProgress where
  | pending
  | reached
  | obsolete
deriving DecidableEq

def classifyTargetProgress (addedChainBlockHashes : List RpcHash)
    (lastAddedChainBlock : Option BlueScoredChainBlockHash) (target : BlueScoredChainBlockHash) :
    TargetProgress :=
  if target.blockHash ∈ addedChainBlockHashes then .reached
  else
    match lastAddedChainBlock with
    | some lastAdded => if target.blueScore ≤ lastAdded.blueScore then .obsolete else .pending
    | none => .pending

/-- What the node answers to `get_historical_data`, with the last added block resolved. -/
structure HistoricalData where
  removedChainBlockHashes : List RpcHash
  addedChainBlockHashes : List RpcHash
  lastAddedChainBlock : Option BlueScoredChainBlockHash

/-- The removed blocks, and `from` if the answer does not remove it although it is not behind the
sink. -/
def removedWithForced (source sink : BlueScoredChainBlockHash) (removed : List RpcHash) :
    List RpcHash :=
  if sink.blueScore ≤ source.blueScore ∧ source.blockHash ≠ sink.blockHash ∧
      source.blockHash ∉ removed then
    removed ++ [source.blockHash]
  else removed

/-- Where `sync_task` is. `sink` is its local variable, `source` its `from`, and `latest` the
`latest_sink` of `mark_synced_if_at_current_sink`. -/
inductive SyncTask where
  | idle
  | starting
  | looping (sink : BlueScoredChainBlockHash)
  | fetching (source sink : BlueScoredChainBlockHash)
  | applying (sink : BlueScoredChainBlockHash) (progress : TargetProgress)
      (lastAddedChainBlock : Option BlueScoredChainBlockHash)
  | refreshing (sink : BlueScoredChainBlockHash)
  | marking (sink : BlueScoredChainBlockHash)
  | comparing (sink latest : BlueScoredChainBlockHash)
  | retargeting (sink latest : BlueScoredChainBlockHash)
  | handingOver (sink latest : BlueScoredChainBlockHash)
  | publishing (latest : BlueScoredChainBlockHash)
  | untargeting
  | leaving

/-- Who asked for a switch to the queue. -/
inductive Origin where
  | notification
  | disconnection

/-- A handler of the syncer and where it is, or the rest of `release_sync_task`. -/
inductive Handler where
  | notified
  | flagging
  | switching (origin : Origin)
  | unsyncing (origin : Origin)
  | targeting
  | spawning
  | releasing

/-- An answer of the node or of the processor to the sync task. -/
inductive Reply where
  | none
  | sink (answer : Option BlueScoredChainBlockHash)
  | historical (answer : Option HistoricalData)
  | processed (answer : Except Unit (Option BlueScoredChainBlockHash))
  | queueApplied (answer : Except Unit Unit)

/-- The fields of the syncer, the sync task and the running handlers. `delivered` is the node's sink
as of the last delivered notification. -/
structure Syncer where
  lastKnownBlock : BlueScoredChainBlockHash
  target : Option BlueScoredChainBlockHash := none
  isSynced : Bool := false
  resyncRequested : Bool := false
  syncTaskRunning : Bool := true
  syncTask : SyncTask := .starting
  handlers : List Handler := []
  delivered : Option BlueScoredChainBlockHash := none

namespace Syncer

def currentSyncTargetOr (syncer : Syncer) (fallback : BlueScoredChainBlockHash) :
    BlueScoredChainBlockHash :=
  syncer.target.getD fallback

/-- `mark_synced_if_at_current_sink` has returned false. -/
def notSynced (syncer : Syncer) (sink : BlueScoredChainBlockHash) : Syncer :=
  { syncer with syncTask := .looping (syncer.currentSyncTargetOr sink) }

/-- The next step of `sync_task`, and of `release_sync_task` up to its store. -/
def syncStep (syncer : Syncer) : Reply → Option Syncer :=
  match syncer.syncTask with
  | .idle => fun _ => none
  | .starting => fun
      | .sink (some sink) => some { syncer with syncTask := .looping sink }
      | .sink none => some syncer
      | _ => none
  | .looping sink => fun
      | .none =>
          if syncer.lastKnownBlock = sink then some { syncer with syncTask := .marking sink }
          else some { syncer with syncTask := .fetching syncer.lastKnownBlock sink }
      | _ => none
  | .fetching source sink => fun
      | .historical none => some { syncer with syncTask := .looping sink }
      | .historical (some answer) =>
          let removed := removedWithForced source sink answer.removedChainBlockHashes
          if answer.lastAddedChainBlock = none ∧ removed = [] ∧ source ≠ sink then
            some { syncer with syncTask := .looping sink }
          else
            let target := syncer.target.getD sink
            let progress := classifyTargetProgress answer.addedChainBlockHashes
              answer.lastAddedChainBlock target
            some { syncer with
              target := some target
              syncTask := .applying sink progress answer.lastAddedChainBlock }
      | _ => none
  | .applying sink progress lastAddedChainBlock => fun
      | .processed (.error _) => some { syncer with syncTask := .looping sink }
      | .processed (.ok lastAcceptedBlock) =>
          match lastAddedChainBlock.or lastAcceptedBlock with
          | none => some { syncer with syncTask := .looping sink }
          | some block => some { syncer with
              lastKnownBlock := block
              syncTask :=
                match progress with
                | .obsolete => .refreshing sink
                | .reached => .marking sink
                | .pending => .looping sink }
      | _ => none
  | .refreshing sink => fun
      | .sink answer => some { syncer with
          target := some (answer.getD sink)
          syncTask := .looping (answer.getD sink) }
      | _ => none
  | .marking sink => fun
      | .sink none => some (syncer.notSynced sink)
      | .sink (some latest) => some { syncer with syncTask := .comparing sink latest }
      | _ => none
  | .comparing sink latest => fun
      | .none =>
          if syncer.lastKnownBlock = latest then
            some { syncer with
              resyncRequested := false
              syncTask := .handingOver sink latest }
          else
            some { syncer with
              resyncRequested := false
              syncTask := .retargeting sink latest }
      | _ => none
  | .retargeting sink latest => fun
      | .none => some ({ syncer with target := some latest }.notSynced sink)
      | _ => none
  | .handingOver sink latest => fun
      | .queueApplied (.error _) => some (syncer.notSynced sink)
      | .queueApplied (.ok _) => some { syncer with syncTask := .publishing latest }
      | _ => none
  | .publishing _ => fun
      | .none => some { syncer with
          isSynced := true
          syncTask := .untargeting }
      | _ => none
  | .untargeting => fun
      | .none => some { syncer with
          target := none
          syncTask := .leaving }
      | _ => none
  | .leaving => fun
      | .none => some { syncer with
          syncTaskRunning := false
          syncTask := .idle
          handlers := syncer.handlers ++ [.releasing] }
      | _ => none

/-- The next step of a handler, and the handler that is left to do. -/
def handlerStep (syncer : Syncer) : Handler → Syncer × Option Handler
  | .notified =>
      (syncer, some (if syncer.isSynced then .switching .notification else .flagging))
  | .flagging => ({ syncer with resyncRequested := true }, none)
  | .switching origin => (syncer, some (.unsyncing origin))
  | .unsyncing origin =>
      ({ syncer with isSynced := false }, some (
        match origin with
        | .notification => .spawning
        | .disconnection => .targeting))
  | .targeting => (syncer, if syncer.target.isNone then some .spawning else none)
  | .spawning =>
      if syncer.syncTaskRunning then (syncer, none)
      else ({ syncer with
        syncTaskRunning := true
        syncTask := .starting }, none)
  | .releasing => (syncer, if syncer.isSynced then none else some .spawning)

/-- A notification with the node's sink, a disconnect, or a step of a handler or of the task. -/
inductive Action where
  | virtualChainChanged (sink : BlueScoredChainBlockHash)
  | disconnected
  | handler (index : ℕ)
  | syncTask (reply : Reply)

def step (syncer : Syncer) : Action → Option Syncer
  | .virtualChainChanged sink => some { syncer with
      delivered := some sink
      handlers := syncer.handlers ++ [.notified] }
  | .disconnected => some { syncer with
      handlers := syncer.handlers ++ [.switching .disconnection] }
  | .handler index =>
      match syncer.handlers[index]? with
      | none => none
      | some handler =>
          let (next, left) := syncer.handlerStep handler
          some { next with
            handlers := syncer.handlers.take index ++ left.toList ++
              syncer.handlers.drop (index + 1) }
  | .syncTask reply => syncer.syncStep reply

end Syncer

end Krc721
