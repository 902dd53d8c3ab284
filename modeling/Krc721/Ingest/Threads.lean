import Krc721.Processor.Chain
import Krc721.Transition.Reach

/-! The two ingest threads of the processor and their channels. The historical thread takes the
requests of the sync task; the realtime thread queues or processes what comes meanwhile. Nobody
requests a shutdown here. -/

set_option autoImplicit false

namespace Krc721

open OrderedStore

/-! The queue of notifications in the database. -/

def processQueue (db : Db) (vcc : VirtualChainChanges) : Db :=
  let nextKey := wrappingAdd (db.notificationQueue.lastKey.getD 0) 1
  { db with notificationQueue := db.notificationQueue.insert nextKey vcc }

/-- The loop of `process_queue_application` over the keys of the queue. -/
def applyQueued (kaspa : Kaspa) : Db → List ℕ → Except Fault Db
  | db, [] => .ok db
  | db, key :: keys =>
      match db.notificationQueue.get key with
      | none => .error (.panic "called `Option::unwrap()` on a `None` value")
      | some vcc =>
          match processChainChangesWtx kaspa { db with
            notificationQueue := db.notificationQueue.erase key } vcc with
          | .error fault => .error fault
          | .ok db => applyQueued kaspa db keys

/-- `process_queue_application`: all queued notifications in one transaction. -/
def processQueueApplication (kaspa : Kaspa) (db : Db) : Db × Except Fault Unit :=
  let first := ((db.notificationQueue.firstWhere fun _ => true).map Prod.fst).getD 0
  let last := db.notificationQueue.lastKey.getD 0
  if first * last % 2 ^ 64 = 0 then (db, .ok ())
  else
    match applyQueued kaspa db (List.range' first (last + 1 - first)) with
    | .error fault => (db, .error fault)
    | .ok committed => (committed, .ok ())

/-! Messages and threads. -/

inductive RtNotification where
  | applyQueue
  | switchToQueue
  | virtualChainChanges (vcc : VirtualChainChanges)
deriving DecidableEq

/-- A historical message; `completion` says whether its sender waits for the result. -/
inductive HtNotification where
  | historical (vcc : VirtualChainChanges) (completion : Bool)
  | application (vcc : VirtualChainChanges)
deriving DecidableEq

/-- Where `htvccn_task` is: at the top of its loop, about to process what it received, about to ask
the realtime thread to apply the queue, waiting for that, sending a completion, or gone. -/
inductive HtState where
  | receiving (waitForSwitch : Bool)
  | processing (message : HtNotification)
  | processed
  | applying
  | completing (result : Except Fault Unit) (application : Bool)
  | returned

/-- Where `rtvccn_task` is: at the top of its loop, answering the historical thread, sending the
switch token, or gone. -/
inductive RtState where
  | receiving (realTimeModEnabled : Bool)
  | replying (result : Except Fault Unit)
  | switching
  | returned

def SWITCH_CAPACITY : ℕ := 1

/-- The threads, their channels and the database. `waiting` says that the sync task waits for the
completion of its request. -/
structure Ingest where
  db : Db
  historical : List HtNotification := []
  realtime : List RtNotification := []
  switches : ℕ := 0
  ht : HtState := .receiving false
  rt : RtState := .receiving false
  waiting : Bool := false

namespace Ingest

/-- The historical thread after a completion was sent or was not asked for. -/
def finish (state : Ingest) (result : Except Fault Unit) (application : Bool) : Ingest :=
  match result with
  | .ok () => { state with ht := .receiving application }
  | .error _ => { state with ht := .returned }

@[simp] theorem finish_historical (state : Ingest) (result : Except Fault Unit)
    (application : Bool) : (state.finish result application).historical = state.historical := by
  cases result <;> rfl

/-- A panic unwinds the historical thread and drops the completion sender it holds. -/
def unwind (state : Ingest) (completion : Bool) : Ingest :=
  { state with
    ht := .returned
    waiting := state.waiting && !completion }

/-- The next step of `htvccn_task`, if it is not blocked. -/
def htStep (kaspa : Kaspa) (state : Ingest) : Option Ingest :=
  match state.ht with
  | .receiving true =>
      if 0 < state.switches then
        some { state with
          switches := state.switches - 1
          ht := .receiving false }
      else none
  | .receiving false =>
      match state.historical with
      | [] => none
      | message :: rest => some { state with
          historical := rest
          ht := .processing message }
  | .processing (.historical vcc completion) =>
      let (db, result) := processChainChanges kaspa state.db vcc
      let state := { state with db }
      match result with
      | .error (.panic _) => some (state.unwind completion)
      | result =>
          if completion then some { state with ht := .completing result false }
          else some (state.finish result false)
  | .processing (.application vcc) =>
      let (db, result) := processChainChanges kaspa state.db vcc
      let state := { state with db }
      match result with
      | .error (.panic _) => some (state.unwind true)
      | .error fault => some { state with ht := .completing (.error fault) true }
      | .ok () => some { state with ht := .processed }
  | .processed => some { state with
      realtime := state.realtime ++ [.applyQueue]
      ht := .applying }
  | .applying =>
      -- the reply itself is the step of the realtime thread; here its sender was dropped
      match state.rt with
      | .returned =>
          if .applyQueue ∈ state.realtime then none
          else some { state with ht := .completing (.ok ()) true }
      | _ => none
  | .completing result application =>
      some ({ state with waiting := false }.finish result application)
  | .returned => none

/-- The realtime thread after a notification. -/
def afterRealtime (state : Ingest) (realTimeModEnabled : Bool) (result : Except Fault Unit) :
    Ingest :=
  match result with
  | .ok () => { state with rt := .receiving realTimeModEnabled }
  | .error _ => { state with rt := .returned }

@[simp] theorem afterRealtime_historical (state : Ingest) (realTimeModEnabled : Bool)
    (result : Except Fault Unit) :
    (state.afterRealtime realTimeModEnabled result).historical = state.historical := by
  cases result <;> rfl

@[simp] theorem afterRealtime_waiting (state : Ingest) (realTimeModEnabled : Bool)
    (result : Except Fault Unit) :
    (state.afterRealtime realTimeModEnabled result).waiting = state.waiting := by
  cases result <;> rfl

@[simp] theorem afterRealtime_ht (state : Ingest) (realTimeModEnabled : Bool)
    (result : Except Fault Unit) :
    (state.afterRealtime realTimeModEnabled result).ht = state.ht := by
  cases result <;> rfl

/-- The next step of `rtvccn_task`, if it is not blocked. -/
def rtStep (kaspa : Kaspa) (state : Ingest) : Option Ingest :=
  match state.rt with
  | .receiving realTimeModEnabled =>
      match state.realtime with
      | [] => none
      | .applyQueue :: rest =>
          let (db, result) := processQueueApplication kaspa state.db
          let state := { state with
            db
            realtime := rest }
          match result with
          | .error (.panic _) => some { state with rt := .returned }
          | result => some { state with rt := .replying result }
      | .switchToQueue :: rest => some { state with
          realtime := rest
          rt := .switching }
      | .virtualChainChanges vcc :: rest =>
          let (db, result) :=
            if realTimeModEnabled then processChainChanges kaspa state.db vcc
            else (processQueue state.db vcc, .ok ())
          some ({ state with
            db
            realtime := rest }.afterRealtime realTimeModEnabled result)
  | .replying result =>
      let state :=
        match state.ht with
        | .applying => { state with ht := .completing (.ok ()) true }
        | _ => state
      some (state.afterRealtime true result)
  | .switching =>
      if state.switches < SWITCH_CAPACITY then
        some { state with
          switches := state.switches + 1
          rt := .receiving false }
      else none
  | .returned => none

/-- A step of a thread, or a message of the syncer. The sync task sends its next request when it
has the completion of the last one. -/
inductive Action where
  | ht
  | rt
  | switchToQueue
  | realtime (vcc : VirtualChainChanges)
  | historicalAndWait (vcc : VirtualChainChanges)
  | historicalAndApplyQueue (vcc : VirtualChainChanges)

def step (kaspa : Kaspa) (state : Ingest) : Action → Option Ingest
  | .ht => state.htStep kaspa
  | .rt => state.rtStep kaspa
  | .switchToQueue => some { state with realtime := state.realtime ++ [.switchToQueue] }
  | .realtime vcc => some { state with realtime := state.realtime ++ [.virtualChainChanges vcc] }
  | .historicalAndWait vcc =>
      if state.waiting then none
      else some { state with
        historical := state.historical ++ [.historical vcc true]
        waiting := true }
  | .historicalAndApplyQueue vcc =>
      if state.waiting then none
      else some { state with
        historical := state.historical ++ [.application vcc]
        waiting := true }

/-- The threads have just been spawned over a database. -/
def start (db : Db) : Ingest := { db }

end Ingest

end Krc721
