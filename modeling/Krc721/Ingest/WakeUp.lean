import Krc721.Ingest.SyncTask

/-! When a synced syncer is at the sink. The task decides on the sink that the node told it and
publishes later; a notification that is delivered in between only sets a flag, and nobody reads the
flag again. -/

set_option autoImplicit false

namespace Krc721

open Transition

namespace Syncer

/-- No sync task runs or is about to be spawned, and no notification is being handled. A task that
has just ended may still look whether it is synced. -/
def Quiet (syncer : Syncer) : Prop :=
  syncer.syncTask = .idle ∧ ∀ handler ∈ syncer.handlers, handler = .releasing

end Syncer

/-- The sink that `get_sink` answered, up to the store of `is_synced` that follows if it is
known. -/
def SyncTask.compared : SyncTask → Option BlueScoredChainBlockHash
  | .comparing _ latest | .handingOver _ latest | .publishing latest => some latest
  | _ => none

/-- The handler is on its way to clear `is_synced`, if it is still set. -/
def Handler.unsyncs : Handler → Bool
  | .notified | .switching _ | .unsyncing _ => true
  | _ => false

/-- With its next step the handler is done with `is_synced`. -/
def Handler.passes (isSynced : Bool) : Handler → Bool
  | .notified => !isSynced
  | .unsyncing _ => true
  | _ => false

namespace Syncer

/-- The answered sink is the last known block, and the last notification named another one. -/
def outrun (syncer : Syncer) (latest : BlueScoredChainBlockHash) : Bool :=
  decide (syncer.lastKnownBlock = latest) && syncer.delivered.any fun sink => sink ≠ latest

/-- The task was answered such a sink and has not stored `is_synced` since. -/
def overtaken (syncer : Syncer) : Bool := syncer.syncTask.compared.any syncer.outrun

end Syncer

/-- A syncer, and whether its task has missed a notification. -/
structure Watched where
  syncer : Syncer
  missed : Bool := false

namespace Watched

/-- The task misses the last notification when the node answers another sink, or when a handler is
done with `is_synced` too early, and no other handler is going to clear it. The next notification
or disconnect makes up for it. -/
def missedAfter (watched : Watched) : Syncer.Action → Bool
  | .virtualChainChanged _ | .disconnected => false
  | .handler index =>
      let syncer := watched.syncer
      watched.missed || syncer.overtaken &&
        syncer.handlers[index]?.any (Handler.passes syncer.isSynced) &&
          !(syncer.handlers.eraseIdx index).any Handler.unsyncs
  | .syncTask (.sink (some latest)) =>
      match watched.syncer.syncTask with
      | .marking _ => watched.syncer.outrun latest && !watched.syncer.handlers.any Handler.unsyncs
      | _ => watched.missed
  | .syncTask _ => watched.missed

def step (watched : Watched) (action : Syncer.Action) : Option Watched :=
  (watched.syncer.step action).map fun syncer => ⟨syncer, watched.missedAfter action⟩

/-- A synced task does not end with a missed notification. -/
def heeds (watched : Watched) : Syncer.Action → Bool
  | .syncTask .none =>
      match watched.syncer.syncTask with
      | .leaving => !(watched.syncer.isSynced && watched.missed)
      | _ => true
  | _ => true

end Watched

/-- The task has not published since it was spawned. -/
def SyncTask.working : SyncTask → Bool
  | .idle | .untargeting | .leaving => false
  | _ => true

/-- The task has published and not ended. -/
def SyncTask.ending : SyncTask → Bool
  | .untargeting | .leaving => true
  | _ => false

/-- The sink that the task has found equal to the last known block. -/
def SyncTask.agreed : SyncTask → Option BlueScoredChainBlockHash
  | .handingOver _ latest | .publishing latest => some latest
  | _ => none

namespace Syncer

variable {syncer syncer' : Syncer} {reply : Reply}

/-- The last known block is still the sink that the task compared it with. -/
def Agrees (syncer : Syncer) : Prop :=
  ∀ latest, syncer.syncTask.agreed = some latest → syncer.lastKnownBlock = latest

/-- Some handler is yet to clear `is_synced`, if it is set. -/
def Unsyncs (syncer : Syncer) : Prop := ∃ handler ∈ syncer.handlers, handler.unsyncs = true

end Syncer

namespace Watched

/-- A synced syncer is at the sink of the last notification, or this is being repaired, or the task
ends with a missed notification. -/
def Covered (watched : Watched) : Prop :=
  watched.syncer.isSynced = true → watched.syncer.Unsyncs ∨
    watched.syncer.syncTask.working = true ∨
    (watched.missed = true ∧ watched.syncer.syncTask.ending = true) ∨
    ∀ sink, watched.syncer.delivered = some sink → watched.syncer.lastKnownBlock = sink

/-- A notification that has overtaken the task will be noticed, or counts as missed. -/
def Noticed (watched : Watched) : Prop :=
  watched.syncer.overtaken = true → watched.syncer.Unsyncs ∨ watched.missed = true

end Watched

namespace Syncer

variable {syncer syncer' : Syncer} {reply : Reply}

/-! What a step of the task does. -/

inductive SyncMove (syncer : Syncer) : Reply → Syncer → Prop where
  | works {reply : Reply} {syncer' : Syncer} (working : syncer'.syncTask.working = true)
      (uncompared : syncer'.syncTask.compared = none) : SyncMove syncer reply syncer'
  | answered {sink : BlueScoredChainBlockHash} (latest : BlueScoredChainBlockHash)
      (task : syncer.syncTask = .marking sink) :
      SyncMove syncer (.sink (some latest)) { syncer with syncTask := .comparing sink latest }
  | agreed {sink latest : BlueScoredChainBlockHash}
      (task : syncer.syncTask = .comparing sink latest)
      (same : syncer.lastKnownBlock = latest) :
      SyncMove syncer .none { syncer with
        resyncRequested := false
        syncTask := .handingOver sink latest }
  | applied {reply : Reply} {sink latest : BlueScoredChainBlockHash}
      (task : syncer.syncTask = .handingOver sink latest) :
      SyncMove syncer reply { syncer with syncTask := .publishing latest }
  | published {latest : BlueScoredChainBlockHash} (task : syncer.syncTask = .publishing latest) :
      SyncMove syncer .none { syncer with
        isSynced := true
        syncTask := .untargeting }
  | untargeted (task : syncer.syncTask = .untargeting) :
      SyncMove syncer .none { syncer with
        target := none
        syncTask := .leaving }
  | left (task : syncer.syncTask = .leaving) :
      SyncMove syncer .none { syncer with
        syncTaskRunning := false
        syncTask := .idle
        handlers := syncer.handlers ++ [.releasing] }

namespace SyncMove

variable {source sink latest : BlueScoredChainBlockHash}

theorem of_starting (task : syncer.syncTask = .starting)
    (moved : syncer.syncStep reply = some syncer') : SyncMove syncer reply syncer' := by
  rw [syncStep, task] at moved
  cases reply with
  | sink answer =>
      cases answer with
      | none =>
          cases moved
          exact .works (by rw [task]; rfl) (by rw [task]; rfl)
      | some sink =>
          cases moved
          exact .works rfl rfl
  | _ => cases moved

theorem of_looping (task : syncer.syncTask = .looping sink)
    (moved : syncer.syncStep reply = some syncer') : SyncMove syncer reply syncer' := by
  rw [syncStep, task] at moved
  cases reply with
  | none =>
      simp only at moved
      split at moved <;> cases moved <;> exact .works rfl rfl
  | _ => cases moved

theorem of_fetching (task : syncer.syncTask = .fetching source sink)
    (moved : syncer.syncStep reply = some syncer') : SyncMove syncer reply syncer' := by
  rw [syncStep, task] at moved
  cases reply with
  | historical answer =>
      cases answer with
      | none =>
          cases moved
          exact .works rfl rfl
      | some answer =>
          simp only at moved
          split at moved <;> cases moved <;> exact .works rfl rfl
  | _ => cases moved

theorem of_applying {progress : TargetProgress} {lastAdded : Option BlueScoredChainBlockHash}
    (task : syncer.syncTask = .applying sink progress lastAdded)
    (moved : syncer.syncStep reply = some syncer') : SyncMove syncer reply syncer' := by
  rw [syncStep, task] at moved
  cases reply with
  | processed answer =>
      cases answer with
      | error fault =>
          cases moved
          exact .works rfl rfl
      | ok lastAccepted =>
          simp only at moved
          split at moved
          · cases moved
            exact .works rfl rfl
          · cases moved
            cases progress <;> exact .works rfl rfl
  | _ => cases moved

theorem of_refreshing (task : syncer.syncTask = .refreshing sink)
    (moved : syncer.syncStep reply = some syncer') : SyncMove syncer reply syncer' := by
  rw [syncStep, task] at moved
  cases reply with
  | sink answer =>
      cases moved
      exact .works rfl rfl
  | _ => cases moved

theorem of_marking (task : syncer.syncTask = .marking sink)
    (moved : syncer.syncStep reply = some syncer') : SyncMove syncer reply syncer' := by
  rw [syncStep, task] at moved
  cases reply with
  | sink answer =>
      cases answer with
      | none =>
          cases moved
          exact .works rfl rfl
      | some latest =>
          cases moved
          exact .answered latest task
  | _ => cases moved

theorem of_comparing (task : syncer.syncTask = .comparing sink latest)
    (moved : syncer.syncStep reply = some syncer') : SyncMove syncer reply syncer' := by
  rw [syncStep, task] at moved
  cases reply with
  | none =>
      simp only at moved
      split at moved
      · rename_i same
        cases moved
        exact .agreed task same
      · cases moved
        exact .works rfl rfl
  | _ => cases moved

theorem of_retargeting (task : syncer.syncTask = .retargeting sink latest)
    (moved : syncer.syncStep reply = some syncer') : SyncMove syncer reply syncer' := by
  rw [syncStep, task] at moved
  cases reply with
  | none =>
      cases moved
      exact .works rfl rfl
  | _ => cases moved

theorem of_handingOver (task : syncer.syncTask = .handingOver sink latest)
    (moved : syncer.syncStep reply = some syncer') : SyncMove syncer reply syncer' := by
  rw [syncStep, task] at moved
  cases reply with
  | queueApplied answer =>
      cases answer with
      | error fault =>
          cases moved
          exact .works rfl rfl
      | ok value =>
          cases moved
          exact .applied task
  | _ => cases moved

theorem of_publishing (task : syncer.syncTask = .publishing latest)
    (moved : syncer.syncStep reply = some syncer') : SyncMove syncer reply syncer' := by
  rw [syncStep, task] at moved
  cases reply with
  | none =>
      cases moved
      exact .published task
  | _ => cases moved

theorem of_syncStep (moved : syncer.syncStep reply = some syncer') :
    SyncMove syncer reply syncer' := by
  cases task : syncer.syncTask with
  | idle =>
      rw [syncStep, task] at moved
      cases moved
  | starting => exact of_starting task moved
  | looping sink => exact of_looping task moved
  | fetching source sink => exact of_fetching task moved
  | applying sink progress lastAdded => exact of_applying task moved
  | refreshing sink => exact of_refreshing task moved
  | marking sink => exact of_marking task moved
  | comparing sink latest => exact of_comparing task moved
  | retargeting sink latest => exact of_retargeting task moved
  | handingOver sink latest => exact of_handingOver task moved
  | publishing latest => exact of_publishing task moved
  | untargeting =>
      rw [syncStep, task] at moved
      cases reply with
      | none =>
          cases moved
          exact .untargeted task
      | _ => cases moved
  | leaving =>
      rw [syncStep, task] at moved
      cases reply with
      | none =>
          cases moved
          exact .left task
      | _ => cases moved

/-- No sink is agreed on that was not compared. -/
theorem agreed_eq_none {task : SyncTask} (uncompared : task.compared = none) :
    task.agreed = none := by
  cases task <;> first | rfl | cases uncompared

theorem agrees (move : SyncMove syncer reply syncer') (agrees : syncer.Agrees) :
    syncer'.Agrees := by
  cases move with
  | works working uncompared => simp [Agrees, agreed_eq_none uncompared]
  | agreed task same => simp [Agrees, SyncTask.agreed, same]
  | applied task =>
      have same := agrees _ (by rw [task]; rfl)
      simp [Agrees, SyncTask.agreed, same]
  | answered | published | untargeted | left => simp [Agrees, SyncTask.agreed]

variable {missed : Bool}

theorem missedAfter_eq (unmarking : ∀ sink, syncer.syncTask ≠ .marking sink) :
    Watched.missedAfter ⟨syncer, missed⟩ (.syncTask reply) = missed := by
  cases reply with
  | sink answer =>
      cases answer with
      | none => rfl
      | some latest =>
          simp only [Watched.missedAfter]
  | _ => rfl

theorem noticed (move : SyncMove syncer reply syncer')
    (noticed : Watched.Noticed ⟨syncer, missed⟩) :
    Watched.Noticed ⟨syncer', Watched.missedAfter ⟨syncer, missed⟩ (.syncTask reply)⟩ := by
  intro overtaken
  cases move with
  | works working uncompared => simp [Syncer.overtaken, uncompared] at overtaken
  | answered latest task =>
      change syncer.outrun latest = true at overtaken
      simp only [Watched.missedAfter, task, overtaken, Bool.true_and, Bool.not_eq_true',
        Unsyncs, ← List.any_eq_true]
      exact (Bool.eq_false_or_eq_true _)
  | agreed task | applied task =>
      rw [missedAfter_eq (by simp [task])]
      refine noticed ?_
      simp only [Syncer.overtaken, task]
      exact overtaken
  | published | untargeted | left => simp [Syncer.overtaken, SyncTask.compared] at overtaken

/-- The task publishes with a notification that has overtaken it still to be noticed. -/
theorem covered (move : SyncMove syncer reply syncer') (agrees : syncer.Agrees)
    (covered : Watched.Covered ⟨syncer, missed⟩) (noticed : Watched.Noticed ⟨syncer, missed⟩)
    (heeds : Watched.heeds ⟨syncer, missed⟩ (.syncTask reply) = true) :
    Watched.Covered ⟨syncer', Watched.missedAfter ⟨syncer, missed⟩ (.syncTask reply)⟩ := by
  intro isSynced
  cases move with
  | works working uncompared => exact .inr (.inl working)
  | answered | agreed | applied => exact .inr (.inl rfl)
  | published task =>
      rename_i latest
      have same := agrees latest (by rw [task]; rfl)
      by_cases overtaken : syncer.overtaken = true
      · cases noticed overtaken with
        | inl pending => exact .inl pending
        | inr missed => exact .inr (.inr (.inl ⟨missed, rfl⟩))
      · refine .inr (.inr (.inr fun sink delivered => ?_))
        change syncer.delivered = some sink at delivered
        simp only [Syncer.overtaken, task, SyncTask.compared, Option.any_some, outrun, same,
          delivered, decide_true, Bool.true_and, ne_eq, decide_not, Bool.not_eq_true,
          Bool.not_eq_false', decide_eq_true_eq] at overtaken
        exact same.trans overtaken.symm
  | untargeted task =>
      rcases covered isSynced with pending | working | ⟨missed, _⟩ | same
      · exact .inl pending
      · rw [task] at working
        cases working
      · exact .inr (.inr (.inl ⟨missed, rfl⟩))
      · exact .inr (.inr (.inr same))
  | left task =>
      rcases covered isSynced with ⟨handler, member, unsyncs⟩ | working | ⟨unheard, _⟩ | same
      · exact .inl ⟨handler, List.mem_append_left _ member, unsyncs⟩
      · rw [task] at working
        cases working
      · change syncer.isSynced = true at isSynced
        change missed = true at unheard
        simp [Watched.heeds, task, isSynced, unheard] at heeds
      · exact .inr (.inr (.inr same))

end SyncMove

/-! What a step of a handler does. -/

/-- A handler leaves the sync task alone, or spawns it. -/
theorem handlerStep_agrees (agrees : syncer.Agrees) (handler : Handler) :
    (syncer.handlerStep handler).1.Agrees := by
  cases handler with
  | spawning =>
      simp only [handlerStep]
      split
      · exact agrees
      · simp [Agrees, SyncTask.agreed]
  | _ => exact agrees

/-- Another handler that clears the flag is still there. -/
theorem unsyncs_of_others {before after left : List Handler} {handler : Handler}
    (other : handler.unsyncs = false)
    (pending : ∃ handler' ∈ before ++ handler :: after, handler'.unsyncs = true) :
    ∃ handler' ∈ before ++ left ++ after, handler'.unsyncs = true := by
  obtain ⟨handler', member, unsyncs⟩ := pending
  refine ⟨handler', ?_, unsyncs⟩
  simp only [List.mem_append, List.mem_cons] at member ⊢
  cases member with
  | inl earlier => exact .inl (.inl earlier)
  | inr rest =>
      cases rest with
      | inl same => simp [same, other] at unsyncs
      | inr later => exact .inr later

/-- What a handler that is not done with `is_synced` leaves is not done with it either. -/
theorem handlerStep_unsyncs {handler : Handler} (unsyncs : handler.unsyncs = true)
    (stays : handler.passes syncer.isSynced = false) :
    ∃ next ∈ (syncer.handlerStep handler).2, next.unsyncs = true := by
  cases handler with
  | notified =>
      simp only [Handler.passes, Bool.not_eq_false'] at stays
      exact ⟨.switching .notification, by simp [handlerStep, stays], rfl⟩
  | switching origin => exact ⟨.unsyncing origin, rfl, rfl⟩
  | unsyncing origin => cases stays
  | flagging | targeting | spawning | releasing => cases unsyncs

variable {missed : Bool}

/-- What a handler was going to repair is repaired or handed on. -/
theorem handlerStep_covered {before after : List Handler} {handler : Handler} {missed' : Bool}
    (handlers : syncer.handlers = before ++ handler :: after)
    (keeps : missed = true → missed' = true)
    (covered : Watched.Covered ⟨syncer, missed⟩) :
    Watched.Covered ⟨{ (syncer.handlerStep handler).1 with
      handlers := before ++ (syncer.handlerStep handler).2.toList ++ after }, missed'⟩ := by
  have others (other : handler.unsyncs = false) (left : List Handler)
      (isSynced : syncer.isSynced = true) :
      (∃ handler' ∈ before ++ left ++ after, handler'.unsyncs = true) ∨
        syncer.syncTask.working = true ∨
        (missed' = true ∧ syncer.syncTask.ending = true) ∨
        ∀ sink, syncer.delivered = some sink → syncer.lastKnownBlock = sink := by
    rcases covered isSynced with pending | working | ⟨missed, ending⟩ | same
    · rw [Unsyncs, handlers] at pending
      exact .inl (unsyncs_of_others other pending)
    · exact .inr (.inl working)
    · exact .inr (.inr (.inl ⟨keeps missed, ending⟩))
    · exact .inr (.inr (.inr same))
  intro isSynced
  cases handler with
  | notified =>
      simp only [handlerStep] at isSynced
      exact .inl ⟨.switching .notification, by simp [handlerStep, isSynced], rfl⟩
  | switching origin => exact .inl ⟨.unsyncing origin, by simp [handlerStep], rfl⟩
  | unsyncing origin => simp [handlerStep] at isSynced
  | flagging | targeting | releasing => exact others rfl _ isSynced
  | spawning =>
      simp only [handlerStep] at isSynced ⊢
      split
      · rename_i running
        simp only [running, if_true] at isSynced
        exact others rfl _ isSynced
      · exact .inr (.inl rfl)

/-- A handler does not overtake the task. -/
theorem handlerStep_overtaken {handler : Handler} {handlers : List Handler}
    (overtaken : overtaken { (syncer.handlerStep handler).1 with handlers } = true) :
    syncer.overtaken = true := by
  cases handler with
  | spawning =>
      simp only [handlerStep] at overtaken
      split at overtaken
      · exact overtaken
      · simp [Syncer.overtaken, SyncTask.compared] at overtaken
  | _ => exact overtaken

theorem handlerStep_noticed {index : ℕ} {handler : Handler}
    (found : syncer.handlers[index]? = some handler)
    (handlers : syncer.handlers =
      syncer.handlers.take index ++ handler :: syncer.handlers.drop (index + 1))
    (noticed : Watched.Noticed ⟨syncer, missed⟩) :
    Watched.Noticed ⟨{ (syncer.handlerStep handler).1 with
      handlers := syncer.handlers.take index ++ (syncer.handlerStep handler).2.toList ++
        syncer.handlers.drop (index + 1) },
      Watched.missedAfter ⟨syncer, missed⟩ (.handler index)⟩ := by
  intro overtaken
  have overtook := handlerStep_overtaken overtaken
  simp only [Watched.missedAfter, found, overtook, Bool.true_and, Option.any_some,
    Bool.or_eq_true, Bool.and_eq_true, Bool.not_eq_true', ← Bool.not_eq_true, List.any_eq_true,
    List.eraseIdx_eq_take_drop_succ]
  by_cases unheard : missed = true
  · exact .inr (.inl unheard)
  have pending := (noticed overtook).resolve_right unheard
  by_cases other : ∃ other ∈ syncer.handlers.take index ++ syncer.handlers.drop (index + 1),
      other.unsyncs = true
  · obtain ⟨other, member, unsyncs⟩ := other
    refine .inl ⟨other, ?_, unsyncs⟩
    simp only [List.mem_append] at member ⊢
    exact member.imp_left .inl
  cases passes : handler.passes syncer.isSynced with
  | true => exact .inr (.inr ⟨rfl, other⟩)
  | false =>
      cases unsyncs : handler.unsyncs with
      | true =>
          obtain ⟨next, left, unsyncs⟩ := handlerStep_unsyncs unsyncs passes
          have isLeft : next ∈ (syncer.handlerStep handler).2.toList := Option.mem_toList.2 left
          exact .inl ⟨next, by simp [isLeft], unsyncs⟩
      | false =>
          rw [Unsyncs, handlers] at pending
          exact .inl (unsyncs_of_others unsyncs pending)

end Syncer

/-! The run. -/

/-- A task that publishes is at the sink of the last notification, or will be told, or has missed
it. -/
structure WakesUp (watched : Watched) : Prop where
  agrees : watched.syncer.Agrees
  covered : watched.Covered
  noticed : watched.Noticed

theorem WakesUp.step {watched watched' : Watched} {action : Syncer.Action}
    (wakesUp : WakesUp watched) (heeds : watched.heeds action = true)
    (stepped : watched.step action = some watched') : WakesUp watched' := by
  obtain ⟨syncer, missed⟩ := watched
  obtain ⟨syncer', moved, rfl⟩ := Option.map_eq_some_iff.1 stepped
  cases action with
  | virtualChainChanged sink =>
      cases moved
      have told : Syncer.Unsyncs { syncer with
          delivered := some sink
          handlers := syncer.handlers ++ [.notified] } := ⟨.notified, by simp, rfl⟩
      exact ⟨wakesUp.agrees, fun _ => .inl told, fun _ => .inl told⟩
  | disconnected =>
      cases moved
      have told : Syncer.Unsyncs { syncer with
          handlers := syncer.handlers ++ [.switching .disconnection] } :=
        ⟨.switching .disconnection, by simp, rfl⟩
      exact ⟨wakesUp.agrees, fun _ => .inl told, fun _ => .inl told⟩
  | handler index =>
      simp only [Syncer.step] at moved
      split at moved
      · cases moved
      · rename_i handler found
        cases moved
        obtain ⟨within, isHandler⟩ := List.getElem?_eq_some_iff.mp found
        have handlers : syncer.handlers =
            syncer.handlers.take index ++ handler :: syncer.handlers.drop (index + 1) := by
          rw [← isHandler, List.getElem_cons_drop, List.take_append_drop]
        have keeps (unheard : missed = true) :
            Watched.missedAfter ⟨syncer, missed⟩ (.handler index) = true := by
          simp only [Watched.missedAfter, unheard, Bool.true_or]
        exact ⟨Syncer.handlerStep_agrees wakesUp.agrees handler,
          Syncer.handlerStep_covered handlers keeps wakesUp.covered,
          Syncer.handlerStep_noticed found handlers wakesUp.noticed⟩
  | syncTask reply =>
      have move := Syncer.SyncMove.of_syncStep moved
      exact ⟨move.agrees wakesUp.agrees,
        move.covered wakesUp.agrees wakesUp.covered wakesUp.noticed heeds,
        move.noticed wakesUp.noticed⟩

/-- In a run in which no synced task ends with a missed notification, a quiet and synced syncer is
at the last sink. -/
theorem Syncer.no_lost_wakeup {lastKnownBlock : BlueScoredChainBlockHash}
    {delivered : Option BlueScoredChainBlockHash} {resyncRequested : Bool} {watched : Watched}
    (run : Reach Watched.step (fun watched action => watched.heeds action = true)
      ⟨{ lastKnownBlock, delivered, resyncRequested }, false⟩ watched)
    (isSynced : watched.syncer.isSynced = true) (quiet : watched.syncer.Quiet) :
    ∀ sink, watched.syncer.delivered = some sink → watched.syncer.lastKnownBlock = sink := by
  have wakesUp : WakesUp watched := by
    apply run.invariant
    · exact ⟨by simp [Agrees, SyncTask.agreed], by simp [Watched.Covered],
        by simp [Watched.Noticed, overtaken, SyncTask.compared]⟩
    · intro watched action watched' wakesUp heeds moved
      exact wakesUp.step heeds moved
  rcases wakesUp.covered isSynced with ⟨handler, member, unsyncs⟩ | working | ⟨_, ending⟩ | same
  · rw [quiet.2 handler member] at unsyncs
    cases unsyncs
  · rw [quiet.1] at working
    cases working
  · rw [quiet.1] at ending
    cases ending
  · exact same

namespace Sample

def firstSink : BlueScoredChainBlockHash := ⟨1, 101⟩

def secondSink : BlueScoredChainBlockHash := ⟨2, 102⟩

/-- The task finds the sink known and hands over. -/
def handOver (sink : BlueScoredChainBlockHash) : List Syncer.Action :=
  [.syncTask (.sink (some sink)), .syncTask .none, .syncTask (.sink (some sink)), .syncTask .none]

/-- The task publishes and ends. -/
def publish : List Syncer.Action :=
  [.syncTask (.queueApplied (.ok ())), .syncTask .none, .syncTask .none, .syncTask .none,
    .handler 0]

/-- The node is ahead of its first notification when the task publishes. The second one comes
before the task ends, and its handler starts the next task. -/
def publishAhead : List Syncer.Action :=
  [.virtualChainChanged firstSink, .handler 0, .handler 0] ++ handOver secondSink ++
    [.syncTask (.queueApplied (.ok ())), .syncTask .none, .virtualChainChanged secondSink,
      .syncTask .none, .syncTask .none, .handler 1, .handler 0, .handler 0, .handler 0, .handler 0]

/-- The syncer when the task has ended and the handlers too. -/
def synced (lastKnownBlock delivered : BlueScoredChainBlockHash) (resyncRequested : Bool) :
    Syncer where
  lastKnownBlock
  isSynced := true
  resyncRequested
  syncTaskRunning := false
  syncTask := .idle
  delivered := some delivered

theorem synced_quiet (lastKnownBlock delivered : BlueScoredChainBlockHash)
    (resyncRequested : Bool) : (synced lastKnownBlock delivered resyncRequested).Quiet :=
  ⟨rfl, by simp [synced]⟩

end Sample

/-- The task misses the first notification, and the second one makes up for it. -/
theorem Syncer.no_lost_wakeup_handOver :
    runActions Watched.step Watched.heeds ⟨{ lastKnownBlock := Sample.secondSink }, false⟩
      (Sample.publishAhead ++ Sample.handOver Sample.secondSink ++ Sample.publish) =
        some ⟨Sample.synced Sample.secondSink Sample.secondSink false, false⟩ ∧
    ∀ sink, (Sample.synced Sample.secondSink Sample.secondSink false).delivered = some sink →
      (Sample.synced Sample.secondSink Sample.secondSink false).lastKnownBlock = sink := by
  have run : runActions Watched.step Watched.heeds
      ⟨{ lastKnownBlock := Sample.secondSink }, false⟩
      (Sample.publishAhead ++ Sample.handOver Sample.secondSink ++ Sample.publish) =
        some ⟨Sample.synced Sample.secondSink Sample.secondSink false, false⟩ := rfl
  exact ⟨run, Syncer.no_lost_wakeup (Reach.of_runActions run) rfl (Sample.synced_quiet _ _ _)⟩

/-- A notification during the hand-over only sets the resync flag, which the task has cleared. The
node answers the sink of the last notification. -/
theorem Syncer.handOver_lost_wakeup : ∃ syncer,
    Reach Syncer.step (fun _ _ => True)
      { lastKnownBlock := Sample.firstSink, delivered := some Sample.firstSink } syncer ∧
    syncer.isSynced = true ∧ syncer.Quiet ∧
    ¬∀ sink, syncer.delivered = some sink → syncer.lastKnownBlock = sink := by
  have run : runActions Syncer.step (fun _ _ => true)
      { lastKnownBlock := Sample.firstSink, delivered := some Sample.firstSink }
      (Sample.handOver Sample.firstSink ++
        .virtualChainChanged Sample.secondSink :: .handler 0 :: .handler 0 :: Sample.publish) =
          some (Sample.synced Sample.firstSink Sample.secondSink true) := rfl
  refine ⟨_, (Reach.of_runActions run).mono fun _ _ _ => trivial, rfl,
    Sample.synced_quiet _ _ _, ?_⟩
  intro atSink
  have same : Sample.firstSink = Sample.secondSink := atSink _ rfl
  exact absurd same (by decide)

end Krc721
