import Krc721.Ingest.Threads
import Krc721.Processor.Reorg

/-! When the two ingest threads cannot block each other. A switch token that nobody waits for stays
behind; with a second one the realtime thread stands before the full switch channel and never comes
to the queue that the historical thread asked it to apply. -/

set_option autoImplicit false

namespace Krc721

open Transition

/-- The chain changes of a historical message. -/
def HtNotification.vcc : HtNotification → VirtualChainChanges
  | .historical vcc _ => vcc
  | .application vcc => vcc

/-- The sender of the message waits for its completion. -/
def HtNotification.answered : HtNotification → Bool
  | .historical _ completion => completion
  | .application _ => true

/-- The tokens that the realtime thread is about to send. -/
def RtState.sending : RtState → ℕ
  | .switching => 1
  | _ => 0

/-- The realtime thread has not stopped and is not about to. -/
structure RtState.Alive (rt : RtState) : Prop where
  running : rt ≠ .returned
  healthy : ∀ fault, rt ≠ .replying (.error fault)

/-- The switch messages of a queue. -/
def queuedSwitches (queue : List RtNotification) : ℕ :=
  queue.countP fun
    | .switchToQueue => true
    | _ => false

@[simp] theorem queuedSwitches_nil : queuedSwitches [] = 0 := rfl

@[simp] theorem queuedSwitches_switchToQueue (queue : List RtNotification) :
    queuedSwitches (.switchToQueue :: queue) = queuedSwitches queue + 1 := by
  simp [queuedSwitches]

@[simp] theorem queuedSwitches_applyQueue (queue : List RtNotification) :
    queuedSwitches (.applyQueue :: queue) = queuedSwitches queue := by
  simp [queuedSwitches]

@[simp] theorem queuedSwitches_virtualChainChanges (vcc : VirtualChainChanges)
    (queue : List RtNotification) :
    queuedSwitches (.virtualChainChanges vcc :: queue) = queuedSwitches queue := by
  simp [queuedSwitches]

@[simp] theorem queuedSwitches_append (queue rest : List RtNotification) :
    queuedSwitches (queue ++ rest) = queuedSwitches queue + queuedSwitches rest := by
  simp [queuedSwitches, List.countP_append]

namespace Ingest

/-- The switches on their way to the historical thread: asked for, being sent, or in the channel. -/
def pendingSwitches (state : Ingest) : ℕ :=
  queuedSwitches state.realtime + state.rt.sending + state.switches

/-- The database processing that the action starts, if any, does not fail. -/
def succeeds (kaspa : Kaspa) (state : Ingest) : Action → Bool
  | .ht =>
      match state.ht with
      | .processing message => (processChainChanges kaspa state.db message.vcc).2.isOk
      | _ => true
  | .rt =>
      match state.rt, state.realtime with
      | .receiving _, .applyQueue :: _ => (processQueueApplication kaspa state.db).2.isOk
      | .receiving true, .virtualChainChanges vcc :: _ =>
          (processChainChanges kaspa state.db vcc).2.isOk
      | _, _ => true
  | _ => true

/-- No more than one switch is pending when the historical thread asks for the queue to be applied,
and one is when a request is sent while the historical thread waits for it. -/
def balanced (state : Ingest) : Action → Bool
  | .ht =>
      match state.ht with
      | .processed => state.pendingSwitches ≤ 1
      | _ => true
  | .historicalAndWait _ | .historicalAndApplyQueue _ =>
      match state.ht with
      | .receiving true => 0 < state.pendingSwitches
      | _ => true
  | _ => true

/-- The sync task waits for a completion and no thread can take a step. -/
def Blocked (kaspa : Kaspa) (state : Ingest) : Prop :=
  state.waiting = true ∧ (state.htStep kaspa).isNone ∧ (state.rtStep kaspa).isNone

/-! What the steps keep. -/

/-- The realtime thread will come to the queue and answer: no second token is ahead of it. -/
inductive WillApply (state : Ingest) : Prop where
  | replying {result : Except Fault Unit} (rt : state.rt = .replying result)
  | queued {ahead behind : List RtNotification}
      (realtime : state.realtime = ahead ++ .applyQueue :: behind)
      (room : queuedSwitches ahead + state.rt.sending + state.switches ≤ SWITCH_CAPACITY)

/-- Where the request of the sync task stands. -/
inductive Served (state : Ingest) : Prop where
  | idle {waitForSwitch : Bool} (ht : state.ht = .receiving waitForSwitch)
      (historical : state.historical = []) (waiting : state.waiting = false)
  | requested {waitForSwitch : Bool} {message : HtNotification}
      (ht : state.ht = .receiving waitForSwitch) (historical : state.historical = [message])
      (waiting : state.waiting = true) (answered : message.answered = true)
      (comes : waitForSwitch = true → 0 < state.pendingSwitches)
  | processing {message : HtNotification} (ht : state.ht = .processing message)
      (historical : state.historical = []) (waiting : state.waiting = true)
      (answered : message.answered = true)
  | processed (ht : state.ht = .processed) (historical : state.historical = [])
      (waiting : state.waiting = true)
  | applying (ht : state.ht = .applying) (historical : state.historical = [])
      (waiting : state.waiting = true) (applies : state.WillApply)
  | completing {application : Bool} (ht : state.ht = .completing (.ok ()) application)
      (historical : state.historical = []) (waiting : state.waiting = true)

/-- The steps of the historical thread when its processing succeeds. -/
inductive HtMove (state : Ingest) : Ingest → Prop where
  | switched (ht : state.ht = .receiving true) (token : 0 < state.switches) :
      HtMove state { state with
        switches := state.switches - 1
        ht := .receiving false }
  | received {message : HtNotification} {rest : List HtNotification}
      (ht : state.ht = .receiving false) (historical : state.historical = message :: rest) :
      HtMove state { state with
        historical := rest
        ht := .processing message }
  | answered {vcc : VirtualChainChanges} (db : Db)
      (ht : state.ht = .processing (.historical vcc true)) :
      HtMove state { state with
        db
        ht := .completing (.ok ()) false }
  | unanswered {vcc : VirtualChainChanges} (db : Db)
      (ht : state.ht = .processing (.historical vcc false)) :
      HtMove state { state with
        db
        ht := .receiving false }
  | processed {vcc : VirtualChainChanges} (db : Db)
      (ht : state.ht = .processing (.application vcc)) :
      HtMove state { state with
        db
        ht := .processed }
  | asked (ht : state.ht = .processed) :
      HtMove state { state with
        realtime := state.realtime ++ [.applyQueue]
        ht := .applying }
  | completed {application : Bool} (ht : state.ht = .completing (.ok ()) application) :
      HtMove state { state with
        waiting := false
        ht := .receiving application }

/-- The steps of the realtime thread when its processing succeeds. -/
inductive RtMove (state : Ingest) : Ingest → Prop where
  | applied {mode : Bool} {rest : List RtNotification} (db : Db) (rt : state.rt = .receiving mode)
      (realtime : state.realtime = .applyQueue :: rest) :
      RtMove state { state with
        db
        realtime := rest
        rt := .replying (.ok ()) }
  | leaving {mode : Bool} {rest : List RtNotification} (rt : state.rt = .receiving mode)
      (realtime : state.realtime = .switchToQueue :: rest) :
      RtMove state { state with
        realtime := rest
        rt := .switching }
  | processed {mode : Bool} {vcc : VirtualChainChanges} {rest : List RtNotification} (db : Db)
      (rt : state.rt = .receiving mode)
      (realtime : state.realtime = .virtualChainChanges vcc :: rest) :
      RtMove state { state with
        db
        realtime := rest
        rt := .receiving mode }
  | answered {result : Except Fault Unit} (rt : state.rt = .replying result)
      (ht : state.ht = .applying) :
      RtMove state { state with
        ht := .completing (.ok ()) true
        rt := .receiving true }
  | unheard {result : Except Fault Unit} (rt : state.rt = .replying result)
      (ht : state.ht ≠ .applying) :
      RtMove state { state with rt := .receiving true }
  | switched (rt : state.rt = .switching) (room : state.switches < SWITCH_CAPACITY) :
      RtMove state { state with
        switches := state.switches + 1
        rt := .receiving false }

variable {kaspa : Kaspa} {state state' : Ingest}

theorem isOk_iff {α : Type} {result : Except Fault α} :
    result.isOk = true ↔ ∃ value, result = .ok value := by
  cases result <;> simp [Except.isOk, Except.toBool]

theorem rtMove (alive : state.rt.Alive) (succeeds : state.succeeds kaspa .rt = true)
    (moved : state.rtStep kaspa = some state') : RtMove state state' := by
  unfold rtStep at moved
  cases rt : state.rt with
  | receiving mode =>
      cases realtime : state.realtime with
      | nil => simp [rt, realtime] at moved
      | cons message rest =>
          cases message with
          | applyQueue =>
              simp only [Ingest.succeeds, rt, realtime, isOk_iff] at succeeds
              obtain ⟨value, result⟩ := succeeds
              simp only [rt, realtime, result, Option.some.injEq] at moved
              subst moved
              exact .applied _ rt realtime
          | switchToQueue =>
              simp only [rt, realtime, Option.some.injEq] at moved
              subst moved
              exact .leaving rt realtime
          | virtualChainChanges vcc =>
              cases mode with
              | false =>
                  simp only [rt, realtime, afterRealtime, Bool.false_eq_true, if_false,
                    Option.some.injEq] at moved
                  subst moved
                  exact .processed _ rt realtime
              | true =>
                  simp only [Ingest.succeeds, rt, realtime, isOk_iff] at succeeds
                  obtain ⟨value, result⟩ := succeeds
                  simp only [rt, realtime, if_true, result, afterRealtime,
                    Option.some.injEq] at moved
                  subst moved
                  exact .processed _ rt realtime
  | replying result =>
      cases result with
      | error fault => exact absurd rt (alive.healthy fault)
      | ok value =>
          cases ht : state.ht with
          | applying =>
              simp only [rt, ht, afterRealtime, Option.some.injEq] at moved
              subst moved
              exact .answered rt ht
          | _ =>
              simp only [rt, ht, afterRealtime, Option.some.injEq] at moved
              subst moved
              exact ht ▸ .unheard rt (by simp [ht])
  | switching =>
      simp only [rt] at moved
      split at moved
      · rename_i room
        simp only [Option.some.injEq] at moved
        subst moved
        exact .switched rt room
      · cases moved
  | returned => exact absurd rt alive.running

theorem Served.htMove (served : state.Served) (alive : state.rt.Alive)
    (succeeds : state.succeeds kaspa .ht = true) (moved : state.htStep kaspa = some state') :
    HtMove state state' := by
  unfold htStep at moved
  cases ht : state.ht with
  | receiving waitForSwitch =>
      cases waitForSwitch with
      | true =>
          simp only [ht] at moved
          split at moved
          · rename_i token
            simp only [Option.some.injEq] at moved
            subst moved
            exact .switched ht token
          · cases moved
      | false =>
          cases historical : state.historical with
          | nil => simp [ht, historical] at moved
          | cons message rest =>
              simp only [ht, historical, Option.some.injEq] at moved
              subst moved
              exact .received ht historical
  | processing message =>
      simp only [Ingest.succeeds, ht, isOk_iff] at succeeds
      obtain ⟨value, result⟩ := succeeds
      cases message with
      | historical vcc completion =>
          simp only [HtNotification.vcc] at result
          cases completion with
          | true =>
              simp only [ht, result, if_true, Option.some.injEq] at moved
              subst moved
              exact .answered _ ht
          | false =>
              simp only [ht, result, Bool.false_eq_true, if_false, finish,
                Option.some.injEq] at moved
              subst moved
              exact .unanswered _ ht
      | application vcc =>
          simp only [HtNotification.vcc] at result
          simp only [ht, result, Option.some.injEq] at moved
          subst moved
          exact .processed _ ht
  | processed =>
      simp only [ht, Option.some.injEq] at moved
      subst moved
      exact .asked ht
  | applying =>
      cases rt : state.rt with
      | returned => exact absurd rt alive.running
      | _ => simp [ht, rt] at moved
  | completing result application =>
      cases served with
      | completing completes historical waiting =>
          rw [ht] at completes
          cases completes
          simp only [ht, finish, Option.some.injEq] at moved
          subst moved
          exact .completed ht
      | idle other | requested other | processing other | processed other | applying other =>
          simp [ht] at other
  | returned => simp [ht] at moved

/-! One step keeps what the request waits for. -/

theorem RtMove.alive (move : RtMove state state') : state'.rt.Alive := by
  cases move <;> exact ⟨by simp, by simp⟩

theorem HtMove.rt (move : HtMove state state') : state'.rt = state.rt := by
  cases move <;> rfl

theorem RtMove.pendingSwitches (move : RtMove state state') :
    state'.pendingSwitches = state.pendingSwitches := by
  cases move with
  | switched rt room =>
      simp only [Ingest.pendingSwitches, rt, RtState.sending]
      omega
  | applied db rt realtime | leaving rt realtime | processed db rt realtime =>
      simp [Ingest.pendingSwitches, rt, realtime, RtState.sending]
  | answered rt ht | unheard rt ht => simp [Ingest.pendingSwitches, rt, RtState.sending]

/-- Ahead of the queue that is to be applied, the realtime thread never meets a full channel. -/
theorem WillApply.rtMove (applies : state.WillApply) (move : RtMove state state')
    (ht : state'.ht = .applying) : state'.WillApply := by
  cases applies with
  | replying rt =>
      cases move with
      | answered rt applying => simp at ht
      | unheard rt other => exact absurd ht other
      | applied db other | leaving other | processed db other | switched other =>
          simp [rt] at other
  | queued realtime room =>
      rename_i ahead behind
      cases ahead with
      | nil =>
          cases move with
          | applied db rt head => exact .replying rfl
          | leaving rt head | processed db rt head => simp [realtime] at head
          | answered rt applying => simp at ht
          | unheard rt other => exact absurd ht other
          | switched rt token =>
              simp only [rt, RtState.sending] at room
              exact .queued realtime (by simp only [RtState.sending]; omega)
      | cons message ahead =>
          cases move with
          | applied db rt head => exact .replying rfl
          | leaving rt head =>
              rw [realtime, List.cons_append] at head
              cases head
              simp only [rt, RtState.sending, queuedSwitches_switchToQueue] at room
              exact .queued rfl (by simp only [RtState.sending]; omega)
          | processed db rt head =>
              rw [realtime, List.cons_append] at head
              cases head
              simp only [rt, RtState.sending, queuedSwitches_virtualChainChanges] at room
              exact .queued rfl room
          | answered rt applying => simp at ht
          | unheard rt other => exact absurd ht other
          | switched rt token =>
              simp only [rt, RtState.sending] at room
              exact .queued realtime (by simp only [RtState.sending]; omega)

theorem Served.next_rt (served : state.Served) (move : RtMove state state') : state'.Served := by
  have pending := move.pendingSwitches
  cases served with
  | idle ht historical waiting =>
      cases move with
      | answered rt applying => simp [ht] at applying
      | _ => exact .idle ht historical waiting
  | requested ht historical waiting answered comes =>
      rw [← pending] at comes
      cases move with
      | answered rt applying => simp [ht] at applying
      | _ => exact .requested ht historical waiting answered comes
  | processing ht historical waiting answered =>
      cases move with
      | answered rt applying => simp [ht] at applying
      | _ => exact .processing ht historical waiting answered
  | processed ht historical waiting =>
      cases move with
      | answered rt applying => simp [ht] at applying
      | _ => exact .processed ht historical waiting
  | applying ht historical waiting applies =>
      have still := applies.rtMove move
      cases move with
      | answered rt applying => exact .completing rfl historical waiting
      | _ => exact .applying ht historical waiting (still ht)
  | completing ht historical waiting =>
      cases move with
      | answered rt applying => simp [ht] at applying
      | _ => exact .completing ht historical waiting

theorem Served.next_ht (served : state.Served) (balanced : state.balanced .ht = true)
    (move : HtMove state state') : state'.Served := by
  cases served with
  | idle ht empty waiting =>
      cases move with
      | switched other token => exact .idle rfl empty waiting
      | received other historical => simp [empty] at historical
      | answered db other | unanswered db other | processed db other | asked other
      | completed other => simp [ht] at other
  | requested ht one waiting answered comes =>
      cases move with
      | switched other token => exact .requested rfl one waiting answered (by simp)
      | received other historical =>
          rw [one] at historical
          cases historical
          exact .processing rfl rfl waiting answered
      | answered db other | unanswered db other | processed db other | asked other
      | completed other => simp [ht] at other
  | processing ht empty waiting answered =>
      cases move with
      | answered db other => exact .completing rfl empty waiting
      | unanswered db other =>
          rw [ht] at other
          cases other
          simp [HtNotification.answered] at answered
      | processed db other => exact .processed rfl empty waiting
      | switched other | received other | asked other | completed other => simp [ht] at other
  | processed ht empty waiting =>
      cases move with
      | asked other =>
          simp only [Ingest.balanced, ht, decide_eq_true_eq] at balanced
          exact .applying rfl empty waiting (.queued rfl balanced)
      | switched other | received other | answered db other | unanswered db other
      | processed db other | completed other => simp [ht] at other
  | applying ht empty waiting applies =>
      cases move with
      | switched other | received other | answered db other | unanswered db other
      | processed db other | asked other | completed other => simp [ht] at other
  | completing ht empty waiting =>
      cases move with
      | completed other => exact .idle rfl empty rfl
      | switched other | received other | answered db other | unanswered db other
      | processed db other | asked other => simp [ht] at other

/-- A request is sent when the last one was answered, and the historical thread will take it up. -/
theorem Served.next_request (served : state.Served) {message : HtNotification}
    (free : state.waiting = false) (answered : message.answered = true)
    (comes : state.ht = .receiving true → 0 < state.pendingSwitches) :
    Served { state with
      historical := state.historical ++ [message]
      waiting := true } := by
  cases served with
  | idle ht historical waiting =>
      exact .requested ht (by simp [historical]) rfl answered (by
        intro waits
        subst waits
        exact comes ht)
  | requested _ _ waiting | processing _ _ waiting | processed _ _ waiting
  | applying _ _ waiting | completing _ _ waiting => simp [free] at waiting

/-- A realtime message goes behind all that the realtime thread has to do. -/
theorem Served.next_message (served : state.Served) (message : RtNotification) :
    Served { state with realtime := state.realtime ++ [message] } := by
  cases served with
  | idle ht historical waiting => exact .idle ht historical waiting
  | requested ht historical waiting answered comes =>
      refine .requested ht historical waiting answered ?_
      intro waits
      have some := comes waits
      simp only [pendingSwitches, queuedSwitches_append] at some ⊢
      omega
  | processing ht historical waiting answered =>
      exact .processing ht historical waiting answered
  | processed ht historical waiting => exact .processed ht historical waiting
  | applying ht historical waiting applies =>
      cases applies with
      | replying rt => exact .applying ht historical waiting (.replying rt)
      | queued realtime room =>
          rw [realtime, List.append_assoc, List.cons_append]
          exact .applying ht historical waiting (.queued rfl room)
  | completing ht historical waiting => exact .completing ht historical waiting

theorem Served.next (served : state.Served) (alive : state.rt.Alive) {action : Action}
    (succeeds : state.succeeds kaspa action = true) (balanced : state.balanced action = true)
    (moved : step kaspa state action = some state') : state'.Served ∧ state'.rt.Alive := by
  cases action with
  | ht =>
      have move := served.htMove alive succeeds moved
      exact ⟨served.next_ht balanced move, move.rt ▸ alive⟩
  | rt =>
      have move := rtMove alive succeeds moved
      exact ⟨served.next_rt move, move.alive⟩
  | switchToQueue | realtime =>
      cases moved
      exact ⟨served.next_message _, alive⟩
  | historicalAndWait vcc | historicalAndApplyQueue vcc =>
      simp only [step] at moved
      split at moved
      · cases moved
      · rename_i free
        simp only [Bool.not_eq_true] at free
        cases moved
        refine ⟨served.next_request free rfl ?_, alive⟩
        intro ht
        simpa [Ingest.balanced, ht] using balanced

/-! No thread that has work is blocked. -/

theorem rtStep_received {mode : Bool} {message : RtNotification} {rest : List RtNotification}
    (rt : state.rt = .receiving mode) (realtime : state.realtime = message :: rest) :
    (state.rtStep kaspa).isSome := by
  unfold rtStep
  cases message with
  | applyQueue =>
      simp only [rt, realtime]
      split <;> rfl
  | switchToQueue | virtualChainChanges vcc => simp [rt, realtime]

theorem rtStep_replying {result : Except Fault Unit} (rt : state.rt = .replying result) :
    (state.rtStep kaspa).isSome := by
  simp [rtStep, rt]

theorem rtStep_switching (rt : state.rt = .switching) (room : state.switches < SWITCH_CAPACITY) :
    (state.rtStep kaspa).isSome := by
  simp [rtStep, rt, room]

/-- A switch that has not reached the channel yet is a step of the realtime thread. -/
theorem rtStep_of_pendingSwitches (alive : state.rt.Alive) (pending : 0 < state.pendingSwitches)
    (empty : state.switches = 0) : (state.rtStep kaspa).isSome := by
  cases rt : state.rt with
  | receiving mode =>
      cases realtime : state.realtime with
      | nil => simp [pendingSwitches, rt, realtime, empty, RtState.sending] at pending
      | cons message rest => exact rtStep_received rt realtime
  | replying result => exact rtStep_replying rt
  | switching => exact rtStep_switching rt (by simp [empty, SWITCH_CAPACITY])
  | returned => exact absurd rt alive.running

theorem WillApply.rtStep (applies : state.WillApply) (alive : state.rt.Alive) :
    (state.rtStep kaspa).isSome := by
  cases applies with
  | replying rt => exact rtStep_replying rt
  | queued realtime room =>
      rename_i ahead behind
      cases rt : state.rt with
      | receiving mode =>
          cases ahead with
          | nil => exact rtStep_received rt realtime
          | cons message ahead => exact rtStep_received rt realtime
      | replying result => exact rtStep_replying rt
      | switching =>
          simp only [rt, RtState.sending] at room
          exact rtStep_switching rt (by omega)
      | returned => exact absurd rt alive.running

theorem htStep_received {message : HtNotification} {rest : List HtNotification}
    (ht : state.ht = .receiving false) (historical : state.historical = message :: rest) :
    (state.htStep kaspa).isSome := by
  simp [htStep, ht, historical]

theorem htStep_processing {message : HtNotification} (ht : state.ht = .processing message) :
    (state.htStep kaspa).isSome := by
  unfold htStep
  cases message with
  | historical vcc completion =>
      simp only [ht]
      split
      · rfl
      · split <;> rfl
  | application vcc =>
      simp only [ht]
      split <;> rfl

theorem Served.not_blocked (served : state.Served) (alive : state.rt.Alive) :
    ¬state.Blocked kaspa := by
  rintro ⟨waits, noHt, noRt⟩
  rw [Option.isNone_iff_eq_none] at noHt noRt
  cases served with
  | idle ht historical waiting => simp [waiting] at waits
  | requested ht historical waiting answered comes =>
      rename_i waitForSwitch message
      cases waitForSwitch with
      | false =>
          have enabled : (state.htStep kaspa).isSome := htStep_received ht historical
          simp [noHt] at enabled
      | true =>
          cases token : state.switches with
          | zero =>
              have enabled : (state.rtStep kaspa).isSome :=
                rtStep_of_pendingSwitches alive (comes rfl) token
              simp [noRt] at enabled
          | succ tokens => simp [htStep, ht, token] at noHt
  | processing ht historical waiting answered =>
      have enabled : (state.htStep kaspa).isSome := htStep_processing ht
      simp [noHt] at enabled
  | processed ht historical waiting => simp [htStep, ht] at noHt
  | applying ht historical waiting applies =>
      have enabled : (state.rtStep kaspa).isSome := applies.rtStep alive
      simp [noRt] at enabled
  | completing ht historical waiting => simp [htStep, ht] at noHt

/-- In a run in which no processing fails and whose steps keep the switch tokens balanced, some
thread can always go on while the sync task waits. -/
theorem never_blocked {db : Db}
    (run : Reach (step kaspa) (fun state action => (state.succeeds kaspa action &&
      state.balanced action) = true) (start db) state) : ¬state.Blocked kaspa := by
  have both : state.Served ∧ state.rt.Alive := by
    apply run.invariant
    · exact ⟨.idle rfl rfl rfl, ⟨by simp [start], by simp [start]⟩⟩
    · intro state action state' ⟨served, alive⟩ allowed moved
      rw [Bool.and_eq_true] at allowed
      exact served.next alive allowed.1 allowed.2 moved
  exact both.1.not_blocked both.2

end Ingest

namespace Sample

/-- A sync of the deployment, a sale in realtime mode, and a disconnect before the next sync. -/
def syncAndDisconnect : List Ingest.Action :=
  [.historicalAndWait ⟨[], none, [deployBlock]⟩, .ht, .ht, .ht,
    .historicalAndApplyQueue ⟨[], none, []⟩, .ht, .ht, .ht, .rt, .rt, .ht,
    .realtime ⟨[], none, [saleBlock]⟩, .rt, .switchToQueue, .rt,
    .historicalAndWait ⟨[], none, []⟩, .rt, .ht]

end Sample

theorem Ingest.never_blocked_sync : ∃ state,
    runActions (Ingest.step Sample.kaspa) (fun state action => state.succeeds Sample.kaspa action &&
      state.balanced action) (Ingest.start .new) Sample.syncAndDisconnect = some state ∧
    state.waiting = true ∧ ¬state.Blocked Sample.kaspa := by
  have waits : (runActions (Ingest.step Sample.kaspa) (fun state action =>
      state.succeeds Sample.kaspa action && state.balanced action) (Ingest.start .new)
      Sample.syncAndDisconnect).map Ingest.waiting = some true := rfl
  obtain ⟨state, run, waiting⟩ := Option.map_eq_some_iff.mp waits
  exact ⟨state, run, waiting, Ingest.never_blocked (Reach.of_runActions run)⟩

/-- Two disconnects while a batch with an application is processed, and no step is left when the
queue is to be applied. -/
theorem Ingest.disconnects_blocked : ∃ state,
    Reach (Ingest.step Sample.kaspa) (fun state action => state.succeeds Sample.kaspa action = true)
      (Ingest.start .new) state ∧ state.Blocked Sample.kaspa := by
  have run : runActions (Ingest.step Sample.kaspa)
      (fun state action => state.succeeds Sample.kaspa action) (Ingest.start .new)
      [.historicalAndApplyQueue ⟨[], none, []⟩, .ht, .switchToQueue, .switchToQueue, .ht, .ht,
        .rt, .rt, .rt] = some _ := rfl
  exact ⟨_, Reach.of_runActions run, rfl, rfl, rfl⟩

end Krc721
