import Krc721.Ingest.Deadlock
import Krc721.Ingest.WakeUp

/-! Historical and realtime processing exclude each other as long as no switch token is left over:
the historical thread then stands behind the token that the realtime thread sends after it has gone
back to queueing. A disconnect in the middle of a sync leaves a token behind. -/

set_option autoImplicit false

namespace Krc721

open Transition

/-- The realtime thread writes what comes into the queue, or has stopped. -/
def RtState.queueing : RtState → Bool
  | .receiving realTimeModEnabled => !realTimeModEnabled
  | .replying _ => false
  | .switching | .returned => true

/-- `real_time_mod_enabled`, as the other threads can tell. -/
def RtState.realTimeModEnabled : RtState → Bool
  | .receiving realTimeModEnabled => realTimeModEnabled
  | _ => false

namespace Ingest

/-- `htvccn_task` is about to take up a historical notification, or has taken one up. -/
def Starts (state : Ingest) : Prop :=
  state.ht = .receiving false ∧ state.historical ≠ [] ∨
    ∃ message, state.ht = .processing message

/-- No switch is pending when the historical thread asks for the queue to be applied. -/
def unswitched (state : Ingest) : Action → Bool
  | .ht =>
      match state.ht with
      | .processed => state.pendingSwitches = 0
      | _ => true
  | _ => true

/-! What the steps do to the handover, whether or not the processing fails. -/

inductive HtEffect (state state' : Ingest) : Prop where
  | switched (ht : state.ht = .receiving true) (token : 0 < state.switches)
      (next : state'.ht = .receiving false) (realtime : state'.realtime = state.realtime)
  | worked (starts : state.Starts) (next : state'.ht ≠ .applying)
      (realtime : state'.realtime = state.realtime)
  | asked (ht : state.ht = .processed) (next : state'.ht = .applying)
      (realtime : state'.realtime = state.realtime ++ [.applyQueue])
      (switches : state'.switches = state.switches)
  | unanswered (ht : state.ht = .applying) (rt : state.rt = .returned)
      (dropped : .applyQueue ∉ state.realtime) (next : state'.ht = .completing (.ok ()) true)
      (realtime : state'.realtime = state.realtime)
  | completed {result : Except Fault Unit} {application : Bool}
      (ht : state.ht = .completing result application)
      (next : state'.ht = .receiving application ∨ result ≠ .ok () ∧ state'.ht = .returned)
      (realtime : state'.realtime = state.realtime) (switches : state'.switches = state.switches)

inductive RtEffect (state state' : Ingest) : Prop where
  | applied {mode : Bool} {rest : List RtNotification} (rt : state.rt = .receiving mode)
      (realtime : state.realtime = .applyQueue :: rest)
      (next : state'.rt = .returned ∨ ∃ result, state'.rt = .replying result)
      (remaining : state'.realtime = rest) (ht : state'.ht = state.ht)
      (switches : state'.switches = state.switches)
  | leaving {mode : Bool} {rest : List RtNotification} (rt : state.rt = .receiving mode)
      (realtime : state.realtime = .switchToQueue :: rest) (next : state'.rt = .switching)
      (remaining : state'.realtime = rest) (ht : state'.ht = state.ht)
  | processed {mode : Bool} {vcc : VirtualChainChanges} {rest : List RtNotification}
      (rt : state.rt = .receiving mode)
      (realtime : state.realtime = .virtualChainChanges vcc :: rest)
      (next : state'.rt = .receiving mode ∨ state'.rt = .returned)
      (remaining : state'.realtime = rest) (ht : state'.ht = state.ht)
      (switches : state'.switches = state.switches)
  | replied {result : Except Fault Unit} (rt : state.rt = .replying result)
      (next : state'.rt = .receiving true ∨ state'.rt = .returned)
      (answered : state.ht = .applying → state'.ht = .completing (.ok ()) true)
      (remaining : state'.realtime = state.realtime) (switches : state'.switches = state.switches)
  | switched (rt : state.rt = .switching) (next : state'.rt = .receiving false)
      (remaining : state'.realtime = state.realtime) (ht : state'.ht = state.ht)

variable {kaspa : Kaspa} {state state' : Ingest}

theorem htEffect (moved : state.htStep kaspa = some state') :
    HtEffect state state' ∧ state'.rt = state.rt := by
  unfold htStep at moved
  cases ht : state.ht with
  | receiving waitForSwitch =>
      cases waitForSwitch with
      | true =>
          simp only [ht] at moved
          split at moved
          · rename_i token
            cases moved
            exact ⟨.switched ht token rfl rfl, rfl⟩
          · cases moved
      | false =>
          cases historical : state.historical with
          | nil => simp [ht, historical] at moved
          | cons message rest =>
              simp only [ht, historical] at moved
              cases moved
              exact ⟨.worked (.inl ⟨ht, by simp [historical]⟩) (by simp) rfl, rfl⟩
  | processing message =>
      have starts : state.Starts := .inr ⟨message, ht⟩
      cases message with
      | historical vcc completion =>
          simp only [ht] at moved
          generalize (processChainChanges kaspa state.db vcc).2 = result at moved
          split at moved
          · cases moved
            exact ⟨.worked starts (by simp [unwind]) rfl, rfl⟩
          · split at moved
            · cases moved
              exact ⟨.worked starts (by simp) rfl, rfl⟩
            · cases moved
              cases result with
              | error fault => exact ⟨.worked starts (by simp [finish]) rfl, rfl⟩
              | ok value => exact ⟨.worked starts (by simp [finish]) rfl, rfl⟩
      | application vcc =>
          simp only [ht] at moved
          split at moved
          · cases moved
            exact ⟨.worked starts (by simp [unwind]) rfl, rfl⟩
          · cases moved
            exact ⟨.worked starts (by simp) rfl, rfl⟩
          · cases moved
            exact ⟨.worked starts (by simp) rfl, rfl⟩
  | processed =>
      simp only [ht] at moved
      cases moved
      exact ⟨.asked ht rfl rfl rfl, rfl⟩
  | applying =>
      cases rt : state.rt with
      | returned =>
          simp only [ht, rt] at moved
          split at moved
          · cases moved
          · rename_i dropped
            cases moved
            exact ⟨.unanswered ht rt dropped rfl rfl, rfl⟩
      | _ => simp [ht, rt] at moved
  | completing result application =>
      simp only [ht] at moved
      cases moved
      cases result with
      | error fault => exact ⟨.completed ht (.inr ⟨by simp, rfl⟩) rfl rfl, rfl⟩
      | ok value => exact ⟨.completed ht (.inl rfl) rfl rfl, rfl⟩
  | returned => simp [ht] at moved

theorem rtEffect (moved : state.rtStep kaspa = some state') : RtEffect state state' := by
  unfold rtStep at moved
  cases rt : state.rt with
  | receiving mode =>
      cases realtime : state.realtime with
      | nil => simp [rt, realtime] at moved
      | cons message rest =>
          cases message with
          | applyQueue =>
              simp only [rt, realtime] at moved
              split at moved
              · cases moved
                exact .applied rt realtime (.inl rfl) rfl rfl rfl
              · cases moved
                exact .applied rt realtime (.inr ⟨_, rfl⟩) rfl rfl rfl
          | switchToQueue =>
              simp only [rt, realtime] at moved
              cases moved
              exact .leaving rt realtime rfl rfl rfl
          | virtualChainChanges vcc =>
              simp only [rt, realtime, Option.some.injEq] at moved
              subst moved
              generalize (if mode = true then processChainChanges kaspa state.db vcc
                else (processQueue state.db vcc, .ok ())) = outcome
              obtain ⟨db, result⟩ := outcome
              cases result with
              | error fault => exact .processed rt realtime (.inr rfl) rfl rfl rfl
              | ok value => exact .processed rt realtime (.inl rfl) rfl rfl rfl
  | replying result =>
      simp only [rt, Option.some.injEq] at moved
      subst moved
      cases ht : state.ht with
      | applying =>
          cases result with
          | error fault => exact .replied rt (.inr rfl) (fun _ => rfl) rfl rfl
          | ok value => exact .replied rt (.inl rfl) (fun _ => rfl) rfl rfl
      | _ =>
          cases result with
          | error fault => exact .replied rt (.inr rfl) (by simp [ht]) rfl rfl
          | ok value => exact .replied rt (.inl rfl) (by simp [ht]) rfl rfl
  | switching =>
      simp only [rt] at moved
      split at moved
      · cases moved
        exact .switched rt rfl rfl rfl
      · cases moved
  | returned => simp [rt] at moved

/-! The phases of a handover. -/

/-- Realtime processing only goes on while the historical thread stands behind a token that is yet
to be sent. -/
inductive Excluded (state : Ingest) : Prop where
  | queueing (rt : state.rt.queueing = true) (ht : state.ht ≠ .applying)
      (unasked : .applyQueue ∉ state.realtime)
  | asked {ahead behind : List RtNotification}
      (rt : state.rt = .receiving false ∨ state.rt = .returned) (ht : state.ht = .applying)
      (realtime : state.realtime = ahead ++ .applyQueue :: behind)
      (first : .applyQueue ∉ ahead) (once : .applyQueue ∉ behind)
      (unswitched : queuedSwitches ahead = 0) (switches : state.switches = 0)
  | replying {result : Except Fault Unit} (rt : state.rt = .replying result)
      (ht : state.ht = .applying) (unasked : .applyQueue ∉ state.realtime)
      (switches : state.switches = 0)
  | dropped (rt : state.rt = .returned) (ht : state.ht = .applying)
      (unasked : .applyQueue ∉ state.realtime)
  | realtime (rt : state.rt = .receiving true)
      (ht : state.ht = .completing (.ok ()) true ∨ state.ht = .receiving true)
      (unasked : .applyQueue ∉ state.realtime) (switches : state.switches = 0)

namespace Excluded

theorem next_ht (excluded : state.Excluded) (unswitched : state.unswitched .ht = true)
    (effect : HtEffect state state') (rt : state'.rt = state.rt) : state'.Excluded := by
  cases excluded with
  | queueing queueing ht unasked =>
      rw [← rt] at queueing
      cases effect with
      | switched _ token next realtime =>
          exact .queueing queueing (by simp [next]) (realtime ▸ unasked)
      | worked _ next realtime => exact .queueing queueing next (realtime ▸ unasked)
      | asked processed next realtime switches =>
          simp only [Ingest.unswitched, processed] at unswitched
          have clear := of_decide_eq_true unswitched
          unfold pendingSwitches at clear
          have before : state.rt = .receiving false ∨ state.rt = .returned := by
            rw [rt] at queueing
            cases mode : state.rt with
            | receiving enabled =>
                rw [mode] at queueing
                cases enabled with
                | true => cases queueing
                | false => exact .inl rfl
            | replying result =>
                rw [mode] at queueing
                cases queueing
            | switching => simp [mode, RtState.sending] at clear
            | returned => exact .inr rfl
          exact .asked (rt ▸ before) next realtime unasked (by simp) (by omega) (by omega)
      | unanswered applying => exact absurd applying ht
      | completed _ next realtime =>
          refine .queueing queueing ?_ (realtime ▸ unasked)
          cases next with
          | inl receiving => simp [receiving]
          | inr returned => simp [returned.2]
  | asked mode applying realtime first once clear switches =>
      cases effect with
      | unanswered _ returned dropped => exact absurd (by simp [realtime]) dropped
      | worked starts => simp [Starts, applying] at starts
      | switched ht | asked ht | completed ht => simp [applying] at ht
  | replying mode applying unasked switches =>
      cases effect with
      | unanswered _ returned => simp [mode] at returned
      | worked starts => simp [Starts, applying] at starts
      | switched ht | asked ht | completed ht => simp [applying] at ht
  | dropped mode applying unasked =>
      cases effect with
      | unanswered _ returned dropped next realtime =>
          exact .queueing (by rw [rt, mode]; rfl) (by simp [next]) (realtime ▸ unasked)
      | worked starts => simp [Starts, applying] at starts
      | switched ht | asked ht | completed ht => simp [applying] at ht
  | realtime mode ht unasked switches =>
      cases effect with
      | switched _ token => omega
      | worked starts =>
          rcases ht with other | other <;> simp [Starts, other] at starts
      | asked processed => simp [processed] at ht
      | unanswered applying => simp [applying] at ht
      | completed completing next realtime same =>
          simp only [completing, reduceCtorEq, or_false, HtState.completing.injEq] at ht
          obtain ⟨rfl, rfl⟩ := ht
          refine .realtime (rt ▸ mode) (.inr ?_) (realtime ▸ unasked) (same ▸ switches)
          exact next.resolve_right fun failed => failed.1 rfl

/-- While the realtime thread queues, or has stopped, a switch keeps it so. -/
theorem queueing_rt (queueing : state.rt.queueing = true) (ht : state.ht ≠ .applying)
    (unasked : .applyQueue ∉ state.realtime) (effect : RtEffect state state') :
    state'.Excluded := by
  cases effect with
  | applied _ realtime => simp [realtime] at unasked
  | leaving _ realtime next remaining same =>
      refine .queueing (by rw [next]; rfl) (same ▸ ht) ?_
      rw [realtime, List.mem_cons, not_or] at unasked
      exact remaining ▸ unasked.2
  | processed mode realtime next remaining same =>
      refine .queueing ?_ (same ▸ ht) ?_
      · cases next with
        | inl receiving => rw [receiving, ← mode, queueing]
        | inr returned => rw [returned]; rfl
      · rw [realtime, List.mem_cons, not_or] at unasked
        exact remaining ▸ unasked.2
  | replied mode => simp [mode, RtState.queueing] at queueing
  | switched _ next remaining same =>
      exact .queueing (by rw [next]; rfl) (same ▸ ht) (remaining ▸ unasked)

/-- The queue that is to be applied is the next message. -/
theorem applies_rt {behind : List RtNotification} (ht : state.ht = .applying)
    (mode : state.rt = .receiving false ∨ state.rt = .returned)
    (realtime : state.realtime = .applyQueue :: behind) (once : .applyQueue ∉ behind)
    (switches : state.switches = 0) (effect : RtEffect state state') : state'.Excluded := by
  cases effect with
  | applied receiving head next remaining sameHt same =>
      rw [realtime] at head
      cases head
      cases next with
      | inl returned => exact .dropped returned (sameHt ▸ ht) (remaining ▸ once)
      | inr replying =>
          obtain ⟨result, replying⟩ := replying
          exact .replying replying (sameHt ▸ ht) (remaining ▸ once) (same ▸ switches)
  | leaving receiving head | processed receiving head => simp [realtime] at head
  | replied replying => simp [replying] at mode
  | switched switching => simp [switching] at mode

/-- Another message is ahead of the queue that is to be applied, and it is not a switch. -/
theorem approaches_rt {message : RtNotification} {ahead behind : List RtNotification}
    (ht : state.ht = .applying) (mode : state.rt = .receiving false ∨ state.rt = .returned)
    (realtime : state.realtime = message :: ahead ++ .applyQueue :: behind)
    (first : .applyQueue ∉ message :: ahead) (once : .applyQueue ∉ behind)
    (clear : queuedSwitches (message :: ahead) = 0) (switches : state.switches = 0)
    (effect : RtEffect state state') : state'.Excluded := by
  cases effect with
  | applied receiving head =>
      rw [realtime] at head
      cases head
      simp at first
  | leaving receiving head =>
      rw [realtime] at head
      cases head
      simp at clear
  | processed receiving head next remaining sameHt same =>
      rw [realtime] at head
      cases head
      rw [List.mem_cons, not_or] at first
      rw [queuedSwitches_virtualChainChanges] at clear
      have queues : state.rt = .receiving false :=
        mode.resolve_right fun returned => by simp [receiving] at returned
      rw [receiving, RtState.receiving.injEq] at queues
      refine .asked ?_ (sameHt ▸ ht) remaining first.2 once clear (same ▸ switches)
      rw [← queues]
      exact next
  | replied replying => simp [replying] at mode
  | switched switching => simp [switching] at mode

/-- A switch message ends the realtime processing. -/
theorem realtime_rt (mode : state.rt = .receiving true)
    (ht : state.ht = .completing (.ok ()) true ∨ state.ht = .receiving true)
    (unasked : .applyQueue ∉ state.realtime) (switches : state.switches = 0)
    (effect : RtEffect state state') : state'.Excluded := by
  have waits : state.ht ≠ .applying := by
    intro applying
    simp [applying] at ht
  cases effect with
  | applied _ realtime => simp [realtime] at unasked
  | leaving _ realtime next remaining same =>
      rw [realtime, List.mem_cons, not_or] at unasked
      exact .queueing (by rw [next]; rfl) (same ▸ waits) (remaining ▸ unasked.2)
  | processed receiving realtime next remaining sameHt same =>
      rw [realtime, List.mem_cons, not_or] at unasked
      rw [mode, RtState.receiving.injEq] at receiving
      cases next with
      | inl still =>
          exact .realtime (receiving ▸ still) (sameHt ▸ ht) (remaining ▸ unasked.2)
            (same ▸ switches)
      | inr returned =>
          exact .queueing (by rw [returned]; rfl) (sameHt ▸ waits) (remaining ▸ unasked.2)
  | replied rt | switched rt => simp [mode] at rt

theorem next_rt (excluded : state.Excluded) (effect : RtEffect state state') :
    state'.Excluded := by
  cases excluded with
  | queueing queueing ht unasked => exact queueing_rt queueing ht unasked effect
  | asked mode ht realtime first once clear switches =>
      rename_i ahead behind
      cases ahead with
      | nil => exact applies_rt ht mode realtime once switches effect
      | cons message ahead =>
          exact approaches_rt ht mode realtime first once clear switches effect
  | replying mode ht unasked switches =>
      cases effect with
      | replied _ next answered remaining same =>
          cases next with
          | inl receiving =>
              exact .realtime receiving (.inl (answered ht)) (remaining ▸ unasked)
                (same ▸ switches)
          | inr returned =>
              exact .queueing (by rw [returned]; rfl) (by simp [answered ht]) (remaining ▸ unasked)
      | applied rt | leaving rt | processed rt | switched rt => simp [mode] at rt
  | dropped mode =>
      cases effect with
      | applied rt | leaving rt | processed rt | replied rt | switched rt => simp [mode] at rt
  | realtime mode ht unasked switches => exact realtime_rt mode ht unasked switches effect

theorem next_message (excluded : state.Excluded) {message : RtNotification}
    (other : message ≠ .applyQueue) :
    Excluded { state with realtime := state.realtime ++ [message] } := by
  have unasked' : .applyQueue ∉ state.realtime →
      .applyQueue ∉ state.realtime ++ [message] := by
    intro unasked
    simp [unasked, other.symm]
  cases excluded with
  | queueing rt ht unasked => exact .queueing rt ht (unasked' unasked)
  | asked rt ht realtime first once clear switches =>
      rename_i ahead behind
      have realtime' : state.realtime ++ [message] =
          ahead ++ .applyQueue :: (behind ++ [message]) := by
        rw [realtime, List.append_assoc, List.cons_append]
      exact .asked rt ht realtime' first (by simp [once, other.symm]) clear switches
  | replying rt ht unasked switches => exact .replying rt ht (unasked' unasked) switches
  | dropped rt ht unasked => exact .dropped rt ht (unasked' unasked)
  | realtime rt ht unasked switches => exact .realtime rt ht (unasked' unasked) switches

theorem next_request (excluded : state.Excluded) (historical : List HtNotification)
    (waiting : Bool) : Excluded { state with
      historical
      waiting } := by
  cases excluded with
  | queueing rt ht unasked => exact .queueing rt ht unasked
  | asked rt ht realtime first once clear switches =>
      exact .asked rt ht realtime first once clear switches
  | replying rt ht unasked switches => exact .replying rt ht unasked switches
  | dropped rt ht unasked => exact .dropped rt ht unasked
  | realtime rt ht unasked switches => exact .realtime rt ht unasked switches

theorem next (excluded : state.Excluded) {action : Action}
    (unswitched : state.unswitched action = true) (moved : step kaspa state action = some state') :
    state'.Excluded := by
  cases action with
  | ht =>
      obtain ⟨effect, rt⟩ := htEffect moved
      exact excluded.next_ht unswitched effect rt
  | rt => exact excluded.next_rt (rtEffect moved)
  | switchToQueue | realtime =>
      cases moved
      exact excluded.next_message (by simp)
  | historicalAndWait | historicalAndApplyQueue =>
      simp only [step] at moved
      split at moved
      · cases moved
      · cases moved
        exact excluded.next_request _ _

/-- A historical notification is only taken up while the realtime thread queues. -/
theorem not_realTimeModEnabled (excluded : state.Excluded) (starts : state.Starts) :
    state.rt.realTimeModEnabled = false := by
  cases excluded with
  | queueing rt =>
      cases mode : state.rt with
      | receiving enabled =>
          rw [mode, RtState.queueing] at rt
          simpa [RtState.realTimeModEnabled] using rt
      | _ => rfl
  | asked _ applying | replying _ applying | dropped _ applying =>
      simp [Starts, applying] at starts
  | realtime _ ht => rcases ht with other | other <;> simp [Starts, other] at starts

end Excluded

theorem excluded_start (db : Db) : (start db).Excluded :=
  .queueing rfl (by simp [start]) (by simp [start])

end Ingest

/-! The syncer and the threads together. -/

/-- What the sync task asks for when it has come to a request. The changes of a batch are what it
made of the answer of the node. -/
def Syncer.request (syncer : Syncer) (vcc : VirtualChainChanges) : Option Ingest.Action :=
  match syncer.syncTask with
  | .applying _ _ _ => some (.historicalAndWait vcc)
  | .handingOver _ _ => some (.historicalAndApplyQueue ⟨[], none, []⟩)
  | _ => none

/-- What a handler sends. -/
def Handler.message : Handler → Option Ingest.Action
  | .switching _ => some .switchToQueue
  | _ => none

def Ingest.perform (kaspa : Kaspa) (state : Ingest) : Option Ingest.Action → Option Ingest
  | none => some state
  | some action => state.step kaspa action

structure Nexus where
  syncer : Syncer
  ingest : Ingest

namespace Nexus

/-- A step of a thread, of a handler or of the sync task, a chain notification or a disconnect. -/
inductive Action where
  | ht
  | rt
  | virtualChainChanged (sink : BlueScoredChainBlockHash)
  | disconnected
  | handler (index : ℕ)
  | syncTask (reply : Reply) (vcc : VirtualChainChanges)

/-- The sync task takes no step while it waits for a completion. -/
def step (kaspa : Kaspa) (nexus : Nexus) : Action → Option Nexus
  | .ht => (nexus.ingest.step kaspa .ht).map fun ingest => { nexus with ingest }
  | .rt => (nexus.ingest.step kaspa .rt).map fun ingest => { nexus with ingest }
  | .virtualChainChanged sink =>
      (nexus.syncer.step (.virtualChainChanged sink)).map fun syncer => { nexus with syncer }
  | .disconnected => (nexus.syncer.step .disconnected).map fun syncer => { nexus with syncer }
  | .handler index => do
      let syncer ← nexus.syncer.step (.handler index)
      let ingest ← nexus.ingest.perform kaspa (nexus.syncer.handlers[index]?.bind Handler.message)
      some ⟨syncer, ingest⟩
  | .syncTask reply vcc =>
      if nexus.ingest.waiting then none
      else do
        let syncer ← nexus.syncer.syncStep reply
        let ingest ← nexus.ingest.perform kaspa (syncer.request vcc)
        some ⟨syncer, ingest⟩

/-- The threads and the first sync task have just been spawned. -/
def start (db : Db) (lastKnownBlock : BlueScoredChainBlockHash) : Nexus :=
  ⟨{ lastKnownBlock }, .start db⟩

/-- No switch is pending when the historical thread asks for the queue to be applied. -/
def unswitched (nexus : Nexus) : Action → Bool
  | .ht => nexus.ingest.unswitched .ht
  | _ => true

variable {kaspa : Kaspa} {nexus nexus' : Nexus}

theorem excluded_perform {state state' : Ingest} {action : Option Ingest.Action}
    (excluded : state.Excluded) (other : action ≠ some .ht)
    (moved : state.perform kaspa action = some state') : state'.Excluded := by
  cases action with
  | none =>
      cases moved
      exact excluded
  | some action =>
      refine excluded.next ?_ moved
      cases action with
      | ht => exact absurd rfl other
      | _ => rfl

theorem excluded_step (excluded : nexus.ingest.Excluded) {action : Action}
    (unswitched : nexus.unswitched action = true) (moved : nexus.step kaspa action = some nexus') :
    nexus'.ingest.Excluded := by
  cases action with
  | ht =>
      simp only [step, Option.map_eq_some_iff] at moved
      obtain ⟨ingest, performed, built⟩ := moved
      cases built
      obtain ⟨effect, rt⟩ := Ingest.htEffect performed
      exact excluded.next_ht unswitched effect rt
  | rt =>
      simp only [step, Option.map_eq_some_iff] at moved
      obtain ⟨ingest, performed, built⟩ := moved
      cases built
      exact excluded.next_rt (Ingest.rtEffect performed)
  | virtualChainChanged sink | disconnected =>
      simp only [step, Option.map_eq_some_iff] at moved
      obtain ⟨syncer, performed, built⟩ := moved
      cases built
      exact excluded
  | handler index =>
      obtain ⟨syncer, _, rest⟩ := Option.bind_eq_some_iff.1 moved
      obtain ⟨ingest, sent, built⟩ := Option.bind_eq_some_iff.1 rest
      cases built
      refine excluded_perform excluded ?_ sent
      intro isHt
      obtain ⟨handler, _, message⟩ := Option.bind_eq_some_iff.1 isHt
      cases handler <;> cases message
  | syncTask reply vcc =>
      simp only [step] at moved
      split at moved
      · cases moved
      · obtain ⟨syncer, _, rest⟩ := Option.bind_eq_some_iff.1 moved
        obtain ⟨ingest, sent, built⟩ := Option.bind_eq_some_iff.1 rest
        cases built
        refine excluded_perform excluded ?_ sent
        intro isHt
        unfold Syncer.request at isHt
        split at isHt <;> cases isHt

/-- In a run in which no switch is pending whenever the realtime thread is asked to apply the queue,
a historical notification is only taken up and processed while that thread queues. -/
theorem historical_excludes_realtime {db : Db} {lastKnownBlock : BlueScoredChainBlockHash}
    (run : Reach (step kaspa) (fun nexus action => nexus.unswitched action = true)
      (start db lastKnownBlock) nexus) (starts : nexus.ingest.Starts) :
    nexus.ingest.rt.realTimeModEnabled = false := by
  have excluded : nexus.ingest.Excluded := by
    apply run.invariant
    · exact Ingest.excluded_start db
    · intro nexus action nexus' excluded unswitched moved
      exact excluded_step excluded unswitched moved
  exact excluded.not_realTimeModEnabled starts

end Nexus

namespace Sample

def sync (reply : Reply) : Nexus.Action := .syncTask reply ⟨[], none, []⟩

/-- The task finds the first sink known and hands over, and the queue is applied. -/
def handOverAndApply : List Nexus.Action :=
  [sync (.sink (some firstSink)), sync .none, sync (.sink (some firstSink)), sync .none, .ht, .ht,
    .ht, .rt, .rt, .ht]

/-- The task publishes and ends. -/
def publishAndEnd : List Nexus.Action :=
  [sync (.queueApplied (.ok ())), sync .none, sync .none, sync .none, .handler 0]

/-- A notification is handled, and the next task sends a batch. -/
def syncAgain : List Nexus.Action :=
  [.virtualChainChanged secondSink, .handler 0, .handler 0, .handler 0, .handler 0,
    sync (.sink (some secondSink)), sync .none,
    sync (.historical (some ⟨[], [102], some secondSink⟩))]

/-- A disconnect during the first sync. -/
def disconnect : List Nexus.Action := [.disconnected, .handler 0, .rt, .rt, .handler 0, .handler 0,
  .handler 0]

end Sample

theorem Nexus.historical_excludes_realtime_sync : ∃ nexus,
    runActions (Nexus.step Sample.kaspa) Nexus.unswitched (Nexus.start .new Sample.firstSink)
      (Sample.handOverAndApply ++ Sample.publishAndEnd ++ Sample.syncAgain ++
        [.rt, .rt, .ht, .ht]) =
        some nexus ∧
    nexus.ingest.Starts ∧ nexus.ingest.rt.realTimeModEnabled = false := by
  have run : runActions (Nexus.step Sample.kaspa) Nexus.unswitched
      (Nexus.start .new Sample.firstSink)
      (Sample.handOverAndApply ++ Sample.publishAndEnd ++ Sample.syncAgain ++
        [.rt, .rt, .ht, .ht]) =
        some _ := rfl
  exact ⟨_, run, .inr ⟨_, rfl⟩,
    Nexus.historical_excludes_realtime (Reach.of_runActions run) (.inr ⟨_, rfl⟩)⟩

/-- The token of a disconnect during the sync lets the historical thread through while the realtime
thread still processes. -/
theorem Nexus.disconnect_overlaps : ∃ nexus,
    Reach (Nexus.step Sample.kaspa) (fun _ _ => True) (Nexus.start .new Sample.firstSink) nexus ∧
    nexus.ingest.Starts ∧ nexus.ingest.rt.realTimeModEnabled = true := by
  have run : runActions (Nexus.step Sample.kaspa) (fun _ _ => true)
      (Nexus.start .new Sample.firstSink)
      (Sample.disconnect ++ Sample.handOverAndApply ++ [.ht] ++ Sample.publishAndEnd ++
        Sample.syncAgain ++ [.ht]) = some _ := rfl
  exact ⟨_, (Reach.of_runActions run).mono fun _ _ _ => trivial, .inr ⟨_, rfl⟩, rfl⟩

end Krc721
