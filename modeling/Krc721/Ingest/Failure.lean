import Krc721.Ingest.Deadlock

/-! A batch that fails. Its transaction is dropped and its sender gets the error, and then the
historical thread returns the same error. The sync task asks again, and nobody takes its request:
the receiver of the historical channel lives as long as the processor. -/

set_option autoImplicit false

namespace Krc721

open Transition

theorem processChainChanges_failed {kaspa : Kaspa} {db : Db} {vcc : VirtualChainChanges}
    {fault : Fault} (fails : (processChainChanges kaspa db vcc).2 = .error fault) :
    processChainChanges kaspa db vcc = (db, .error fault) := by
  unfold processChainChanges at *
  split at fails
  · rename_i fault' failed
    cases fails
    rfl
  · cases fails

namespace Ingest

/-- All messages of the historical thread have a sender that waits for them. -/
structure Answered (state : Ingest) : Prop where
  queued : ∀ message ∈ state.historical, message.answered = true
  taken : ∀ message, state.ht = .processing message → message.answered = true

/-- A request is queued, its sender waits, and the thread that could answer it is gone. -/
structure Wedged (state : Ingest) : Prop where
  waiting : state.waiting = true
  queued : state.historical ≠ []
  returned : state.ht = .returned

variable {kaspa : Kaspa} {state state' : Ingest}

/-- The realtime thread takes no request, and it ends only the wait for the queue. -/
structure RtFrame (state state' : Ingest) : Prop where
  historical : state'.historical = state.historical
  waiting : state'.waiting = state.waiting
  ht : state.ht ≠ .applying → state'.ht = state.ht
  taken : ∀ message, state'.ht = .processing message → state.ht = .processing message

theorem rtStep_frame (moved : state.rtStep kaspa = some state') : RtFrame state state' := by
  unfold rtStep at moved
  cases rt : state.rt with
  | receiving mode =>
      cases realtime : state.realtime with
      | nil => simp [rt, realtime] at moved
      | cons message rest =>
          cases message with
          | applyQueue =>
              simp only [rt, realtime] at moved
              split at moved <;> cases moved <;> exact ⟨rfl, rfl, fun _ => rfl, fun _ => id⟩
          | switchToQueue =>
              simp only [rt, realtime] at moved
              cases moved
              exact ⟨rfl, rfl, fun _ => rfl, fun _ => id⟩
          | virtualChainChanges vcc =>
              simp only [rt, realtime] at moved
              cases moved
              exact ⟨by simp, by simp, by simp, by simp⟩
  | replying result =>
      simp only [rt] at moved
      cases moved
      split
      · rename_i applying
        exact ⟨by simp, by simp, fun other => absurd applying other, by simp⟩
      · exact ⟨by simp, by simp, by simp, by simp⟩
  | switching =>
      simp only [rt] at moved
      split at moved
      · cases moved
        exact ⟨rfl, rfl, fun _ => rfl, fun _ => id⟩
      · cases moved
  | returned => simp [rt] at moved

@[simp] theorem finish_ne_processing (result : Except Fault Unit) (application : Bool)
    (message : HtNotification) : (state.finish result application).ht ≠ .processing message := by
  cases result <;> simp [finish]

/-- What the historical thread processes comes out of its channel. -/
theorem htStep_taken (moved : state.htStep kaspa = some state') :
    (∀ message ∈ state'.historical, message ∈ state.historical) ∧
      ∀ message, state'.ht = .processing message → message ∈ state.historical := by
  unfold htStep at moved
  cases ht : state.ht with
  | receiving waitForSwitch =>
      cases waitForSwitch with
      | true =>
          simp only [ht] at moved
          split at moved
          · cases moved
            exact ⟨fun _ member => member, nofun⟩
          · cases moved
      | false =>
          cases historical : state.historical with
          | nil => simp [ht, historical] at moved
          | cons message rest =>
              simp only [ht, historical] at moved
              cases moved
              constructor
              · intro other member
                exact List.mem_cons_of_mem message member
              · intro other taken
                cases taken
                exact List.mem_cons_self
  | processing message =>
      cases message with
      | historical vcc completion =>
          simp only [ht] at moved
          split at moved
          · cases moved
            exact ⟨fun _ member => member, nofun⟩
          · split at moved <;> cases moved
            · exact ⟨fun _ member => member, nofun⟩
            · exact ⟨by simp, fun message taken => absurd taken (by simp)⟩
      | application vcc =>
          simp only [ht] at moved
          split at moved <;> cases moved <;> exact ⟨fun _ member => member, nofun⟩
  | processed =>
      simp only [ht] at moved
      cases moved
      exact ⟨fun _ member => member, nofun⟩
  | applying =>
      simp only [ht] at moved
      split at moved
      · split at moved
        · cases moved
        · cases moved
          exact ⟨fun _ member => member, nofun⟩
      · cases moved
  | completing result application =>
      simp only [ht] at moved
      cases moved
      exact ⟨by simp, fun message taken => absurd taken (by simp)⟩
  | returned => simp [ht] at moved

theorem Answered.next (answered : state.Answered) {action : Action}
    (moved : step kaspa state action = some state') : state'.Answered := by
  cases action with
  | ht =>
      obtain ⟨queued, taken⟩ := htStep_taken moved
      exact ⟨fun message member => answered.queued message (queued message member),
        fun message processing => answered.queued message (taken message processing)⟩
  | rt =>
      have frame := rtStep_frame moved
      refine ⟨frame.historical ▸ answered.queued, fun message processing => ?_⟩
      exact answered.taken message (frame.taken message processing)
  | switchToQueue | realtime =>
      cases moved
      exact ⟨answered.queued, answered.taken⟩
  | historicalAndWait vcc | historicalAndApplyQueue vcc =>
      simp only [step] at moved
      split at moved
      · cases moved
      · cases moved
        refine ⟨fun message member => ?_, answered.taken⟩
        rw [List.mem_append, List.mem_singleton] at member
        cases member with
        | inl earlier => exact answered.queued message earlier
        | inr request =>
            subst request
            rfl

/-- Nothing takes the request out of the channel again. -/
theorem Wedged.next (wedged : state.Wedged) {action : Action}
    (moved : step kaspa state action = some state') : state'.Wedged := by
  cases action with
  | ht => simp [step, htStep, wedged.returned] at moved
  | rt =>
      have frame := rtStep_frame moved
      have ht := frame.ht (by simp [wedged.returned])
      exact ⟨frame.waiting ▸ wedged.waiting, frame.historical ▸ wedged.queued,
        ht ▸ wedged.returned⟩
  | switchToQueue | realtime =>
      cases moved
      exact ⟨wedged.waiting, wedged.queued, wedged.returned⟩
  | historicalAndWait vcc | historicalAndApplyQueue vcc => simp [step, wedged.waiting] at moved

/-- The error is on its way to the sender, and nothing was written. -/
theorem htStep_failed {message : HtNotification} {fault : Fault}
    (ht : state.ht = .processing message) (answered : message.answered = true)
    (fails : (processChainChanges kaspa state.db message.vcc).2 = .error fault)
    (returned : ∀ text, fault ≠ .panic text) :
    ∃ failed application, step kaspa state .ht = some failed ∧ failed.db = state.db ∧
      failed.ht = .completing (.error fault) application := by
  have processed := processChainChanges_failed fails
  unfold step htStep
  cases message with
  | historical vcc completion =>
      simp only [HtNotification.answered] at answered
      subst answered
      simp only [HtNotification.vcc] at processed
      cases fault with
      | panic text => exact absurd rfl (returned text)
      | unexpectedKaspaNodeBehaviour =>
          simp only [ht, processed, if_true]
          exact ⟨_, false, rfl, rfl, rfl⟩
  | application vcc =>
      simp only [HtNotification.vcc] at processed
      cases fault with
      | panic text => exact absurd rfl (returned text)
      | unexpectedKaspaNodeBehaviour =>
          simp only [ht, processed]
          exact ⟨_, true, rfl, rfl, rfl⟩

/-- The thread returns with the error it has answered, and the sync task sends its next request. -/
theorem wedge_of_completing {fault : Fault} {application : Bool}
    (ht : state.ht = .completing (.error fault) application) (retry : VirtualChainChanges) :
    ∃ wedged, Reach (step kaspa) (fun _ _ => True) state wedged ∧ wedged.Wedged := by
  have completed : step kaspa state .ht = some { state with
      ht := .returned
      waiting := false } := by
    simp [step, htStep, ht, finish]
  have asked : step kaspa { state with
        ht := .returned
        waiting := false } (.historicalAndWait retry) = some { state with
      historical := state.historical ++ [.historical retry true]
      ht := .returned
      waiting := true } := rfl
  exact ⟨_, .next (.next .refl trivial completed) trivial asked, ⟨rfl, by simp, rfl⟩⟩

theorem Wedged.stays (wedged : state.Wedged)
    (run : Reach (step kaspa) (fun _ _ => True) state state') : state'.Wedged := by
  apply run.invariant wedged
  intro state action state' wedged _ moved
  exact wedged.next moved

/-- When processing a request returns an error, the database is as it was, and a next request of
the sync task waits for ever. -/
theorem failed_batch_wedges {db : Db} {message : HtNotification} {fault : Fault}
    (run : Reach (step kaspa) (fun _ _ => True) (start db) state)
    (ht : state.ht = .processing message)
    (fails : (processChainChanges kaspa state.db message.vcc).2 = .error fault)
    (returned : ∀ text, fault ≠ .panic text) :
    ∃ failed, step kaspa state .ht = some failed ∧ failed.db = state.db ∧
      ∃ wedged, Reach (step kaspa) (fun _ _ => True) failed wedged ∧ wedged.Wedged ∧
        ∀ later, Reach (step kaspa) (fun _ _ => True) wedged later → later.Wedged := by
  have answered : state.Answered := by
    apply run.invariant
    · exact ⟨by simp [start], by simp [start]⟩
    · intro state action state' answered _ moved
      exact answered.next moved
  obtain ⟨failed, application, moved, unchanged, completing⟩ :=
    htStep_failed ht (answered.taken message ht) fails returned
  obtain ⟨wedged, reached, wedges⟩ := wedge_of_completing completing ⟨[], none, []⟩
  exact ⟨failed, moved, unchanged, wedged, reached, wedges, fun later run => wedges.stays run⟩

end Ingest

namespace Sample

/-- Another chain block of the deployment's blue score, with a deployment of the same tick. -/
def forkBlock : Mergeset where
  operations := [⟨0, 0, operation 9 bob (.deploy ⟨.remote "ipfs", 3, bob, none, 0, 0⟩)⟩]
  entropy := 7
  blueScore := 1
  acceptedChainBlockHash := 201

/-- The sync task has processed the deployment and asked for the fork, which is taken up. -/
def forkAsked : Ingest where
  db := (processChainChanges kaspa .new ⟨[], none, [deployBlock]⟩).1
  ht := .processing (.historical ⟨[], none, [forkBlock]⟩ true)
  waiting := true

theorem forkAsked_reached : runActions (Ingest.step kaspa) (fun _ _ => true) (Ingest.start .new)
    [.historicalAndWait ⟨[], none, [deployBlock]⟩, .ht, .ht, .ht,
      .historicalAndWait ⟨[], none, [forkBlock]⟩, .ht] = some forkAsked := rfl

theorem forkAsked_fails :
    (processChainChanges kaspa forkAsked.db ⟨[], none, [forkBlock]⟩).2 =
      .error .unexpectedKaspaNodeBehaviour := rfl

theorem forkAsked_run :
    Reach (Ingest.step kaspa) (fun _ _ => True) (Ingest.start .new) forkAsked :=
  (Reach.of_runActions forkAsked_reached).mono fun _ _ _ => trivial

end Sample

theorem Ingest.failed_batch_wedges_fork : ∃ failed,
    Ingest.step Sample.kaspa Sample.forkAsked .ht = some failed ∧
    failed.db = Sample.forkAsked.db ∧
    ∃ wedged, Reach (Ingest.step Sample.kaspa) (fun _ _ => True) failed wedged ∧ wedged.Wedged ∧
      ∀ later, Reach (Ingest.step Sample.kaspa) (fun _ _ => True) wedged later → later.Wedged :=
  Ingest.failed_batch_wedges Sample.forkAsked_run rfl Sample.forkAsked_fails (by simp)

/-- A chain block that the code takes for unexpected node behaviour, and the retry of the sync task
waits in the queue of a thread that has returned. -/
theorem Ingest.retry_wedged : ∃ wedged,
    Reach (Ingest.step Sample.kaspa) (fun _ _ => True) (Ingest.start .new) Sample.forkAsked ∧
    (processChainChanges Sample.kaspa Sample.forkAsked.db ⟨[], none, [Sample.forkBlock]⟩).2 =
      .error .unexpectedKaspaNodeBehaviour ∧
    Reach (Ingest.step Sample.kaspa) (fun _ _ => True) Sample.forkAsked wedged ∧
    wedged.Wedged := by
  obtain ⟨failed, application, moved, _, completing⟩ :=
    @Ingest.htStep_failed Sample.kaspa Sample.forkAsked _ _ rfl rfl
      Sample.forkAsked_fails (by simp)
  obtain ⟨wedged, reached, wedges⟩ :=
    Ingest.wedge_of_completing completing ⟨[], none, [Sample.forkBlock]⟩
  exact ⟨wedged, Sample.forkAsked_run, Sample.forkAsked_fails,
    .trans (.next .refl trivial moved) reached, wedges⟩

end Krc721
