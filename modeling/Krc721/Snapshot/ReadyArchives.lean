import Krc721.Snapshot.Generator

/-! When an archive that is announced as ready is complete. A task announces its archive whether it
succeeded or not, and nothing keeps a reset or another task from the files of a task. -/

set_option autoImplicit false

namespace Krc721.Snapshot

open Transition

/-- The archive of a task that has not looked for it, or found it absent. -/
def TaskStep.daaScore : TaskStep → Option ℕ
  | .named daaScore | .absent daaScore | .writing daaScore _ | .failed daaScore
  | .announcing daaScore => some daaScore
  | .spawned | .returned => none

/-- The archive that a task writes, or is about to announce. -/
def TaskStep.held : TaskStep → Option String
  | .writing daaScore _ | .failed daaScore | .announcing daaScore => some (archiveName daaScore)
  | _ => none

/-- The archive that a task is about to announce. -/
def TaskStep.promised : TaskStep → Option String
  | .failed daaScore | .announcing daaScore => some (archiveName daaScore)
  | _ => none

namespace Generator

/-- A task fails, or finds a file of its name, only if that file is complete; it creates its file
only if there is none of the name in the folder; a reset deletes a file only if it is not announced
and no task writes it or is about to announce it. -/
def allowed (generator : Generator) : GeneratorAction → Bool
  | .removeFile archive =>
      (match generator.phase with
        | .ready ready _ => ready != archive
        | _ => true) &&
      generator.tasks.entries.all fun entry => entry.2.held != some archive
  | .task id .fail =>
      ((generator.tasks.get id).bind TaskStep.daaScore).all fun daaScore =>
        generator.complete (archiveName daaScore)
  | .task id .look =>
      ((generator.tasks.get id).bind TaskStep.daaScore).all fun daaScore =>
        (generator.entry (archiveName daaScore)).isNone ||
          generator.complete (archiveName daaScore)
  | .task id .create =>
      ((generator.tasks.get id).bind TaskStep.daaScore).all fun daaScore =>
        generator.folder.isSome && (generator.entry (archiveName daaScore)).isNone
  | _ => true

/-- Nothing is announced and no task runs. Files that earlier processes have left in the folder have
numbers of their own. -/
structure Fresh (generator : Generator) : Prop where
  phase : generator.phase = .none
  tasks : generator.tasks = ∅
  files : ∀ file, generator.spawned ≤ file → generator.files.get file = none

/-- What an announced archive, and every task on its way, can rely on. -/
structure Sound (generator : Generator) : Prop where
  ready : generator.ReadyIsComplete
  promised : ∀ id step archive, generator.tasks.get id = some step →
    step.promised = some archive → generator.complete archive = true
  writing : ∀ id daaScore file, generator.tasks.get id = some (.writing daaScore file) →
    file = id ∧ generator.entry (archiveName daaScore) = some id ∧
      generator.files.get id = some (.begun id)
  unopened : ∀ id daaScore, generator.tasks.get id = some .spawned ∨
    generator.tasks.get id = some (.named daaScore) ∨
    generator.tasks.get id = some (.absent daaScore) → generator.files.get id = none
  untaken : ∀ id, generator.spawned ≤ id →
    generator.tasks.get id = none ∧ generator.files.get id = none

theorem Fresh.sound {generator : Generator} (fresh : Fresh generator) : Sound generator where
  ready archive daaScore ready := by
    rw [fresh.phase] at ready
    cases ready
  promised id step archive running := by
    rw [fresh.tasks] at running
    cases running
  writing id daaScore file running := by
    rw [fresh.tasks] at running
    cases running
  unopened id daaScore running := by
    rw [fresh.tasks] at running
    simp at running
  untaken id free := ⟨by rw [fresh.tasks]; rfl, fresh.files id free⟩

variable {generator next : Generator} {archive : String} {id daaScore : ℕ}

theorem complete_iff : generator.complete archive = true ↔ ∃ file task,
    generator.entry archive = some file ∧ generator.files.get file = some (.whole task) := by
  rw [complete]
  constructor
  · intro complete
    split at complete
    · rename_i task found
      obtain ⟨file, isEntry, isWhole⟩ := Option.bind_eq_some_iff.1 found
      exact ⟨file, task, isEntry, isWhole⟩
    · cases complete
  · rintro ⟨file, task, isEntry, isWhole⟩
    rw [isEntry, Option.bind_some, isWhole]

namespace Sound

theorem lt_spawned (sound : Sound generator) {step : TaskStep}
    (running : generator.tasks.get id = some step) : id < generator.spawned := by
  by_contra free
  rw [(sound.untaken id (Nat.le_of_not_lt free)).1] at running
  cases running

/-- A task moves on, and what it relies on in its new place is there. It may change its own file, if
that was not complete, and add a name. -/
theorem move (sound : Sound generator) {step : TaskStep} (taken : id < next.spawned)
    (spawned : generator.spawned ≤ next.spawned)
    (ready : ∀ archive daaScore, next.phase = .ready archive daaScore →
      generator.complete archive = true)
    (tasks : next.tasks = generator.tasks.insert id step)
    (entries : ∀ archive file, generator.entry archive = some file →
      next.entry archive = some file)
    (files : ∀ other, other ≠ id → next.files.get other = generator.files.get other)
    (own : next.files.get id = generator.files.get id ∨
      ∀ task, generator.files.get id ≠ some (.whole task))
    (promised : ∀ archive, step.promised = some archive → next.complete archive = true)
    (writing : ∀ daaScore file, step = .writing daaScore file → file = id ∧
      next.entry (archiveName daaScore) = some id ∧ next.files.get id = some (.begun id))
    (unopened : ∀ daaScore, step = .spawned ∨ step = .named daaScore ∨ step = .absent daaScore →
      next.files.get id = none) : Sound next := by
  have kept : ∀ archive, generator.complete archive = true → next.complete archive = true := by
    intro archive complete
    obtain ⟨file, task, isEntry, isWhole⟩ := complete_iff.1 complete
    refine complete_iff.2 ⟨file, task, entries archive file isEntry, ?_⟩
    by_cases same : file = id
    · subst same
      rcases own with unchanged | incomplete
      · rw [unchanged, isWhole]
      · exact absurd isWhole (incomplete task)
    · rw [files file same, isWhole]
  have others : ∀ other, other ≠ id → next.tasks.get other = generator.tasks.get other := by
    intro other different
    rw [tasks, OrderedStore.Partition.get_insert_of_ne _ _ different.symm]
  have moved : next.tasks.get id = some step := by
    rw [tasks, OrderedStore.Partition.get_insert_self]
  constructor
  · intro archive daaScore isReady
    exact kept archive (ready archive daaScore isReady)
  · intro other step' archive running promises
    by_cases same : other = id
    · subst same
      rw [moved] at running
      cases running
      exact promised archive promises
    · rw [others other same] at running
      exact kept archive (sound.promised other step' archive running promises)
  · intro other daaScore file running
    by_cases same : other = id
    · subst same
      rw [moved] at running
      exact writing daaScore file (Option.some.inj running)
    · rw [others other same] at running
      obtain ⟨rfl, isEntry, begun⟩ := sound.writing other daaScore file running
      exact ⟨rfl, entries _ _ isEntry, (files file same).trans begun⟩
  · intro other daaScore running
    by_cases same : other = id
    · subst same
      rw [moved] at running
      exact unopened daaScore (by simpa using running)
    · rw [others other same] at running
      exact (files other same).trans (sound.unopened other daaScore running)
  · intro other free
    have different : other ≠ id := by omega
    obtain ⟨noTask, noFile⟩ := sound.untaken other (spawned.trans free)
    exact ⟨(others other different).trans noTask, (files other different).trans noFile⟩

/-- A task moves on without touching the folder. -/
theorem setTask (sound : Sound generator) {step : TaskStep} (taken : id < generator.spawned)
    (promised : ∀ archive, step.promised = some archive → generator.complete archive = true)
    (writing : ∀ daaScore file, step ≠ .writing daaScore file)
    (unopened : ∀ daaScore, step = .spawned ∨ step = .named daaScore ∨ step = .absent daaScore →
      generator.files.get id = none) : Sound (generator.setTask id step) :=
  sound.move taken (Nat.le_refl _) sound.ready rfl (fun _ _ isEntry => isEntry) (fun _ _ => rfl)
    (.inl rfl) promised (fun daaScore file same => absurd same (writing daaScore file)) unopened

/-- Nothing is lost as long as every name leads to the file it led to. -/
theorem congr (sound : Sound generator)
    (ready : ∀ archive daaScore, next.phase = .ready archive daaScore →
      generator.complete archive = true)
    (tasks : next.tasks = generator.tasks) (files : next.files = generator.files)
    (spawned : next.spawned = generator.spawned)
    (entries : ∀ archive, next.entry archive = generator.entry archive) : Sound next := by
  have same : next.complete = generator.complete := by
    funext archive
    rw [complete, complete, entries, files]
  obtain ⟨_, promised, writing, unopened, untaken⟩ := sound
  rw [← same] at promised ready
  rw [← tasks] at promised writing unopened untaken
  rw [← files] at writing unopened untaken
  rw [← spawned] at untaken
  refine ⟨ready, promised, ?_, unopened, untaken⟩
  intro id daaScore file running
  rw [entries]
  exact writing id daaScore file running

theorem write (sound : Sound generator) {file : ℕ} {content : Content}
    (running : generator.tasks.get id = some (.writing daaScore file))
    (found : generator.files.get file = some content) :
    Sound (generator.setFile file (content.write id)) := by
  obtain ⟨rfl, _, begun⟩ := sound.writing id daaScore file running
  rw [begun] at found
  cases found
  have unchanged : generator.files.insert file (.begun file) = generator.files := by
    ext other content
    rw [OrderedStore.Partition.get_insert]
    split
    · rename_i same
      rw [← same, begun]
    · rfl
  have same : generator.setFile file ((Content.begun file).write file) = generator := by
    rw [Content.write, if_pos rfl, setFile, unchanged]
  rw [same]
  exact sound

/-- A task that has written everything can announce its archive. -/
theorem finish (sound : Sound generator) {file : ℕ} {content : Content}
    (running : generator.tasks.get id = some (.writing daaScore file))
    (found : generator.files.get file = some content) :
    Sound ((generator.setFile file (content.finish id)).setTask id (.announcing daaScore)) := by
  have taken := sound.lt_spawned running
  obtain ⟨rfl, isEntry, begun⟩ := sound.writing id daaScore file running
  rw [begun] at found
  cases found
  rw [Content.finish, if_pos rfl]
  refine sound.move taken (Nat.le_refl _) sound.ready rfl (fun _ _ isEntry => isEntry)
    (fun other different => OrderedStore.Partition.get_insert_of_ne _ _ different.symm)
    (.inr fun task => by simp [begun]) ?_ nofun nofun
  intro archive promises
  cases promises
  exact complete_iff.2 ⟨file, file, isEntry, OrderedStore.Partition.get_insert_self _ _ _⟩

/-- A task opens a file of its own where there was none of the name. -/
theorem create (sound : Sound generator)
    (running : generator.tasks.get id = some (.absent daaScore))
    (isFolder : generator.folder.isSome = true)
    (noEntry : generator.entry (archiveName daaScore) = none) :
    Sound (generator.createFile id daaScore) := by
  have noFile := sound.unopened id daaScore (.inr (.inr running))
  obtain ⟨folder, found⟩ := Option.isSome_iff_exists.1 isFolder
  have noName : folder.get (archiveName daaScore) = none := by
    simpa [entry, found] using noEntry
  simp only [createFile, found, noName]
  refine sound.move (sound.lt_spawned running) (Nat.le_refl _) sound.ready rfl ?_
    (fun other different => OrderedStore.Partition.get_insert_of_ne _ _ different.symm)
    (.inr fun task => by simp [noFile]) nofun ?_ nofun
  · intro archive file isEntry
    have other : archiveName daaScore ≠ archive := by
      rintro rfl
      rw [noEntry] at isEntry
      cases isEntry
    refine (OrderedStore.Partition.get_insert_of_ne _ _ other).trans ?_
    simpa [entry, found] using isEntry
  · intro daaScore' file same
    cases same
    exact ⟨rfl, OrderedStore.Partition.get_insert_self _ _ _,
      OrderedStore.Partition.get_insert_self _ _ _⟩

theorem spawn (sound : Sound generator) {generating : ℕ} : Sound { generator with
    phase := .archiving
    generating
    tasks := generator.tasks.insert generator.spawned .spawned
    spawned := generator.spawned + 1 } := by
  obtain ⟨_, noFile⟩ := sound.untaken generator.spawned (Nat.le_refl _)
  exact sound.move (Nat.lt_succ_self _) (Nat.le_succ _) nofun rfl (fun _ _ isEntry => isEntry)
    (fun _ _ => rfl) (.inl rfl) nofun nofun fun _ _ => noFile

/-- A reset deletes a file that nobody relies on. -/
theorem removeFile (sound : Sound generator)
    (unannounced : ∀ daaScore, generator.phase ≠ .ready archive daaScore)
    (unheld : ∀ id step, generator.tasks.get id = some step → step.held ≠ some archive) :
    Sound { generator with folder := generator.folder.map fun folder => folder.erase archive } := by
  have entries : ∀ other, other ≠ archive → Generator.entry { generator with
      folder := generator.folder.map fun folder => folder.erase archive } other =
        generator.entry other := by
    intro other different
    simp only [entry]
    cases generator.folder with
    | none => rfl
    | some folder => exact OrderedStore.Partition.get_erase_of_ne _ different.symm
  have kept : ∀ other, other ≠ archive → generator.complete other = true →
      Generator.complete { generator with
        folder := generator.folder.map fun folder => folder.erase archive } other = true := by
    intro other different complete
    obtain ⟨file, task, isEntry, isWhole⟩ := complete_iff.1 complete
    exact complete_iff.2 ⟨file, task, (entries other different).trans isEntry, isWhole⟩
  constructor
  · intro other daaScore ready
    have different : other ≠ archive := by
      rintro rfl
      exact unannounced daaScore ready
    exact kept other different (sound.ready other daaScore ready)
  · intro id step other running promises
    have different : other ≠ archive := by
      rintro rfl
      refine unheld id step running ?_
      cases step with
      | failed | announcing => exact promises
      | _ => cases promises
    exact kept other different (sound.promised id step other running promises)
  · intro id daaScore file running
    obtain ⟨rfl, isEntry, begun⟩ := sound.writing id daaScore file running
    have different : archiveName daaScore ≠ archive := fun same =>
      unheld file _ running (congrArg some same)
    exact ⟨rfl, (entries _ different).trans isEntry, begun⟩
  · exact sound.unopened
  · exact sound.untaken

end Sound

theorem entry_eq_none (empty : generator.folder.map OrderedStore.Partition.entries = some []) :
    generator.entry archive = none := by
  obtain ⟨folder, found, noEntries⟩ := Option.map_eq_some_iff.1 empty
  rw [entry, found, Option.bind_some]
  by_contra present
  obtain ⟨file, isEntry⟩ := Option.ne_none_iff_exists'.1 present
  rw [← OrderedStore.Partition.mem_entries, noEntries] at isEntry
  cases isEntry

/-- What the condition says about the archive of a task. -/
theorem complete_of_allowed {action : TaskAction} {step : TaskStep}
    (allowed : generator.allowed (.task id action) = true)
    (running : generator.tasks.get id = some step) (scored : step.daaScore = some daaScore) :
    match action with
    | .fail => generator.complete (archiveName daaScore) = true
    | .look => (generator.entry (archiveName daaScore)).isSome = true →
        generator.complete (archiveName daaScore) = true
    | .create => generator.folder.isSome = true ∧ generator.entry (archiveName daaScore) = none
    | _ => True := by
  cases action with
  | fail => simpa [Generator.allowed, running, scored] using allowed
  | look =>
      intro present
      obtain ⟨file, present⟩ := Option.isSome_iff_exists.1 present
      simpa [Generator.allowed, running, scored, present] using allowed
  | create => simpa [Generator.allowed, running, scored] using allowed
  | _ => trivial

/-- The task fails, which the condition allows if another one has completed the archive. -/
theorem Sound.fail (sound : Sound generator) {step : TaskStep}
    (running : generator.tasks.get id = some step)
    (complete : generator.complete (archiveName daaScore) = true) :
    Sound (generator.setTask id (.failed daaScore)) :=
  sound.setTask (sound.lt_spawned running) (fun archive promises => by
    cases promises
    exact complete) nofun nofun

/-- One step of a task. -/
theorem Sound.taskStep (sound : Sound generator) {action : TaskAction} {step : TaskStep}
    (allowed : generator.allowed (.task id action) = true)
    (running : generator.tasks.get id = some step)
    (moved : generator.taskStep id step action = some next) : Sound next := by
  have taken := sound.lt_spawned running
  cases step with
  | spawned =>
      cases action with
      | name =>
          cases moved
          exact sound.setTask taken nofun nofun fun _ _ => sound.unopened id 0 (.inl running)
      | _ => cases moved
  | named daaScore =>
      have noFile := sound.unopened id daaScore (.inr (.inl running))
      cases action with
      | look =>
          rw [Generator.taskStep] at moved
          split at moved
          · rename_i present
            cases moved
            exact sound.fail running (complete_of_allowed allowed running rfl present)
          · cases moved
            exact sound.setTask taken nofun nofun fun _ _ => noFile
      | fail =>
          cases moved
          exact sound.fail running (complete_of_allowed allowed running rfl)
      | _ => cases moved
  | absent daaScore =>
      cases action with
      | create =>
          cases moved
          obtain ⟨isFolder, noEntry⟩ := complete_of_allowed allowed running rfl
          exact sound.create running isFolder noEntry
      | fail =>
          cases moved
          exact sound.fail running (complete_of_allowed allowed running rfl)
      | _ => cases moved
  | writing daaScore file =>
      cases action with
      | write =>
          obtain ⟨content, found, rfl⟩ := Option.map_eq_some_iff.1 moved
          exact sound.write running found
      | finish =>
          obtain ⟨content, found, rfl⟩ := Option.map_eq_some_iff.1 moved
          exact sound.finish running found
      | fail =>
          cases moved
          exact sound.fail running (complete_of_allowed allowed running rfl)
      | _ => cases moved
  | failed daaScore =>
      have complete := sound.promised id _ _ running rfl
      cases action with
      | forget =>
          cases moved
          have forgotten : Sound { generator with phase := .none } :=
            sound.congr nofun rfl rfl rfl fun _ => rfl
          refine forgotten.setTask taken (fun archive promises => ?_) nofun nofun
          cases promises
          exact complete
      | _ => cases moved
  | announcing daaScore =>
      have complete := sound.promised id _ _ running rfl
      cases action with
      | announce =>
          cases moved
          have announced : Sound { generator with
              phase := .ready (archiveName daaScore) daaScore } :=
            sound.congr (fun archive daaScore ready => by cases ready; exact complete) rfl rfl rfl
              fun _ => rfl
          exact announced.setTask taken nofun nofun nofun
      | _ => cases moved
  | returned => cases action <;> cases moved

/-- One step of the generator. -/
theorem Sound.step (sound : Sound generator) {action : GeneratorAction}
    (allowed : generator.allowed action = true) (moved : generator.step action = some next) :
    Sound next := by
  cases action with
  | advance daaScore =>
      cases moved
      exact sound.congr sound.ready rfl rfl rfl fun _ => rfl
  | generate =>
      simp only [Generator.step] at moved
      split at moved
      · cases moved
        exact sound.congr sound.ready rfl rfl rfl fun _ => rfl
      · cases moved
  | spawn =>
      simp only [Generator.step] at moved
      split at moved
      · cases moved
        exact sound.spawn
      · cases moved
  | reset =>
      cases moved
      exact sound.congr nofun rfl rfl rfl fun _ => rfl
  | removeFile archive =>
      simp only [Generator.step] at moved
      split at moved
      · cases moved
        simp only [Generator.allowed, Bool.and_eq_true, List.all_eq_true, bne_iff_ne] at allowed
        obtain ⟨unannounced, unheld⟩ := allowed
        refine sound.removeFile (fun daaScore ready => ?_) fun id step running =>
          unheld (id, step) (OrderedStore.Partition.mem_entries.2 running)
        rw [ready] at unannounced
        exact absurd rfl (bne_iff_ne.1 unannounced)
      · cases moved
  | removeFolder =>
      simp only [Generator.step] at moved
      split at moved
      · rename_i empty
        cases moved
        exact sound.congr sound.ready rfl rfl rfl fun archive => (entry_eq_none empty.2).symm
      · cases moved
  | createFolder =>
      simp only [Generator.step] at moved
      split at moved
      · cases moved
        refine sound.congr sound.ready rfl rfl rfl fun archive => ?_
        simp only [entry]
        cases generator.folder with
        | none => rfl
        | some folder => rfl
      · cases moved
  | giveUp =>
      simp only [Generator.step] at moved
      split at moved
      · cases moved
        exact sound.congr sound.ready rfl rfl rfl fun _ => rfl
      · cases moved
  | task id action =>
      obtain ⟨step, running, moved⟩ := Option.bind_eq_some_iff.1 moved
      exact sound.taskStep allowed running moved

end Generator

/-- In every run whose steps meet the condition, an archive that is ready is complete. -/
theorem ready_is_complete {start generator : Generator} (fresh : start.Fresh)
    (reach : Reach Generator.step (fun generator action => generator.allowed action = true) start
      generator) : generator.ReadyIsComplete :=
  (reach.invariant fresh.sound fun _ _ _ sound allowed moved => sound.step allowed moved).ready

/-! Runs of one call of `generate`. -/

namespace Sample

/-- The first task looks for its archive and creates it. -/
def begins : List GeneratorAction :=
  [.advance 7, .generate, .spawn, .task 0 .name, .task 0 .look, .task 0 .create, .task 0 .write]

def succeeds : List GeneratorAction := begins ++ [.task 0 .finish, .task 0 .announce]

/-- The disk is full. -/
def fails : List GeneratorAction :=
  begins ++ [.task 0 .fail, .task 0 .forget, .task 0 .announce]

/-- A reset comes while the task writes. -/
def isReset : List GeneratorAction :=
  begins ++ [.reset, .removeFile (archiveName 7), .removeFolder, .createFolder, .task 0 .finish,
    .task 0 .announce]

/-- The phase after a run, and whether the archive of the score is complete. -/
def phaseAfter (allowed : Generator → GeneratorAction → Bool) (actions : List GeneratorAction) :
    Option (PhaseContext × Bool) :=
  (runActions Generator.step allowed {} actions).map fun generator =>
    (generator.phase, generator.complete (archiveName 7))

theorem exists_of_phaseAfter {allowed : Generator → GeneratorAction → Bool}
    {actions : List GeneratorAction} {phase : PhaseContext} {complete : Bool}
    (found : phaseAfter allowed actions = some (phase, complete)) :
    ∃ generator, Reach Generator.step (fun generator action => allowed generator action = true) {}
      generator ∧ generator.phase = phase ∧ generator.complete (archiveName 7) = complete := by
  obtain ⟨generator, run, same⟩ := Option.map_eq_some_iff.1 found
  obtain ⟨samePhase, sameComplete⟩ := Prod.mk.inj same
  exact ⟨generator, .of_runActions run, samePhase, sameComplete⟩

theorem fresh : Generator.Fresh {} := ⟨rfl, rfl, fun _ _ => rfl⟩

end Sample

theorem ready_is_complete_succeeds : ∃ generator : Generator,
    generator.phase = .ready (archiveName 7) 7 ∧ generator.ReadyIsComplete := by
  obtain ⟨generator, reach, ready, _⟩ := @Sample.exists_of_phaseAfter Generator.allowed
    Sample.succeeds (.ready (archiveName 7) 7) true (by decide +kernel)
  exact ⟨generator, ready, ready_is_complete Sample.fresh reach⟩

/-- An archive is announced although its writing has failed, or although a reset has deleted it. -/
theorem not_ready_is_complete :
    Sample.phaseAfter (fun _ _ => true) Sample.fails =
        some (.ready (archiveName 7) 7, false) ∧
      Sample.phaseAfter (fun _ _ => true) Sample.isReset =
        some (.ready (archiveName 7) 7, false) ∧
      ¬ ∀ start generator : Generator, start.Fresh →
        Reach Generator.step (fun _ _ => True) start generator → generator.ReadyIsComplete := by
  have failed : Sample.phaseAfter (fun _ _ => true) Sample.fails =
      some (.ready (archiveName 7) 7, false) := by decide +kernel
  refine ⟨failed, by decide +kernel, fun claim => ?_⟩
  obtain ⟨generator, reach, ready, incomplete⟩ := Sample.exists_of_phaseAfter failed
  have complete := claim {} generator Sample.fresh (reach.mono fun _ _ _ => trivial) _ _ ready
  rw [incomplete] at complete
  cases complete

end Krc721.Snapshot
