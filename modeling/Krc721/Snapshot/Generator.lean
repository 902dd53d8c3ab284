import Krc721.Store.Partition
import Krc721.Transition.Reach

/-! The generator of snapshots. Handlers of requests and the tasks they spawn share the phase and
the snapshot folder, and each of their steps may fall between any two steps of the others. -/

set_option autoImplicit false

namespace Krc721.Snapshot

open Transition

/-- `PhaseContext`, without the progress. -/
inductive PhaseContext where
  | none
  | archiving
  | restoring
  | ready (archive : String) (daaScore : ℕ)
deriving DecidableEq

/-- The bytes of a file in the snapshot folder: a task has begun to write its archive, or has
written all of it, or others have written over it. -/
inductive Content where
  | begun (task : ℕ)
  | whole (task : ℕ)
  | mixed
deriving DecidableEq

namespace Content

def write (content : Content) (task : ℕ) : Content :=
  if content = .begun task then content else .mixed

/-- A task writes the last bytes. -/
def finish (content : Content) (task : ℕ) : Content :=
  if content = .begun task then .whole task else .mixed

end Content

/-- Where a spawned task is: it has read the score, has not found the archive in the folder, has the
file open; it has failed, or goes on to announce the archive. -/
inductive TaskStep where
  | spawned
  | named (daaScore : ℕ)
  | absent (daaScore : ℕ)
  | writing (daaScore file : ℕ)
  | failed (daaScore : ℕ)
  | announcing (daaScore : ℕ)
  | returned
deriving DecidableEq

/-- The generator, its folder and the calls that are under way. A name in the folder leads to a
file, which stays where it is when the name is deleted. -/
structure Generator where
  phase : PhaseContext := .none
  folder : Option (OrderedStore.Partition String ℕ) := some ∅
  files : OrderedStore.Partition ℕ Content := ∅
  tasks : OrderedStore.Partition ℕ TaskStep := ∅
  spawned : ℕ := 0
  currentDaaScore : ℕ := 0
  generating : ℕ := 0
  removing : ℕ := 0
  creating : ℕ := 0

inductive TaskAction where
  | name
  | look
  | create
  | write
  | finish
  | fail
  | forget
  | announce
deriving DecidableEq

inductive GeneratorAction where
  | advance (daaScore : ℕ)
  | generate
  | spawn
  | reset
  | removeFile (archive : String)
  | removeFolder
  | createFolder
  | giveUp
  | task (id : ℕ) (action : TaskAction)

def archiveName (daaScore : ℕ) : String := s!"snapshot-{daaScore}.krc721"

namespace Generator

/-- The file that a name leads to. -/
def entry (generator : Generator) (archive : String) : Option ℕ :=
  generator.folder.bind fun folder => folder.get archive

def setTask (generator : Generator) (id : ℕ) (step : TaskStep) : Generator :=
  { generator with tasks := generator.tasks.insert id step }

def setFile (generator : Generator) (file : ℕ) (content : Content) : Generator :=
  { generator with files := generator.files.insert file content }

/-- `fs::File::create`, which empties a file that exists. -/
def createFile (generator : Generator) (id daaScore : ℕ) : Generator :=
  match generator.folder with
  | none => generator.setTask id (.failed daaScore)
  | some folder =>
      match folder.get (archiveName daaScore) with
      | some file =>
          (generator.setFile file (.begun id)).setTask id (.writing daaScore file)
      | none =>
          ({ generator with folder := some (folder.insert (archiveName daaScore) id) }.setFile id
            (.begun id)).setTask id (.writing daaScore id)

/-- The task of `generate`. After a failure it forgets the phase and then announces the archive
like a task that has succeeded. -/
def taskStep (generator : Generator) (id : ℕ) : TaskStep → TaskAction → Option Generator
  | .spawned, .name => some (generator.setTask id (.named generator.currentDaaScore))
  | .named daaScore, .look =>
      if (generator.entry (archiveName daaScore)).isSome then
        some (generator.setTask id (.failed daaScore))
      else some (generator.setTask id (.absent daaScore))
  | .named daaScore, .fail => some (generator.setTask id (.failed daaScore))
  | .absent daaScore, .create => some (generator.createFile id daaScore)
  | .absent daaScore, .fail => some (generator.setTask id (.failed daaScore))
  | .writing _ file, .write =>
      (generator.files.get file).map fun content =>
        generator.setFile file (content.write id)
  | .writing daaScore file, .finish =>
      (generator.files.get file).map fun content =>
        (generator.setFile file (content.finish id)).setTask id (.announcing daaScore)
  | .writing daaScore _, .fail => some (generator.setTask id (.failed daaScore))
  | .failed daaScore, .forget =>
      some ({ generator with phase := .none }.setTask id (.announcing daaScore))
  | .announcing daaScore, .announce =>
      some ({ generator with phase := .ready (archiveName daaScore) daaScore }.setTask id .returned)
  | _, _ => none

/-- A step of `generate`, of `reset`, of a task, or of the score. -/
def step (generator : Generator) : GeneratorAction → Option Generator
  | .advance daaScore => some { generator with currentDaaScore := daaScore }
  | .generate =>
      if generator.phase = .none then some { generator with generating := generator.generating + 1 }
      else none
  | .spawn =>
      if 0 < generator.generating then
        some { generator with
          phase := .archiving
          generating := generator.generating - 1
          tasks := generator.tasks.insert generator.spawned .spawned
          spawned := generator.spawned + 1 }
      else none
  | .reset =>
      some { generator with
        phase := .none
        removing := generator.removing + 1 }
  | .removeFile archive =>
      if 0 < generator.removing then
        some { generator with folder := generator.folder.map fun folder => folder.erase archive }
      else none
  | .removeFolder =>
      if 0 < generator.removing ∧
          generator.folder.map OrderedStore.Partition.entries = some [] then
        some { generator with
          folder := none
          removing := generator.removing - 1
          creating := generator.creating + 1 }
      else none
  | .createFolder =>
      if 0 < generator.creating then
        some { generator with
          folder := some (generator.folder.getD ∅)
          creating := generator.creating - 1 }
      else none
  | .giveUp =>
      if 0 < generator.removing then some { generator with removing := generator.removing - 1 }
      else none
  | .task id action =>
      (generator.tasks.get id).bind fun taskStep => generator.taskStep id taskStep action

/-- The folder has a file of the name that a task has written completely. -/
def complete (generator : Generator) (archive : String) : Bool :=
  match (generator.entry archive).bind generator.files.get with
  | some (.whole _) => true
  | _ => false

def ReadyIsComplete (generator : Generator) : Prop :=
  ∀ archive daaScore, generator.phase = .ready archive daaScore → generator.complete archive = true

end Generator

end Krc721.Snapshot
