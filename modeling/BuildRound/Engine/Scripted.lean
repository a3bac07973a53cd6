import BuildRound.Engine

/-!
# Scripted engines

An engine that follows scripts instead of building anything: the n-th evaluation of a round performs the
steps of the n-th script and gives its answer. Notifications go to the listener of the evaluation, completed
actions to the progress that is attached, and events to everyone on the bus.
-/

namespace BuildRound

/-! ## Scripts -/

/-- One step of a script. -/
inductive ScriptStep where
  | notify (notification : Notification)
  | complete (action : Action)
  | announce (event : Event)
  | run (actions : List Action)
  | cancel
  | checkCancelled
  | sleep (millis : Nat)
  | progress
  | needsExecution (action : Action)
  | digest (artifact : Artifact)
  | awaitReport
  deriving DecidableEq, Repr

/-- The steps of one evaluation and its answer; without an answer all requested artifacts come out well. -/
structure Script where
  steps : List ScriptStep := []
  answer : Option (Except BuildError EvaluationResult) := none

structure Scripted where
  /-- The scripts of the coming evaluations. -/
  scripts : List Script := []
  conflict : Option BuildError := none
  attached : Option Attachment := none
  /-- The board of what was attached last. -/
  lastBoard : Option Nat := none
  fileCache : FileCache := fun _ => none

namespace Scripted

/-! ## Steps -/

/-- How long a scripted engine waits for a report, and how often it looks. -/
def reportPatience : Nanos × Nat :=
  (Nanos.ofMillis 5, 2000)

def complete (s : Scripted) (action : Action) : Program Unit :=
  match s.attached with
  | none => .done ()
  | some objects => .command (.complete objects.progress action)

def announce (event : Event) : Program Unit :=
  .broadcast (fun _ _ => .done ()) event

/-- Run one action to its successful end. -/
def runAction (s : Scripted) (action : Action) : Program Unit := do
  .command (.notify (.enqueueing (.action action)))
  announce (.started action)
  announce (.completed action 0)
  s.complete action
  .command (.notify (.evaluated (.action action) .built))

/-- Look at everything that is attached. -/
def observeProgress (objects : Attachment) : Program Unit := do
  let text ← Program.progressText objects.progress
  let pending ← Program.command (.readRunning objects.board)
  let again ← Program.progressText objects.progress
  let count ← Program.command (.readRunning objects.board)
  .command (.observe (.progress text pending (Attachment.text again count)))

def perform (s : Scripted) (request : Request) : ScriptStep → Program Unit
  | .notify n => .command (.notify n)
  | .complete action => s.complete action
  | .announce event => announce event
  | .run actions => Program.each s.runAction actions
  | .cancel => .command (.cancel request.context.cancellation)
  | .checkCancelled => do
      let cancelled ← Program.command (.readCancelled request.context.cancellation)
      .command (.observe (.uncancelled !cancelled))
  | .sleep millis =>
      Program.each (fun _ => .command (.rest (Nanos.ofMillis 1))) (List.replicate millis ())
  | .progress =>
      match s.attached with
      | none => .done ()
      | some objects => observeProgress objects
  | .needsExecution action => .command (.observe (.needsExecution (request.needsExecution action)))
  | .digest artifact => .command (.observe (.digest (s.fileCache artifact)))
  | .awaitReport =>
      match s.attached with
      | none => .command (.observe (.reported false))
      | some objects => do
          let (duration, times) := reportPatience
          let reported ← Program.awaitReport objects.board duration times
          .command (.observe (.reported reported))

/-! ## The engine -/

def evaluate (request : Request) (s : Scripted) :
    Program (Except BuildError EvaluationResult × Scripted) := do
  let script := s.scripts.headD {}
  let s := { s with scripts := s.scripts.tail }
  Program.each (s.perform request) script.steps
  return (script.answer.getD (.ok { values := request.artifacts.sorted }), s)

def engine : Engine Scripted where
  prepare s := .done s
  setFileCache cache s := .done { s with fileCache := cache }
  attach
    | none, s => .done { s with attached := none }
    | some objects, s => .done { s with attached := some objects, lastBoard := some objects.board }
  findConflicts s :=
    .done (match s.conflict with
      | none => (.ok (), s)
      | some e => (.error e, s))
  informModified _ s := .done s
  evaluate := evaluate
  reportCycles _ s := .done s

end Scripted

end BuildRound
