import BuildRound.Command
import BuildRound.Evaluation

/-!
# Evaluation engines

An engine owns the dependency graph, decides what is stale and runs actions. A build round calls it
through the seven programs of `Engine`; while they run they act on the round by commands. The engine's own
state, whatever it is, is handed from one call to the next.
-/

namespace BuildRound

/-- Looks up the digest of an input file. -/
abbrev FileCache := Artifact → Option ByteArray

/-- Decides whether an action has to run although its outputs may be cached. -/
abbrev CacheCheck := Action → Bool

/-- What is installed on the engine while a round runs: the progress that supplies the progress text and
receives completions, and the board of running actions. -/
structure Attachment where
  progress : Nat
  board : Nat
  deriving DecidableEq, Repr

/-- The attached objects as they are shown when debugging, with the progress text and the number of running
actions. -/
def Attachment.text (progress : String) (pending : Nat) : String :=
  "ProgressReportingObjects \x7b progress: \"" ++ progress ++ "\", pending: " ++ toString pending ++ " \x7d"

structure Request where
  artifacts : ArtifactSet
  context : ExecutionContext
  keepGoing : Bool
  jobs : Nat
  needsExecution : CacheCheck
  /-- The progress that listens to the evaluation, if any does. -/
  listener : Option Nat

/-- An evaluation engine with states `σ`. -/
structure Engine (σ : Type) where
  /-- Forget what belongs to the previous round. -/
  prepare : σ → Program σ
  setFileCache : FileCache → σ → Program σ
  /-- Install the objects that show progress, or remove them. -/
  attach : Option Attachment → σ → Program σ
  /-- Look for artifacts that more than one action generates. -/
  findConflicts : σ → Program (Except BuildError Unit × σ)
  /-- Learn which files changed since the previous build. -/
  informModified : ModifiedFiles → σ → Program σ
  /-- Evaluate the requested artifacts. Failed nodes are part of the result; an error is a failure of the
  evaluation as such. -/
  evaluate : Request → σ → Program (Except BuildError EvaluationResult × σ)
  /-- Show the cycles of a failed node. -/
  reportCycles : EvaluationResult.CycleReport → σ → Program σ

/-- A call that a round makes on its engine. -/
inductive Call where
  | prepare
  | setFileCache
  | attach (objects : Attachment)
  | detach
  | findConflicts
  | informModified (files : ModifiedFiles)
  | evaluate (request : Request)
  | reportCycles (report : EvaluationResult.CycleReport)

/-- The progress that listens while a call is answered. Only evaluations are listened to. -/
def Call.listener : Call → Option Nat
  | evaluate request => request.listener
  | _ => none

end BuildRound
