import BuildRound.Error
import BuildRound.Log
import BuildRound.Node

/-!
# Results of an evaluation

An evaluation answers with the artifacts that came out well and the nodes that failed, in the order in
which the engine met them. `EvaluationResult.verdict` decides what a result means under the failure
policy: with keep-going, failures are absorbed; without it, a cycle anywhere is a plain build failure,
and otherwise the first failed node's own cause ends the round.
-/

namespace BuildRound

/-! ## Results -/

/-- A circular dependency and the way to it from the node that failed. -/
structure Cycle where
  pathTo : List NodeKey
  nodes : List NodeKey
  deriving DecidableEq, Repr

/-- A node that could not be evaluated. -/
structure FailedNode where
  key : NodeKey
  cause : Option Cause := none
  cycles : List Cycle := []
  deriving DecidableEq, Repr

/-- Whether the node failed over a cycle. -/
def FailedNode.hasCycles (f : FailedNode) : Bool :=
  !f.cycles.isEmpty

/-- What one evaluation brought. -/
structure EvaluationResult where
  values : List Artifact := []
  errors : List FailedNode := []
  deriving DecidableEq, Repr

namespace EvaluationResult

def hasError (r : EvaluationResult) : Bool :=
  !r.errors.isEmpty

def hasCycles (r : EvaluationResult) : Bool :=
  r.errors.any FailedNode.hasCycles

/-! ## The verdict -/

/-- A call to the cycle reporter: a failed node and its cycles. -/
structure CycleReport where
  cycles : List Cycle
  key : NodeKey
  deriving DecidableEq, Repr

/-- The reports that go out before the verdict: one for each failed node, with or without cycles. -/
def cycleReports (r : EvaluationResult) : List CycleReport :=
  r.errors.map (fun f => ⟨f.cycles, f.key⟩)

/-- The error when the first failed node says nothing about its cause. -/
def unexplained : BuildError :=
  .internal ⟨"evaluation failed without a recorded cause", []⟩

/-- What a result means under the failure policy: whether it was a success, or the error that ends the
round. -/
def verdict (r : EvaluationResult) (keepGoing : Bool) : Except BuildError Bool :=
  match r.errors with
  | [] => .ok true
  | first :: _ =>
      if keepGoing then .ok false
      else if r.hasCycles then .error (.buildFailed none)
      else
        match first.cause with
        | some cause => .error cause.toBuildError
        | none => .error unexplained

/-- What is logged with the verdict: absorbed failures get a warning. -/
def verdictLog (r : EvaluationResult) (keepGoing : Bool) : List Log.Entry :=
  if r.hasError && keepGoing then
    [.event .warn "evaluation failed, continuing"
      [("failed_nodes", toString r.errors.length), ("has_cycles", Log.flag r.hasCycles)]]
  else []

end EvaluationResult

/-! ## Modified files -/

/-- Which input files changed since the previous build. -/
inductive ModifiedFiles where
  | everything
  | paths (ps : List Path)
  deriving DecidableEq, Repr

namespace ModifiedFiles

/-- Put a path into an ordered list; an equal path that is already there gives way. -/
def insertPath (p : Path) : List Path → List Path
  | [] => [p]
  | q :: qs =>
      match Path.order p q with
      | .lt => p :: q :: qs
      | .eq => p :: qs
      | .gt => q :: insertPath p qs

/-- Exactly the listed paths, in order; of equal ones the last is kept. -/
def ofPaths (ps : List Path) : ModifiedFiles :=
  .paths (ps.foldl (fun qs p => insertPath p qs) [])

def nothing : ModifiedFiles :=
  .paths []

def isEverything : ModifiedFiles → Bool
  | everything => true
  | paths _ => false

def count? : ModifiedFiles → Option Nat
  | everything => none
  | paths ps => some ps.length

end ModifiedFiles

end BuildRound
