import BuildRound.Artifact

/-!
# Nodes of the evaluation graph

An engine evaluates nodes: one for each artifact, one for each action that runs, and whatever others it
keeps.
-/

namespace BuildRound

/-- The key of one node of the evaluation graph. -/
inductive NodeKey where
  | artifact (a : Artifact)
  | action (a : Action)
  | other (type name : String)
  deriving DecidableEq, Repr

namespace NodeKey

inductive Kind where
  | artifact
  | actionExecution
  | other (type : String)
  deriving DecidableEq, Repr

def kind : NodeKey → Kind
  | artifact _ => .artifact
  | action _ => .actionExecution
  | other type _ => .other type

/-- What decides whether two keys name the same node. -/
inductive Identity where
  | artifact (a : Artifact.Identity)
  | action (id : ActionId)
  | other (type name : String)
  deriving DecidableEq, Repr

/-- A key without the spelling of paths and the contents of actions. -/
def identity : NodeKey → Identity
  | artifact a => .artifact a.identity
  | action a => .action a.id
  | other type name => .other type name

def same (j k : NodeKey) : Bool :=
  j.identity = k.identity

def action? : NodeKey → Option Action
  | action a => some a
  | _ => none

/-- Whether the node runs an action that counts towards progress. -/
def isReportWorthy (k : NodeKey) : Bool :=
  k.action?.any Action.isReportWorthy

/-- A key is shown as its type and its name. -/
def text : NodeKey → String
  | artifact a => "ARTIFACT:" ++ a.text
  | action a => "ACTION_EXECUTION:" ++ a.id.text
  | other type name => type ++ ":" ++ name

end NodeKey

/-- How a node came to have its value in this evaluation. -/
inductive Freshness where
  | built
  | clean
  deriving DecidableEq, Repr

/-- A state as log entries show it. -/
def Freshness.text : Freshness → String
  | .built => "Built"
  | .clean => "Clean"

end BuildRound
