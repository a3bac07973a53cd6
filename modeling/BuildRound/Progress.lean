import BuildRound.ArtifactSet
import BuildRound.Log
import BuildRound.Node

/-!
# Progress of a build

An engine notifies the progress of every node it enqueues, evaluates and invalidates, and of every action
that completes. From this the progress knows how many actions there are and how many are done, and records
the requested artifacts that are up to date.

An action's node is evaluated at another moment than its outputs' nodes, and clean or source artifacts
never see an action complete. So requested outputs are recorded with the action, and clean or source
artifacts with their own node; recording twice does no harm.
-/

namespace BuildRound

/-! ## State -/

/-- The completed actions, and whether waiting for further ones was interrupted. -/
structure Activity where
  completed : List ActionId := []
  interrupted : Bool := false
  deriving DecidableEq, Repr

namespace Activity

def complete (a : Activity) (id : ActionId) : Activity :=
  { a with completed := a.completed.insert id }

def interrupt (a : Activity) : Activity :=
  { a with interrupted := true }

end Activity

/-- How far a build has come. -/
structure Progress where
  requested : ArtifactSet
  built : ArtifactSet
  enqueued : List ActionId := []
  activity : Activity := {}

/-- What an engine tells the listener of an evaluation about a node. -/
inductive Notification where
  | invalidated (key : NodeKey)
  | enqueueing (key : NodeKey)
  | evaluated (key : NodeKey) (state : Freshness)
  deriving DecidableEq, Repr

namespace Progress

/-! ## Notifications -/

def showsBuilt (p : Progress) (a : Artifact) (state : Freshness) : Bool :=
  (state = .clean || a.isSource) && p.requested.contains a

/-- The requested artifacts that an evaluated node vouches for. -/
def vouched (p : Progress) (key : NodeKey) (state : Freshness) : List Artifact :=
  match key with
  | .artifact a => if p.showsBuilt a state then [a] else []
  | .action action => action.outputs.filter p.requested.contains
  | .other _ _ => []

/-- Take notice of what the engine tells. -/
def notify (p : Progress) : Notification → Progress
  | .invalidated _ => p
  | .enqueueing (.action action) =>
      if action.isReportWorthy then { p with enqueued := p.enqueued.insert action.id } else p
  | .enqueueing _ => p
  | .evaluated key state => { p with built := p.built.extend (p.vouched key state) }

/-- Take notice of a completed action. -/
def complete (p : Progress) (action : Action) : Progress :=
  if action.isReportWorthy then { p with activity := p.activity.complete action.id } else p

/-- What is logged with a notification. -/
def notifyLog (p : Progress) : Notification → List Log.Entry
  | .evaluated (.artifact a) state =>
      if p.showsBuilt a state then
        [.event .debug "requested artifact up to date" [("artifact", a.text), ("state", state.text)]]
      else []
  | _ => []

/-- Interrupt everyone who waits for completions, now or later. -/
def interruptWaiters (p : Progress) : Progress :=
  { p with activity := p.activity.interrupt }

/-! ## Counts -/

def completedCount (p : Progress) : Nat :=
  p.activity.completed.length

def enqueuedCount (p : Progress) : Nat :=
  p.enqueued.length

/-- Whether any action that counts was enqueued yet. -/
def hasStarted (p : Progress) : Bool :=
  p.enqueuedCount > 0

/-- The progress text for the two counts. The completed actions are counted before the enqueued ones. -/
def countsText (completed enqueued : Nat) : String :=
  "[" ++ toString completed ++ "/" ++ toString enqueued ++ "]"

def text (p : Progress) : String :=
  countsText p.completedCount p.enqueuedCount

end Progress

end BuildRound
