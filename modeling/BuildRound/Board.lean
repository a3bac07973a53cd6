import BuildRound.Bus

/-!
# The board of running actions

A board listens on the event bus and holds the actions that were started and have not finished. Its
report names those that run longest and says how many there are.
-/

namespace BuildRound

/-- An action that has started: what it is called and since when it runs. -/
structure RunningAction where
  description : String
  started : Nanos
  deriving DecidableEq, Repr

/-- The running actions, where the board is registered, and how many reports went out. -/
structure Board where
  running : List (ActionId × RunningAction) := []
  registration : Option ListenerId := none
  reportsShown : Nat := 0
  deriving DecidableEq, Repr

namespace Board

/-! ## Following the events -/

def finish (b : Board) (id : ActionId) : Board :=
  { b with running := b.running.filter (·.1 ≠ id) }

/-- Put an action on the board, instead of what was there under its id. -/
def start (b : Board) (id : ActionId) (action : RunningAction) : Board :=
  { b with running := (b.finish id).running ++ [(id, action)] }

def receive (b : Board) (now : Nanos) : Event → Board
  | .started action => b.start action.id ⟨action.describe, now⟩
  | .completed action _ => b.finish action.id
  | .failed action _ _ => b.finish action.id

def count (b : Board) : Nat :=
  b.running.length

/-! ## Registration -/

/-- Register a new board on the bus, as the listener that `asListener` makes of it. -/
def create {ℓ : Type} (bus : Bus ℓ) (listener : ℓ) : Board × Bus ℓ :=
  let (id, bus) := bus.register listener
  ({ registration := some id }, bus)

/-- Take the board off the bus. Only the first call has an effect. -/
def leave {ℓ : Type} (b : Board) (bus : Bus ℓ) : Board × Bus ℓ :=
  match b.registration with
  | none => (b, bus)
  | some id => ({ b with registration := none }, (bus.unregister id).2)

/-! ## The report -/

/-- How many actions a report names. -/
def reportLimit : Nat := 5

/-- The running actions, the one that started first in front. -/
def oldestFirst (running : List RunningAction) : List RunningAction :=
  running.mergeSort (fun a b => a.started ≤ b.started)

/-- The line of a report for one action; an action that starts in the future has run for no time. -/
def line (now : Nanos) (action : RunningAction) : String :=
  "\n  " ++ action.description ++ ", " ++ toString (Nanos.seconds (now - action.started)) ++ " s"

/-- The report on the given actions, or nothing if there are none. -/
def renderActions (progress : String) (now : Nanos) (running : List RunningAction) : Option String :=
  if running.isEmpty then none
  else
    let n := running.length
    let noun := if n = 1 then "action" else "actions"
    let header := progress ++ "Still waiting for " ++ toString n ++ " " ++ noun ++ " to complete:"
    let lines := ((oldestFirst running).take reportLimit).map (line now)
    let rest := if n > reportLimit then ["\n  ... " ++ toString (n - reportLimit) ++ " more"] else []
    some (String.join (header :: lines ++ rest))

def render (b : Board) (progress : String) (now : Nanos) : Option String :=
  renderActions progress now (b.running.map (·.2))

/-- One more report went out. -/
def countReport (b : Board) : Board :=
  { b with reportsShown := b.reportsShown + 1 }

end Board

end BuildRound
