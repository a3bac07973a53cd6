import BuildRound.Duration
import BuildRound.Progress

/-!
# Waiting for a completion

A call that waits remembers how many actions were complete when it began and when that was. Each time it
holds the lock it checks: an interruption comes first, then a completion since it began, then the end of
its time; otherwise it goes back to sleep for the time that is left. Why it woke up does not matter.
-/

namespace BuildRound

/-- A wait ended because the one who waits is to stop. -/
inductive Interrupted where
  | interrupted
  deriving DecidableEq, Repr

def Interrupted.message (_ : Interrupted) : String :=
  "wait for action completion was interrupted"

/-- A call that waits for the next completion. -/
structure Wait where
  timeout : Nanos
  before : Nat
  start : Nanos
  deriving DecidableEq, Repr

namespace Wait

def enter (timeout now : Nanos) (a : Activity) : Wait :=
  ⟨timeout, a.completed.length, now⟩

/-- The check under the lock: how the call ends, or `none` if it sleeps on. -/
def check (w : Wait) (now : Nanos) (a : Activity) : Option (Except Interrupted Nat) :=
  if a.interrupted then some (.error .interrupted)
  else if a.completed.length - w.before > 0 then some (.ok (a.completed.length - w.before))
  else if now - w.start ≥ w.timeout then some (.ok 0)
  else none

def remaining (w : Wait) (now : Nanos) : Nanos :=
  w.timeout - (now - w.start)

def deadline (w : Wait) : Nanos :=
  w.start + w.timeout

/-- A whole call during which nothing else happens: how it ends and when. -/
def undisturbed (timeout now : Nanos) (a : Activity) : Except Interrupted Nat × Nanos :=
  let w := enter timeout now a
  match w.check now a with
  | some r => (r, now)
  | none =>
      match w.check w.deadline a with
      | some r => (r, w.deadline)
      | none => (.ok 0, w.deadline)

end Wait

end BuildRound
