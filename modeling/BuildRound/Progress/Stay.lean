import BuildRound.Progress.Wait

/-!
# A call amid everyone else

One call that waits for a completion, step by step, while others tell the progress of nodes and actions and interrupt.
The call has the lock from when it begins or wakes up until it falls asleep or returns, and meanwhile nobody completes
an action or interrupts. Time passes whenever it likes. A record keeps what the call found when it began and at each of
its checks, and what came of them.
-/

namespace BuildRound

namespace Stay

/-- What a call finds while it has the lock. -/
structure Sight where
  now : Nanos
  activity : Activity
  deriving DecidableEq, Repr

/-- What comes of a check. -/
inductive Upshot where
  | returns (result : Except Interrupted Nat)
  /-- The call goes to sleep, for this time at most. -/
  | sleeps (span : Nanos)
  deriving Repr

structure Check where
  found : Sight
  upshot : Upshot
  deriving Repr

/-- Where the call stands. -/
inductive Place where
  /-- About to take the lock. -/
  | arriving
  /-- It has the lock and is about to check. -/
  | checking (call : Wait)
  | asleep (call : Wait)
  | returned (result : Except Interrupted Nat)
  deriving Repr

def Place.hasLock : Place → Bool
  | checking _ => true
  | _ => false

/-- A step of someone. -/
inductive Move where
  /-- The call goes on. If it is asleep it wakes up, be it notified, its time up, or for no reason. -/
  | proceed
  | pass (duration : Nanos)
  | tell (notification : Notification)
  | complete (action : Action)
  | interrupt
  deriving Repr

end Stay

/-- A call with this timeout, the progress and the clock, and the record of the call. -/
structure Stay where
  progress : Progress
  clock : Nanos
  timeout : Nanos
  place : Stay.Place := .arriving
  begun : Option Stay.Sight := none
  checks : List Stay.Check := []

namespace Stay

def sight (s : Stay) : Sight :=
  ⟨s.clock, s.progress.activity⟩

def Sight.upshot (f : Sight) (call : Wait) : Upshot :=
  match call.check f.now f.activity with
  | some result => .returns result
  | none => .sleeps (call.remaining f.now)

def Upshot.place (call : Wait) : Upshot → Place
  | returns result => .returned result
  | sleeps _ => .asleep call

/-- The next step of the call. Time may pass between its beginning and its first check. -/
def proceed (s : Stay) : Stay :=
  match s.place with
  | .arriving =>
      { s with place := .checking (.enter s.timeout s.clock s.progress.activity), begun := some s.sight }
  | .checking call =>
      let upshot := s.sight.upshot call
      { s with place := upshot.place call, checks := s.checks ++ [⟨s.sight, upshot⟩] }
  | .asleep call => { s with place := .checking call }
  | .returned _ => s

/-- Let someone take a step. Who needs the lock does nothing while the call has it. -/
def move (s : Stay) : Move → Stay
  | .proceed => s.proceed
  | .pass duration => { s with clock := s.clock + duration }
  | .tell notification => { s with progress := s.progress.notify notification }
  | .complete action =>
      if s.place.hasLock && action.isReportWorthy then s else { s with progress := s.progress.complete action }
  | .interrupt => if s.place.hasLock then s else { s with progress := s.progress.interruptWaiters }

def run (s : Stay) (moves : List Move) : Stay :=
  moves.foldl move s

/-- Whatever happened since the progress was made, before the call and during it. -/
def Reachable (s : Stay) : Prop :=
  ∃ requested built clock timeout moves,
    s = run { progress := { requested, built }, clock, timeout } moves

end Stay

end BuildRound
