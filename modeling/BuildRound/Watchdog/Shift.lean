import BuildRound.Watchdog

/-!
# A watchdog's diary

The thread of a watchdog from its start, step by step, among surroundings that answer as they like and change on their
own. Anyone may raise the stop flag at any moment. A diary keeps each look at the flag, each call of the surroundings
with its answer, and when the flag was raised.
-/

namespace BuildRound

namespace Shift

/-- What the diary tells. Only the raising of the flag is not the thread's own doing. -/
inductive Entry where
  | raised
  | looked (stop : Bool)
  | asked (started : Bool)
  /-- A wait begins. -/
  | waits (timeout : Nanos)
  | woke (answer : Except Interrupted Nat)
  /-- A report begins. -/
  | reports
  /-- The report is over. Without a reply it panicked. -/
  | reported (reply : Option Bool)
  /-- The pending actions were counted, for the log. -/
  | counted
  deriving Repr

def Entry.isRaised : Entry → Bool
  | raised => true
  | _ => false

def Entry.isReports : Entry → Bool
  | reports => true
  | _ => false

/-- A step of someone. -/
inductive Move (ε : Type) where
  | thread
  | raise
  | others (change : ε → ε)

/-- How a report ended, if it did. -/
def reply? : ReportReply → Option (Option Bool)
  | .busy => none
  | .panicked => some none
  | .answered reported => some (some reported)

end Shift

/-- A watchdog with its surroundings and its diary. -/
structure Shift (ε : Type) where
  dog : Watchdog
  around : ε
  diary : List Shift.Entry := []

namespace Shift

variable {ε : Type}

/-- A watchdog that was made and started just now. -/
def posted (interval : Nanos) (around : ε) : Shift ε :=
  { dog := ((Watchdog.ofInterval interval).start true).2, around }

/-- What the thread itself wrote. -/
def own (d : Shift ε) : List Entry :=
  d.diary.filter (!·.isRaised)

/-- Whether a report has begun and is not over. -/
def reporting (d : Shift ε) : Bool :=
  d.own.getLast?.any Entry.isReports

/-- What the thread writes in its next step. A report that goes on is not written down again. -/
def entries (s : Surroundings ε) (d : Shift ε) : List Entry :=
  match d.dog.thread with
  | some .head | some .judge => [.looked d.dog.stopping]
  | some .ask => [.asked (s.hasStarted d.around).1]
  | some (.enter _) => .waits d.dog.interval :: (s.enter d.dog.interval d.around).1.toList.map .woke
  | some (.asleep _) => (s.wake d.around).1.toList.map .woke
  | some .report =>
      (if d.reporting then [] else [.reports]) ++ (reply? (s.report d.around).1).toList.map .reported
  | some (.note _) => [.counted]
  | some (.ended _) | none => []

/-- The thread takes its next step. -/
def attend (s : Surroundings ε) (d : Shift ε) : Shift ε :=
  let (dog, around) := d.dog.step s d.around
  ⟨dog, around, d.diary ++ d.entries s⟩

def raise (d : Shift ε) : Shift ε :=
  { d with dog := { d.dog with stopping := true }, diary := d.diary ++ [.raised] }

/-- Let someone take a step. -/
def move (s : Surroundings ε) (d : Shift ε) : Move ε → Shift ε
  | .thread => d.attend s
  | .raise => d.raise
  | .others change => { d with around := change d.around }

def run (s : Surroundings ε) (d : Shift ε) (moves : List (Move ε)) : Shift ε :=
  moves.foldl (move s) d

end Shift

end BuildRound
