import BuildRound.Log
import BuildRound.Progress.Wait

/-!
# The watchdog

A second thread that waits for completions, one interval at a time, and asks for a report when an interval
passes without any after work had begun. The thread is a loop that takes one step at a time; what it asks
is answered by its surroundings, so the same loop runs beside a build and beside a prepared script.

A stopped watchdog stays stopped: a thread that is started later ends at its first look at the flag.
-/

namespace BuildRound

/-! ## The loop -/

/-- Where the thread of a watchdog stands. -/
inductive Loop where
  /-- About to look at the stop flag. -/
  | head
  | ask
  | enter (started : Bool)
  | asleep (started : Bool)
  /-- Nothing completed although work had begun; about to look at the stop flag once more. -/
  | judge
  | report
  /-- About to note whether there was a report. -/
  | note (reported : Bool)
  /-- The thread is at its end. -/
  | ended (panicked : Bool)
  deriving DecidableEq, Repr

def Loop.isEnded : Loop → Bool
  | ended _ => true
  | _ => false

/-- Where the thread stands after its wait: interruption ends it, a completion starts it over, and an
interval that passed without one is judged if work had begun. -/
def Loop.afterWait (started : Bool) : Option (Except Interrupted Nat) → Loop
  | none => asleep started
  | some (.error _) => ended false
  | some (.ok 0) => if started then judge else head
  | some (.ok _) => head

/-- How far a report has come. -/
inductive ReportReply where
  | busy
  | panicked
  | answered (reported : Bool)
  deriving DecidableEq, Repr

/-- What surrounds a watchdog: whom it watches and whom it asks for reports. -/
structure Surroundings (ε : Type) where
  /-- Whether any work was enqueued yet. -/
  hasStarted : ε → Bool × ε
  /-- Begin to wait for so long; the answer is `none` while nothing ends the wait. -/
  enter : Nanos → ε → Option (Except Interrupted Nat) × ε
  /-- Wake up during a wait. -/
  wake : ε → Option (Except Interrupted Nat) × ε
  /-- Begin or go on with a report. -/
  report : ε → ReportReply × ε
  /-- Log that an interval passed without a completion. -/
  note : Bool → ε → ε
  /-- Cut short the wait that is in progress and all later ones. -/
  interrupt : ε → ε
  /-- Log that the thread panicked. -/
  mourn : ε → ε

/-- A watchdog: how long it waits, whether it was told to stop, its thread if one was started and not
joined, and how many were started and joined. -/
structure Watchdog where
  interval : Nanos
  stopping : Bool := false
  thread : Option Loop := none
  spawned : Nat := 0
  joined : Nat := 0
  deriving DecidableEq, Repr

namespace Watchdog

variable {ε : Type}

/-- The next step of a thread. -/
def advance (s : Surroundings ε) (interval : Nanos) (stopping : Bool) : Loop → ε → Loop × ε
  | .head, e => (if stopping then .ended false else .ask, e)
  | .ask, e =>
      let (started, e) := s.hasStarted e
      (.enter started, e)
  | .enter started, e =>
      let (answer, e) := s.enter interval e
      (.afterWait started answer, e)
  | .asleep started, e =>
      let (answer, e) := s.wake e
      (.afterWait started answer, e)
  | .judge, e => (if stopping then .head else .report, e)
  | .report, e =>
      match s.report e with
      | (.busy, e) => (.report, e)
      | (.panicked, e) => (.ended true, e)
      | (.answered reported, e) => (.note reported, e)
  | .note reported, e => (.head, s.note reported e)
  | .ended panicked, e => (.ended panicked, e)

/-- Let the thread take its next step, if there is one. -/
def step (s : Surroundings ε) (d : Watchdog) (e : ε) : Watchdog × ε :=
  match d.thread with
  | none => (d, e)
  | some loop =>
      let (loop, e) := advance s d.interval d.stopping loop e
      ({ d with thread := some loop }, e)

/-- Let the thread take at most `n` steps, until it is at its end. -/
def run (s : Surroundings ε) : Nat → Watchdog → ε → Watchdog × ε
  | 0, d, e => (d, e)
  | n + 1, d, e =>
      if d.thread.any Loop.isEnded then (d, e)
      else
        let (d, e) := d.step s e
        run s n d e

/-! ## Making, starting and stopping -/

/-- The shortest interval between reports. -/
def minInterval : Nanos := Nanos.ofMillis 1

/-- A watchdog that was not started; a shorter interval than the shortest is raised to it. -/
def ofInterval (interval : Nanos) : Watchdog :=
  { interval := max interval minInterval }

/-- What is logged when a watchdog is made. -/
def creationLog (interval : Nanos) : List Log.Entry :=
  if interval < minInterval then
    [.event .warn ("inactivity interval too short, using " ++ Nanos.text minInterval)
      [("interval", Nanos.text interval)]]
  else []

def isRunning (d : Watchdog) : Bool :=
  d.thread.isSome

/-- Start a thread, unless one is running. If none can be started, the watchdog stays as it was; the answer
says whether it runs now. -/
def start (canSpawn : Bool) (d : Watchdog) : Bool × Watchdog :=
  if d.isRunning then (true, d)
  else if canSpawn then (true, { d with thread := some .head, spawned := d.spawned + 1 })
  else (false, d)

/-- More steps than a thread takes once it was told to stop and its wait was interrupted. -/
def joinBound : Nat := 16

/-- Wait for the end of the thread, join it there, and log it if it panicked. -/
def join (s : Surroundings ε) (d : Watchdog) (e : ε) : Watchdog × ε :=
  let (d, e) := d.run s joinBound e
  match d.thread with
  | some (.ended panicked) =>
      ({ d with thread := none, joined := d.joined + 1 }, if panicked then s.mourn e else e)
  | _ => (d, e)

/-- Stop the thread and wait for its end: raise the flag, interrupt the wait, join. Nothing happens if no
thread is running. -/
def stop (s : Surroundings ε) (d : Watchdog) (e : ε) : Watchdog × ε :=
  if d.isRunning then join s { d with stopping := true } (s.interrupt e) else (d, e)

/-- The entry for an interval without a completion. -/
def noteEntry (pending : Nat) (reported : Bool) : Log.Entry :=
  .event .debug "no action completed within interval"
    [("pending", toString pending), ("reported", Log.flag reported)]

def mournEntry : Log.Entry :=
  .event .warn "inactivity watchdog thread panicked" []

/-- The watchdog as it is shown when debugging. -/
def text (d : Watchdog) : String :=
  "InactivityWatchdog \x7b interval: " ++ Nanos.text d.interval ++
    ", running: " ++ Log.flag d.isRunning ++ " \x7d"

end Watchdog

end BuildRound
