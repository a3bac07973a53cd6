import BuildRound.Watchdog

/-!
# Rehearsing a watchdog

Surroundings that follow a script. Each cue says whether work has begun, how the next wait ends, and what
the report after it does. When the cues are used up the wait lasts until it is interrupted. Every question
of the watchdog is noted.
-/

namespace BuildRound

/-- What a report does when it is asked for. -/
inductive ReportCue where
  | answer (reported : Bool)
  | panic
  deriving DecidableEq, Repr

/-- One round of the loop, as the script wants it. -/
structure Cue where
  hasStarted : Bool
  wait : Except Interrupted Nat
  report : ReportCue := .answer false
  deriving Repr

/-- A question that a watchdog asked, with what matters of the answer. -/
inductive WatchdogCall where
  | hasStarted (answer : Bool)
  | wait (timeout : Nanos)
  | report
  | interrupt
  deriving DecidableEq, Repr

/-- A script and how far it was followed. -/
structure Rehearsal where
  cues : List Cue
  pending : Nat := 0
  report : ReportCue := .answer false
  interrupted : Bool := false
  calls : List WatchdogCall := []
  log : List Log.Entry := []
  deriving Repr

namespace Rehearsal

def note (r : Rehearsal) (call : WatchdogCall) : Rehearsal :=
  { r with calls := r.calls ++ [call] }

def say (r : Rehearsal) (entry : Log.Entry) : Rehearsal :=
  { r with log := r.log ++ [entry] }

/-- A wait past the end of the script: it lasts until it is interrupted. -/
def blocked (r : Rehearsal) : Option (Except Interrupted Nat) :=
  if r.interrupted then some (.error .interrupted) else none

/-- The surroundings that the script makes. -/
def surroundings : Surroundings Rehearsal where
  hasStarted r :=
    let answer := r.cues.head?.any Cue.hasStarted
    (answer, r.note (.hasStarted answer))
  enter timeout r :=
    let r := r.note (.wait timeout)
    match r.cues with
    | [] => (r.blocked, r)
    | cue :: rest => (some cue.wait, { r with cues := rest, report := cue.report })
  wake r := (r.blocked, r)
  report r :=
    let r := r.note .report
    match r.report with
    | .answer reported => (.answered reported, r)
    | .panic => (.panicked, r)
  note reported r := r.say (Watchdog.noteEntry r.pending reported)
  interrupt r := { r.note .interrupt with interrupted := true }
  mourn r := r.say Watchdog.mournEntry

/-- More steps than a thread takes before the script is used up and it sleeps or is at its end. -/
def bound (r : Rehearsal) : Nat :=
  8 * (r.cues.length + 1)

/-- Start the watchdog and let its thread follow the script until it sleeps or ends. -/
def start (canSpawn : Bool) (d : Watchdog) (r : Rehearsal) : Bool × Watchdog × Rehearsal :=
  let (ok, d) := d.start canSpawn
  let (d, r) := d.run surroundings r.bound r
  (ok, d, r)

def stop (d : Watchdog) (r : Rehearsal) : Watchdog × Rehearsal :=
  d.stop surroundings r

end Rehearsal

end BuildRound
