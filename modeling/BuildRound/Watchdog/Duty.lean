import BuildRound.World

/-!
# A watchdog on duty

The thread of a watchdog beside the one that stops it and everybody else, step by step. A check in vain keeps the
lock on the completed actions until the thread has fallen asleep, in a step of its own. Whoever stops the watchdog
raises the flag, interrupts the progress under that lock, wakes the sleepers without it, and waits for the end of
the thread. Every question of the thread is noted.
-/

namespace BuildRound

namespace Duty

/-- How deep the thread is in its wait. -/
inductive Nap where
  | awake
  /-- It checked in vain, still holds the lock and is about to fall asleep. -/
  | holding
  /-- Asleep; `notified` once someone woke the sleepers. -/
  | asleep (notified : Bool)
  /-- Awake again, about to take the lock and check. -/
  | roused
  deriving DecidableEq, Repr

def Nap.wake : Nap → Nap
  | asleep _ => asleep true
  | n => n

/-- How far stopping has come. -/
inductive Stop where
  /-- Nobody stops the watchdog yet, or the flag is about to be raised. -/
  | calling
  | flagged
  /-- The progress is interrupted, the sleepers are still to be woken. -/
  | interrupted
  /-- About to join the thread, once that is at its end. -/
  | joining
  | returned
  deriving DecidableEq, Repr

/-- What the thread asks of the progress and of the reporter, and how its waits end. -/
inductive Inquiry where
  | hasStarted
  | wait
  | answered (answer : Except Interrupted Nat)
  | report
  | pending
  deriving Repr

def Inquiry.isReport : Inquiry → Bool
  | report => true
  | _ => false

/-- One step of someone. -/
inductive Beat where
  | watchdog
  | stopper
  /-- Someone who completed an action wakes the sleepers. -/
  | wake
  | perform (listener : Option Nat) (command : Command)
  | exclude
  | pass (duration : Nanos)
  | cancel (token : Token)

def Beat.isWatchdog : Beat → Bool
  | watchdog => true
  | _ => false

end Duty

/-- A watchdog at work in a world, how deep it sleeps, how far stopping it has come, and what it asked so far. -/
structure Duty where
  world : World
  nap : Duty.Nap := .awake
  stop : Duty.Stop := .calling
  asked : List Duty.Inquiry := []

namespace Duty

def thread (d : Duty) : Option Loop :=
  d.world.watch.dog.thread

def stage (d : Duty) : ReportStage :=
  d.world.watch.stage

/-- What the thread asks in its next step. A report is asked for when it begins. -/
def inquiries (w : World) : List Inquiry :=
  match w.watch.dog.thread with
  | some .ask => [.hasStarted]
  | some (.enter _) =>
      .wait :: (World.surroundings.enter w.watch.dog.interval w).1.toList.map .answered
  | some (.asleep _) => (World.surroundings.wake w).1.toList.map .answered
  | some .report => if w.watch.stage = .idle then [.report] else []
  | some (.note _) => [.pending]
  | _ => []

/-- How deep the thread sleeps after a step of its loop. -/
def napAfter (w : World) : Nap :=
  match w.watch.dog.thread with
  | some (.asleep _) => .holding
  | _ => .awake

/-- The loop takes its next step. -/
def proceed (d : Duty) : Duty :=
  { d with
    world := d.world.moveWatchdog
    nap := napAfter d.world.moveWatchdog
    asked := d.asked ++ inquiries d.world }

/-- The next step of the thread. A sleeper that takes a step wakes up, for whatever reason. -/
def attend (d : Duty) : Duty :=
  match d.nap with
  | .holding => { d with nap := .asleep false }
  | .asleep _ => { d with nap := .roused }
  | .awake | .roused => d.proceed

/-- The next step of whoever stops the watchdog. -/
def halt (d : Duty) : Duty :=
  match d.stop with
  | .calling =>
      { d with world := World.withDog ({ d.world.watch.dog with stopping := true }, d.world), stop := .flagged }
  | .flagged =>
      if d.nap = .holding then d
      else { d with world := World.surroundings.interrupt d.world, stop := .interrupted }
  | .interrupted => { d with nap := d.nap.wake, stop := .joining }
  | .joining =>
      if d.thread.any Loop.isEnded then { d with world := d.world.joinWatchdog, stop := .returned } else d
  | .returned => d

/-- Whether a command takes the lock that is held from a check in vain to the sleep after it. -/
def needsLock (watched : Nat) : Command → Bool
  | .complete i _ | .readCompleted i => i = watched
  | _ => false

/-- Let someone take a step. Who needs the lock does nothing while the thread holds it. -/
def beat (d : Duty) : Beat → Duty
  | .watchdog => d.attend
  | .stopper => d.halt
  | .wake => { d with nap := d.nap.wake }
  | .perform listener command =>
      if d.nap = .holding ∧ needsLock d.world.watch.progress command then d
      else { d with world := (d.world.perform listener command).2 }
  | .exclude => { d with world := { d.world with watch := { d.world.watch with exclusive := true } } }
  | .pass duration => { d with world := { d.world with clock := d.world.clock + duration } }
  | .cancel token => { d with world := d.world.move (.cancel token) }

def run (d : Duty) (beats : List Beat) : Duty :=
  beats.foldl beat d

/-- Whatever happened since the thread was started. -/
def Reachable (d : Duty) : Prop :=
  ∃ (w : World) (beats : List Beat), w.watch.dog.thread = some .head ∧
    (w.progresses[w.watch.progress]?).isSome = true ∧ d = run { world := w } beats

end Duty

end BuildRound
