import BuildRound.Progress.Wait

/-!
# Waiters and notifiers

Threads that wait for completions and threads that complete actions or interrupt, step by step. What is done
under the lock is one step, and one that checked in vain lets go of the lock and falls asleep in a further
step; until then it keeps everyone else from the lock. A thread that changed something wakes the sleepers in a
further step, after it let go of the lock, and needs no lock for that. A sleeper may wake up notified, because
its time is up, or for no reason at all; it takes the lock again before it checks.
-/

namespace BuildRound.Signal

/-! ## Threads -/

/-- What a thread changes under the lock before it wakes the sleepers. -/
inductive Change where
  | complete (id : ActionId)
  | interrupt
  deriving DecidableEq, Repr

def Change.apply (a : Activity) : Change → Activity
  | complete id => a.complete id
  | interrupt => a.interrupt

/-- Where a thread stands. -/
inductive Thread where
  /-- About to call, with this timeout. -/
  | calling (timeout : Nanos)
  /-- It checked in vain, still holds the lock and is about to fall asleep. -/
  | holding (call : Wait)
  /-- Asleep in a call; `notified` once someone woke the sleepers. -/
  | asleep (call : Wait) (notified : Bool)
  /-- Awake again, about to take the lock and check. -/
  | roused (call : Wait)
  /-- The call came back. -/
  | returned (result : Except Interrupted Nat)
  /-- About to tell that an action completed. -/
  | completing (action : Action)
  /-- About to take the lock and make a change. -/
  | changing (change : Change)
  /-- The change is made, the sleepers are still to be woken. -/
  | waking
  | finished
  deriving Repr

namespace Thread

def holdsLock : Thread → Bool
  | holding _ => true
  | _ => false

def wake : Thread → Thread
  | asleep call _ => asleep call true
  | t => t

/-- The check of a call, and where the thread stands after it. -/
def ofCheck (call : Wait) (now : Nanos) (a : Activity) : Thread :=
  match call.check now a with
  | some result => returned result
  | none => holding call

/-- Only actions that count change anything. -/
def ofAction (action : Action) : Thread :=
  if action.isReportWorthy then changing (.complete action.id) else finished

end Thread

/-! ## The system -/

/-- The shared activity, the clock and all threads. -/
structure Crowd where
  activity : Activity := {}
  clock : Nanos := 0
  threads : List Thread := []
  deriving Repr

namespace Crowd

def isLocked (c : Crowd) : Bool :=
  c.threads.any Thread.holdsLock

def put (c : Crowd) (i : Nat) (thread : Thread) : Crowd :=
  { c with threads := c.threads.set i thread }

def wakeAll (c : Crowd) : Crowd :=
  { c with threads := c.threads.map Thread.wake }

/-- Let a thread take its next step. Who needs the lock does nothing while another thread holds it. A sleeper
that takes a step wakes up, for whatever reason. -/
def advance (c : Crowd) (i : Nat) : Crowd :=
  match c.threads[i]? with
  | none => c
  | some thread =>
      match thread with
      | .calling timeout =>
          if c.isLocked then c
          else c.put i (.ofCheck (Wait.enter timeout c.clock c.activity) c.clock c.activity)
      | .holding call => c.put i (.asleep call false)
      | .asleep call _ => c.put i (.roused call)
      | .roused call => if c.isLocked then c else c.put i (.ofCheck call c.clock c.activity)
      | .completing action => c.put i (.ofAction action)
      | .changing change =>
          if c.isLocked then c
          else { c with activity := change.apply c.activity, threads := c.threads.set i .waking }
      | .waking => c.wakeAll.put i .finished
      | .returned _ => c
      | .finished => c

def pass (c : Crowd) (duration : Nanos) : Crowd :=
  { c with clock := c.clock + duration }

def join (c : Crowd) (thread : Thread) : Crowd :=
  { c with threads := c.threads ++ [thread] }

/-- The steps of the system: a thread moves, time passes, or a thread joins that is about to wait, to tell of a
completed action, or to interrupt. -/
inductive Step : Crowd → Crowd → Prop where
  | advance (c : Crowd) (i : Nat) : Step c (c.advance i)
  | pass (c : Crowd) (duration : Nanos) : Step c (c.pass duration)
  | call (c : Crowd) (timeout : Nanos) : Step c (c.join (.calling timeout))
  | complete (c : Crowd) (action : Action) : Step c (c.join (.completing action))
  | interrupt (c : Crowd) : Step c (c.join (.changing .interrupt))

end Crowd

/-! ## One waiter and one other thread -/

/-- One tick of a run with a waiter, which is thread 0 and has checked in vain, beside a thread 1 that makes a
change at each tick: the waiter falls asleep, time passes, the change is made and announced, and the waiter wakes
up and checks. -/
def Crowd.tick (duration : Nanos) (c : Crowd) (change : Option Change) : Crowd :=
  let c := (c.advance 0).pass duration
  let c :=
    match change with
    | none => c
    | some change => ((c.put 1 (.changing change)).advance 1).advance 1
  (c.advance 0).advance 0

/-- The answer of a waiter with the given timeout beside a thread that makes the given changes, one at
each tick, and the crowd after it; `none` if the changes are used up first. -/
def Crowd.waitBeside (duration : Nanos) : List (Option Change) → Crowd → Option (Except Interrupted Nat) × Crowd
  | changes, c =>
      match c.threads.head? with
      | some (.returned result) => (some result, c)
      | _ =>
          match changes with
          | [] => (none, c)
          | change :: rest => waitBeside duration rest (c.tick duration change)

end BuildRound.Signal
