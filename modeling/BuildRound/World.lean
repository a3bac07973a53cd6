import BuildRound.Engine
import BuildRound.Watchdog

/-!
# The world of a build round

Everything that the threads of a build share: the clock, the cancellation signals, the event bus, the
progresses and boards of all rounds so far, and the watchdog of the present one, with the trace of what
was done. The threads take turns: before each step of the round, a schedule lets time pass, the watchdog
move and others cancel. A report of the watchdog takes several steps, between which others may act.
-/

namespace BuildRound

/-! ## State -/

/-- Who writes a log entry. -/
inductive Author where
  | caller
  | watchdog
  | worker
  deriving DecidableEq, Repr

/-- How far a report has come: the flag for exclusive building is read first, then the two counts, then
the running actions; the report is logged and last of all counted. -/
inductive ReportStage where
  | idle
  | readCompleted
  | readEnqueued (completed : Nat)
  | render (progress : String)
  | say (report : String)
  | tally
  deriving DecidableEq, Repr

/-- The watchdog of a round, whom it watches, and where its wait and its report stand. -/
structure Watch where
  dog : Watchdog
  progress : Nat
  board : Nat
  exclusive : Bool := false
  call : Option Wait := none
  stage : ReportStage := .idle
  deriving DecidableEq, Repr

/-- What happened, as the trace keeps it. -/
inductive Occurrence where
  /-- The round called the engine. -/
  | called (call : Call)
  /-- The search for conflicts answered. -/
  | examined (answer : Except BuildError Unit)
  /-- The round looked at its cancellation signal. -/
  | checked
  /-- An evaluation with this listener answered. -/
  | answered (listener : Option Nat) (answer : Except BuildError EvaluationResult)
  /-- The engine issued a command and got a reply, in answering a call with this listener. -/
  | issued (listener : Option Nat) (command : Command) (reply : command.Reply)
  /-- Someone else, such as the caller in another thread, cancelled a token. -/
  | cancelled (token : Token)
  /-- The thread of the watchdog was joined at its end. -/
  | joined
  /-- The built set was taken back for the caller. -/
  | released

/-- What the threads of a build share. -/
structure World where
  clock : Nanos := 0
  turns : Nat := 0
  signals : Signals := {}
  bus : Bus Listener := {}
  progresses : List Progress := []
  boards : List Board := []
  watch : Watch := { dog := .ofInterval 0, progress := 0, board := 0 }
  log : List (Author × Log.Entry) := []
  trace : List Occurrence := []

namespace World

/-! ## Looking up and changing parts -/

def say (w : World) (author : Author) (entries : List Log.Entry) : World :=
  { w with log := w.log ++ entries.map (author, ·) }

def note (w : World) (o : Occurrence) : World :=
  { w with trace := w.trace ++ [o] }

def onProgress (w : World) (i : Nat) (f : Progress → Progress) : World :=
  { w with progresses := w.progresses.modify i f }

def onBoard (w : World) (i : Nat) (f : Board → Board) : World :=
  { w with boards := w.boards.modify i f }

/-- Read one progress, if it exists. -/
def readProgress {α : Type} (w : World) (i : Nat) (f : Progress → α) (missing : α) : α :=
  match w.progresses[i]? with
  | some p => f p
  | none => missing

/-- Read one board, if it exists. -/
def readBoard {α : Type} (w : World) (i : Nat) (f : Board → α) (missing : α) : α :=
  match w.boards[i]? with
  | some b => f b
  | none => missing

def newProgress (w : World) (requested built : ArtifactSet) : Nat × World :=
  (w.progresses.length, { w with progresses := w.progresses ++ [{ requested, built }] })

/-- Make a new board, registered on the bus. -/
def newBoard (w : World) : Nat × World :=
  let number := w.boards.length
  let (board, bus) := Board.create w.bus (.board number)
  (number, { w with bus, boards := w.boards ++ [board] })

/-- Take a board off the bus, if it still is there. -/
def dismissBoard (w : World) (i : Nat) : World :=
  match w.boards[i]? with
  | none => w
  | some b =>
      let (board, bus) := b.leave w.bus
      { w with bus, boards := w.boards.set i board }

/-! ## Commands -/

/-- Notify a progress. -/
def notify (w : World) (i : Nat) (n : Notification) : World :=
  (w.say .caller (w.readProgress i (·.notifyLog n) [])).onProgress i (·.notify n)

/-- Do what a command says, at the present time. A notification without a listener is lost. -/
def execute (listener : Option Nat) (w : World) : (c : Command) → c.Reply × World
  | .notify n => ((), listener.elim w (w.notify · n))
  | .complete i action => ((), w.onProgress i (·.complete action))
  | .readCompleted i => (w.readProgress i Progress.completedCount 0, w)
  | .readEnqueued i => (w.readProgress i Progress.enqueuedCount 0, w)
  | .deliver i event => ((), w.onBoard i (·.receive w.clock event))
  | .readRunning i => (w.readBoard i Board.count 0, w)
  | .readReports i => (w.readBoard i Board.reportsShown 0, w)
  | .logReport i progress =>
      let report := w.readBoard i (·.render progress w.clock) none
      (report.isSome, w.say .caller (report.toList.map (.event .warn · [])))
  | .countReport i => ((), w.onBoard i Board.countReport)
  | .leave i => (w.readBoard i Board.registration none, w.dismissBoard i)
  | .register name =>
      let (id, bus) := w.bus.register (.own name)
      (id, { w with bus })
  | .unregister id =>
      let (found, bus) := w.bus.unregister id
      (found, { w with bus })
  | .readListeners => (w.bus.listeners, w)
  | .cancel token => ((), { w with signals := w.signals.cancel token })
  | .readCancelled token => (w.signals.isCancelled token, w)
  | .rest duration => ((), { w with clock := w.clock + duration })
  | .observe _ => ((), w)

/-- Perform a command: it takes a nanosecond, and the trace keeps it with its reply. -/
def perform (listener : Option Nat) (w : World) (c : Command) : c.Reply × World :=
  let (reply, w) := execute listener { w with clock := w.clock + 1 } c
  (reply, w.note (.issued listener c reply))

/-! ## Reports of inactivity -/

/-- The next step of a report written by `author`: `none` while it goes on, else whether a report went
out. -/
def advanceReport (author : Author) (w : World) : Option Bool × World :=
  let watch := w.watch
  let goTo (stage : ReportStage) : World := { w with watch := { watch with stage } }
  match watch.stage with
  | .idle => if watch.exclusive then (some false, w) else (none, goTo .readCompleted)
  | .readCompleted =>
      (none, goTo (.readEnqueued (w.readProgress watch.progress Progress.completedCount 0)))
  | .readEnqueued completed =>
      let enqueued := w.readProgress watch.progress Progress.enqueuedCount 0
      (none, goTo (.render (Progress.countsText completed enqueued ++ " ")))
  | .render progress =>
      match w.readBoard watch.board (·.render progress w.clock) none with
      | none => (some false, goTo .idle)
      | some report => (none, goTo (.say report))
  | .say report => (none, (goTo .tally).say author [.event .warn report []])
  | .tally =>
      (some true, (goTo .idle).onBoard watch.board Board.countReport)

/-- Take at most `n` steps of a report, until it has ended. -/
def runReport (author : Author) : Nat → World → Bool × World
  | 0, w => (false, w)
  | n + 1, w =>
      match w.advanceReport author with
      | (some reported, w) => (reported, w)
      | (none, w) => runReport author n w

/-- More steps than a report takes. -/
def reportBound : Nat := 8

/-- Report inactivity in one go, unless exclusive artifacts are being built. -/
def reportInactivity (author : Author) (w : World) : Bool × World :=
  runReport author reportBound w

/-- Report what is running on a board in one go, whatever is being built. -/
def showRunning (author : Author) (board : Nat) (progress : String) (w : World) : Bool × World :=
  let watch := w.watch
  let (reported, w) :=
    runReport author reportBound { w with watch := { watch with board, stage := .render progress } }
  (reported, { w with watch })

/-! ## The watchdog's surroundings -/

/-- Check on the wait of the watchdog. -/
def checkWait (w : World) (call : Wait) : Option (Except Interrupted Nat) × World :=
  let answer := w.readProgress w.watch.progress (fun p => call.check w.clock p.activity) none
  (answer, { w with watch := { w.watch with call := if answer.isNone then some call else none } })

/-- The watchdog of a round watches the progress of the round and reports from its board. -/
def surroundings : Surroundings World where
  hasStarted w := (w.readProgress w.watch.progress Progress.hasStarted false, w)
  enter timeout w :=
    let activity := w.readProgress w.watch.progress Progress.activity {}
    w.checkWait (Wait.enter timeout w.clock activity)
  wake w :=
    match w.watch.call with
    | none => (none, w)
    | some call => w.checkWait call
  report w :=
    match w.advanceReport .watchdog with
    | (none, w) => (.busy, w)
    | (some reported, w) => (.answered reported, w)
  note reported w :=
    w.say .watchdog [Watchdog.noteEntry (w.readBoard w.watch.board Board.count 0) reported]
  interrupt w := w.onProgress w.watch.progress Progress.interruptWaiters
  mourn w := w.say .caller [Watchdog.mournEntry]

/-- Put the watchdog back after it acted. -/
def withDog (r : Watchdog × World) : World :=
  { r.2 with watch := { r.2.watch with dog := r.1 } }

def moveWatchdog (w : World) : World :=
  withDog (w.watch.dog.step surroundings w)

/-- Wait for the end of the watchdog's thread. -/
def joinWatchdog (w : World) : World :=
  let w := withDog (w.watch.dog.join surroundings w)
  if w.watch.dog.isRunning then w else w.note .joined

/-! ## Taking turns -/

/-- What may happen between two steps of a round: time passes, the watchdog acts, or someone else cancels
a token. -/
inductive Move where
  | pass (duration : Nanos)
  | watch
  | cancel (token : Token)
  deriving DecidableEq, Repr

def move (w : World) : Move → World
  | .pass duration => { w with clock := w.clock + duration }
  | .watch => w.moveWatchdog
  | .cancel token => { w with signals := w.signals.cancel token }.note (.cancelled token)

/-- The moves to make at each turn. -/
abbrev Schedule := Nat → List Move

/-- Make the moves of the present turn. -/
def turn (s : Schedule) (w : World) : World :=
  { (s w.turns).foldl move w with turns := w.turns + 1 }

/-- The schedule that lets the watchdog run at each turn until it sleeps. -/
def attentive : Schedule :=
  fun _ => List.replicate 16 .watch

end World

/-! ## Running programs -/

/-- Run the program that answers a call with the given listener, taking turns before each command. -/
def Program.run {α : Type} (s : World.Schedule) (listener : Option Nat) : Program α → World → α × World
  | .done a, w => (a, w)
  | .issue c next, w =>
      let (reply, w) := (w.turn s).perform listener c
      (next reply).run s listener w

end BuildRound
