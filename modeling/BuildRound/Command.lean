import BuildRound.Board
import BuildRound.Cancellation
import BuildRound.Progress

/-!
# What an engine can do

The steps by which an engine acts on a build round, each of them atomic: it notifies the listener of the
call it answers, tells a progress that an action is complete, reads counts, delivers events to boards, has
boards shown or taken off the bus, changes the bus, looks at or raises cancellation signals, and lets time
pass. A program is a tree of such commands that goes on according to the replies. What several worker threads
do is one program in each of their interleavings.
-/

namespace BuildRound

/-! ## Commands -/

/-- Who listens on the engine's bus: a board, or a listener of the engine's own. -/
inductive Listener where
  | board (number : Nat)
  | own (name : String)
  deriving DecidableEq, Repr

/-- What an engine writes into the trace about something it looked at. -/
inductive Observation where
  | uncancelled (answer : Bool)
  | progress (text : String) (pending : Nat) (shown : String)
  | needsExecution (answer : Bool)
  | digest (answer : Option ByteArray)
  | reported (answer : Bool)

/-- One atomic step of an engine. Progresses and boards go by their numbers; a notification goes to whatever
listens to the call that is being answered. To leave the bus is one step: the id that a leaving board has taken
is nobody else's to use before the bus forgets it. -/
inductive Command where
  | notify (notification : Notification)
  | complete (progress : Nat) (action : Action)
  | readCompleted (progress : Nat)
  | readEnqueued (progress : Nat)
  | deliver (board : Nat) (event : Event)
  | readRunning (board : Nat)
  | readReports (board : Nat)
  | logReport (board : Nat) (progress : String)
  | countReport (board : Nat)
  | leave (board : Nat)
  | register (name : String)
  | unregister (id : ListenerId)
  | readListeners
  | cancel (token : Token)
  | readCancelled (token : Token)
  | rest (duration : Nanos)
  | observe (observation : Observation)

/-- What a command is replied with. A board that leaves the bus tells the id it had there. -/
@[reducible] def Command.Reply : Command → Type
  | readCompleted _ | readEnqueued _ | readRunning _ | readReports _ => Nat
  | leave _ => Option ListenerId
  | register _ => ListenerId
  | logReport _ _ | unregister _ | readCancelled _ => Bool
  | readListeners => List Listener
  | notify _ | complete _ _ | deliver _ _ | countReport _ | cancel _ | rest _ | observe _ => Unit

/-! ## Programs -/

/-- A finite run of commands, each chosen by the replies before it. -/
inductive Program (α : Type) : Type where
  | done (a : α)
  | issue (c : Command) (next : c.Reply → Program α)

namespace Program

variable {α β : Type}

def bind : Program α → (α → Program β) → Program β
  | done a, f => f a
  | issue c next, f => issue c (fun r => (next r).bind f)

instance : Monad Program where
  pure := done
  bind := bind

def command (c : Command) : Program c.Reply :=
  issue c done

def each (f : α → Program Unit) : List α → Program Unit
  | [] => done ()
  | a :: as => (f a).bind (fun _ => each f as)

/-- The progress text: the completed actions are counted first. -/
def progressText (progress : Nat) : Program String :=
  .issue (.readCompleted progress) fun completed =>
    .issue (.readEnqueued progress) fun enqueued =>
      .done (Progress.countsText completed enqueued)

/-- Report what is running on a board, if anything is. The report is counted after it was logged. -/
def display (board : Nat) (progress : String) : Program Bool :=
  .issue (.logReport board progress) fun logged =>
    if logged then .issue (.countReport board) fun _ => .done true
    else .done false

/-- Send an event to everyone who is on the bus when the broadcast begins; `react` is what the engine's own
listeners do with it. -/
def broadcast (react : String → Event → Program Unit) (event : Event) : Program Unit :=
  .issue .readListeners fun listeners =>
    each
      (fun listener =>
        match listener with
        | .board number => command (.deliver number event)
        | .own name => react name event)
      listeners

/-- Let time pass until the board has shown a report, at most `n` times the given duration. -/
def awaitReport (board : Nat) (duration : Nanos) : Nat → Program Bool
  | 0 => .done false
  | n + 1 =>
      .issue (.readReports board) fun shown =>
        if shown > 0 then .done true
        else .issue (.rest duration) fun _ => awaitReport board duration n

end Program

end BuildRound
