import BuildRound.Watchdog

/-!
# The life of a watchdog

A watchdog from its making until its owner lets go of it, step by step. The owner starts and stops it, the thread takes
its steps in between, and the surroundings change on their own. Stopping takes three steps of the owner, who waits for
the end of the thread before the last one; letting go of a watchdog stops it once more. A history keeps what was done.
-/

namespace BuildRound

namespace Life

/-- What a thread asks of its surroundings. -/
inductive Question where
  | hasStarted
  | wait
  | report
  | pending
  deriving DecidableEq, Repr

/-- What a thread that stands here asks in its next step. A report that goes on is asked for again. -/
def question? : Loop → Option Question
  | .ask => some .hasStarted
  | .enter _ => some .wait
  | .report => some .report
  | .note _ => some .pending
  | _ => none

/-- What was done. `ω` are the reasons why a thread cannot be started. -/
inductive Deed (ω : Type) where
  | spawned
  /-- A call that starts returns, with the failure if no thread could be started. -/
  | started (failure : Option ω)
  | asked (question : Question)
  /-- A call that stops begins. -/
  | stopping
  | interrupted
  | joined (panicked : Bool)
  /-- A call that stops returns. -/
  | stopped
  deriving DecidableEq, Repr

@[simp]
def Deed.isAsked {ω : Type} : Deed ω → Bool
  | asked _ => true
  | _ => false

@[simp]
def Deed.isSpawned {ω : Type} : Deed ω → Bool
  | spawned => true
  | _ => false

@[simp]
def Deed.isJoined {ω : Type} : Deed ω → Bool
  | joined _ => true
  | _ => false

/-- What was done with a watchdog, in order. -/
abbrev History (ω : Type) := List (Deed ω)

/-- Where the owner stands, who may be stopping the watchdog for the last time. -/
inductive Owner where
  | free
  | flagging (last : Bool)
  | interrupting (last : Bool)
  | joining (last : Bool)
  /-- The owner has let go. -/
  | gone
  deriving DecidableEq, Repr

def Owner.after (last : Bool) : Owner :=
  if last then gone else free

/-- A step of someone. -/
inductive Move (ε ω : Type) where
  /-- The owner starts the watchdog. If no thread can be started, this is why. -/
  | start (failure : Option ω)
  /-- The owner stops the watchdog, for the last time when letting go of it. -/
  | stop (last : Bool)
  /-- The owner goes on with stopping. -/
  | proceed
  | thread
  | others (change : ε → ε)

end Life

/-- A watchdog with its surroundings, its owner and its history. -/
structure Life (ε ω : Type) where
  dog : Watchdog
  around : ε
  owner : Life.Owner := .free
  history : Life.History ω := []

namespace Life

variable {ε ω : Type}

def isRunning (l : Life ε ω) : Bool :=
  l.dog.isRunning

def note (l : Life ε ω) (deeds : History ω) : Life ε ω :=
  { l with history := l.history ++ deeds }

def start (l : Life ε ω) (failure : Option ω) : Life ε ω :=
  let (runs, dog) := l.dog.start failure.isNone
  let spawned := if runs && !l.isRunning then [Deed.spawned] else []
  { l with dog }.note (spawned ++ [Deed.started (if runs then none else failure)])

/-- Begin to stop. There is nothing to do if no thread is running. -/
def stop (l : Life ε ω) (last : Bool) : Life ε ω :=
  if l.isRunning then { l with owner := .flagging last }.note [.stopping]
  else { l with owner := .after last }.note [.stopping, .stopped]

/-- Go on with stopping. The thread is joined at its end, not before. -/
def proceed (s : Surroundings ε) (l : Life ε ω) : Life ε ω :=
  match l.owner, l.dog.thread with
  | .flagging last, _ => { l with dog := { l.dog with stopping := true }, owner := .interrupting last }
  | .interrupting last, _ =>
      { l with around := s.interrupt l.around, owner := .joining last }.note [.interrupted]
  | .joining last, some (.ended panicked) =>
      let (dog, around) := l.dog.join s l.around
      { l with dog, around, owner := .after last }.note [.joined panicked, .stopped]
  | _, _ => l

/-- The thread takes its next step, if there is one. -/
def attend (s : Surroundings ε) (l : Life ε ω) : Life ε ω :=
  let (dog, around) := l.dog.step s l.around
  { l with dog, around }.note ((l.dog.thread.bind question?).toList.map .asked)

/-- Let someone take a step. The owner begins nothing before the last call has returned. -/
def move (s : Surroundings ε) (l : Life ε ω) : Move ε ω → Life ε ω
  | .start failure => if l.owner = .free then l.start failure else l
  | .stop last => if l.owner = .free then l.stop last else l
  | .proceed => l.proceed s
  | .thread => l.attend s
  | .others change => { l with around := change l.around }

def run (s : Surroundings ε) (l : Life ε ω) (moves : List (Move ε ω)) : Life ε ω :=
  moves.foldl (move s) l

/-- Whatever was done since the watchdog was made. -/
def Reachable (s : Surroundings ε) (l : Life ε ω) : Prop :=
  ∃ interval around moves, l = run s { dog := .ofInterval interval, around } moves

end Life

end BuildRound
