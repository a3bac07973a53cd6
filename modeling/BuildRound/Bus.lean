import BuildRound.Duration
import BuildRound.Artifact

/-!
# The event bus

Listeners register on the bus and get an id that is never handed out again. A broadcast goes to the
listeners that are registered when it begins, once for each registration and in the order of
registration. Registering takes two steps, so that the ids of two listeners that register at the same
time may stand in the list in either order. Ids are counted without a bound: what is said here is said of
buses on which fewer than 2^64 listeners were registered, after which a machine would count from 0 again.
-/

namespace BuildRound

/-! ## Events -/

/-- What an engine announces about the actions it runs. -/
inductive Event where
  | started (action : Action)
  | completed (action : Action) (duration : Nanos)
  | failed (action : Action) (duration : Nanos) (error : String)
  deriving DecidableEq, Repr

def Event.action : Event → Action
  | started action => action
  | completed action _ => action
  | failed action _ _ => action

/-! ## Registrations -/

/-- The number under which a listener is registered, less than 2^64 on a machine. -/
structure ListenerId where
  number : Nat
  deriving DecidableEq, Repr

def ListenerId.text (id : ListenerId) : String :=
  "ListenerId(" ++ toString id.number ++ ")"

/-- The registered listeners and the next number to hand out. -/
structure Bus (ℓ : Type) where
  next : Nat := 0
  entries : List (ListenerId × ℓ) := []
  deriving DecidableEq, Repr

namespace Bus

variable {ℓ : Type}

/-- The first step of registering: take a number. -/
def takeId (b : Bus ℓ) : ListenerId × Bus ℓ :=
  (⟨b.next⟩, { b with next := b.next + 1 })

/-- The second step of registering: enter the listener under its number. -/
def push (b : Bus ℓ) (id : ListenerId) (listener : ℓ) : Bus ℓ :=
  { b with entries := b.entries ++ [(id, listener)] }

def register (b : Bus ℓ) (listener : ℓ) : ListenerId × Bus ℓ :=
  let (id, b) := b.takeId
  (id, b.push id listener)

/-- Remove the listener with this id and say whether there was one. -/
def unregister (b : Bus ℓ) (id : ListenerId) : Bool × Bus ℓ :=
  let kept := b.entries.filter (·.1 ≠ id)
  (kept.length ≠ b.entries.length, { b with entries := kept })

def size (b : Bus ℓ) : Nat :=
  b.entries.length

/-- The listeners a broadcast that begins now goes to. -/
def listeners (b : Bus ℓ) : List ℓ :=
  b.entries.map (·.2)

def text (b : Bus ℓ) : String :=
  "ActionEventBus \x7b listeners: " ++ toString b.size ++ " \x7d"

end Bus

end BuildRound
