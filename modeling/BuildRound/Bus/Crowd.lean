import BuildRound.Bus

/-!
# Calls on the bus

Threads that register and unregister at the same time, step by step. Who registers takes a number in one step and
enters the listener under it in another, and others may do anything in between; unregistering is one step. A
history keeps what each step did.
-/

namespace BuildRound.Bus

variable {ℓ : Type}

/-! ## Calls -/

/-- Where a call stands. -/
inductive Thread (ℓ : Type) where
  | registering (listener : ℓ)
  /-- It took a number and is about to enter the listener. -/
  | entering (id : ListenerId) (listener : ℓ)
  | registered (id : ListenerId)
  | unregistering (id : ListenerId)
  | unregistered (found : Bool)
  deriving DecidableEq, Repr

/-- What a step did to the bus. -/
inductive Deed where
  | took (id : ListenerId)
  | entered (id : ListenerId)
  | unregistered (id : ListenerId) (found : Bool)
  deriving DecidableEq, Repr

/-- What was done on a bus, in order. -/
abbrev History := List Deed

/-! ## The system -/

/-- The bus, all calls on it, and what they did so far. -/
structure Crowd (ℓ : Type) where
  bus : Bus ℓ := {}
  threads : List (Thread ℓ) := []
  history : History := []
  deriving DecidableEq, Repr

namespace Crowd

/-- Let a call take its next step. -/
def advance (c : Crowd ℓ) (i : Nat) : Crowd ℓ :=
  match c.threads[i]? with
  | none => c
  | some thread =>
      match thread with
      | .registering listener =>
          let (id, bus) := c.bus.takeId
          ⟨bus, c.threads.set i (.entering id listener), c.history ++ [.took id]⟩
      | .entering id listener =>
          ⟨c.bus.push id listener, c.threads.set i (.registered id), c.history ++ [.entered id]⟩
      | .unregistering id =>
          let (found, bus) := c.bus.unregister id
          ⟨bus, c.threads.set i (.unregistered found), c.history ++ [.unregistered id found]⟩
      | .registered _ => c
      | .unregistered _ => c

def join (c : Crowd ℓ) (thread : Thread ℓ) : Crowd ℓ :=
  { c with threads := c.threads ++ [thread] }

/-- The steps of the system: a call moves, or a new one begins. -/
inductive Step : Crowd ℓ → Crowd ℓ → Prop where
  | advance (c : Crowd ℓ) (i : Nat) : Step c (c.advance i)
  | register (c : Crowd ℓ) (listener : ℓ) : Step c (c.join (.registering listener))
  | unregister (c : Crowd ℓ) (id : ListenerId) : Step c (c.join (.unregistering id))

end Crowd

end BuildRound.Bus
