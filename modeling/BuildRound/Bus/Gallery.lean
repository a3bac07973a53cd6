import BuildRound.World

/-!
# Boards that come and go

A bus with boards and other listeners, from its beginning. Boards are made and told to leave, other listeners register
and unregister, and events are broadcast. A broadcast tells its listeners one by one, each in a step of its own, and
whatever one of them does when it is told, a broadcast of its own included, happens between two such steps.
-/

namespace BuildRound

namespace Gallery

/-- What was done with boards. -/
inductive Deed where
  | created (board : Nat)
  /-- The board was told to leave the bus, be it there or not. -/
  | left (board : Nat)
  | delivered (board : Nat) (now : Nanos) (event : Event)
  deriving DecidableEq, Repr

/-- What was done with boards, in order. -/
abbrev History := List Deed

/-- A step of someone. -/
inductive Move where
  | create
  | dismiss (board : Nat)
  /-- Register another listener, who gets the id. -/
  | register (name : String)
  /-- Unregister the id that was the `n`th to be handed out. -/
  | unregister (n : Nat)
  | broadcast (event : Event)
  /-- Go on with the broadcast that was the `n`th to begin. -/
  | deliver (n : Nat)
  | pass (duration : Nanos)
  deriving DecidableEq, Repr

end Gallery

/-- The world of the bus, with the broadcasts that have begun and whom each still has to tell, and the ids of listeners
that are no boards. -/
structure Gallery where
  world : World := {}
  underway : List (Event × List Listener) := []
  handed : List ListenerId := []
  history : Gallery.History := []

namespace Gallery

/-- Tell a listener of an event. What others than boards make of it is left to them. -/
def tell (g : Gallery) (event : Event) : Listener → Gallery
  | .board i => { g with
      world := (g.world.execute none (.deliver i event)).2
      history := g.history ++ [.delivered i g.world.clock event] }
  | .own _ => g

/-- Let someone take a step. Only boards that were made can be told to leave. -/
def move (g : Gallery) : Move → Gallery
  | .create =>
      let (number, world) := g.world.newBoard
      { g with world, history := g.history ++ [.created number] }
  | .dismiss i =>
      if i < g.world.boards.length then
        { g with world := g.world.dismissBoard i, history := g.history ++ [.left i] }
      else g
  | .register name =>
      let (id, world) := g.world.execute none (.register name)
      { g with world, handed := g.handed ++ [id] }
  | .unregister n =>
      match g.handed[n]? with
      | none => g
      | some id => { g with world := (g.world.execute none (.unregister id)).2 }
  | .broadcast event =>
      { g with underway := g.underway ++ [(event, (g.world.execute none .readListeners).1)] }
  | .deliver n =>
      match g.underway[n]? with
      | some (event, listener :: rest) => { g with underway := g.underway.set n (event, rest) }.tell event listener
      | _ => g
  | .pass duration => { g with world := g.world.move (.pass duration) }

def run (g : Gallery) (moves : List Move) : Gallery :=
  moves.foldl move g

def Reachable (g : Gallery) : Prop :=
  ∃ moves, g = run {} moves

end Gallery

end BuildRound
