import BuildRound.Bus

/-!
# Listeners that react

Listeners may register, unregister and broadcast while an event is delivered to them. Each of the named
listeners here has a stock of reactions; every delivery uses up its next one, which is performed before
the delivery ends. A nested broadcast therefore finishes before the broadcast around it goes on to the
next listener. Every level of nesting has used up a reaction, so the number of reactions left bounds the
depth.
-/

namespace BuildRound

inductive BusStep where
  | register (name : String)
  | unregister (id : ListenerId)
  | broadcast (event : Event)
  | show
  deriving DecidableEq, Repr

inductive BusReply where
  | nothing
  | registered (id : ListenerId)
  | removed (found : Bool)
  | shown (text : String)
  deriving DecidableEq, Repr

namespace Troupe

/-- What can be seen of a broadcast: a delivery to a listener, or the answer to a step of a reaction. -/
inductive Happening where
  | delivered (name : String) (event : Event)
  | reacted (name : String) (reply : BusReply)
  deriving DecidableEq, Repr

/-- The reactions that each listener has left, the next one first. -/
abbrev Stock := List (String × List (List BusStep))

def Stock.size (s : Stock) : Nat :=
  s.foldl (fun n entry => n + entry.2.length) 0

def Stock.take? : Stock → String → Option (List BusStep × Stock)
  | [], _ => none
  | (name, reactions) :: rest, wanted =>
      if name = wanted then
        match reactions with
        | [] => none
        | reaction :: left => some (reaction, (name, left) :: rest)
      else (Stock.take? rest wanted).map (fun (reaction, left) => (reaction, (name, reactions) :: left))

end Troupe

/-- The bus with its named listeners, the reactions they have left, and what happened so far. -/
structure Troupe where
  bus : Bus String := {}
  stock : Troupe.Stock := []
  record : List Troupe.Happening := []
  deriving DecidableEq, Repr

namespace Troupe

def note (t : Troupe) (h : Happening) : Troupe :=
  { t with record := t.record ++ [h] }

/-- Perform the steps of a listener's reaction, noting each answer. -/
def react (perform : BusStep → Troupe → BusReply × Troupe) (name : String) (t : Troupe)
    (reaction : List BusStep) : Troupe :=
  reaction.foldl
    (fun t step =>
      let (reply, t) := perform step t
      t.note (.reacted name reply))
    t

def deliver (perform : BusStep → Troupe → BusReply × Troupe) (event : Event) (t : Troupe)
    (name : String) : Troupe :=
  let t := t.note (.delivered name event)
  match t.stock.take? name with
  | none => t
  | some (reaction, left) => react perform name { t with stock := left } reaction

/-- Perform a step, given how the steps of reactions are performed. -/
def performWith (perform : BusStep → Troupe → BusReply × Troupe) (t : Troupe) :
    BusStep → BusReply × Troupe
  | .register name =>
      let (id, bus) := t.bus.register name
      (.registered id, { t with bus })
  | .unregister id =>
      let (found, bus) := t.bus.unregister id
      (.removed found, { t with bus })
  | .broadcast event => (.nothing, t.bus.listeners.foldl (deliver perform event) t)
  | .show => (.shown t.bus.text, t)

/-- Perform a step with reactions nested at most `depth` deep. -/
def performWithin : Nat → BusStep → Troupe → BusReply × Troupe
  | 0, step, t => t.performWith (fun _ t => (.nothing, t)) step
  | depth + 1, step, t => t.performWith (performWithin depth) step

/-- Perform a step with everything it sets off. -/
def perform (t : Troupe) (step : BusStep) : BusReply × Troupe :=
  performWithin t.stock.size step t

end Troupe

end BuildRound
