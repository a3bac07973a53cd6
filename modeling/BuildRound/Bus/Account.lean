import BuildRound.Bus.Reaction

/-!
# Accounts of a broadcast

What performing a step comes to, told as a tree: a broadcast is one delivery for each listener, and a delivery is
what the steps of the reaction came to. `Does` says which accounts are true. It speaks of the bus and of the stock
of reactions alone, with no bound on how deep broadcasts nest, and a tree is finite, so a step that has a true account
comes to its end.
-/

namespace BuildRound.Troupe

/-! ## Accounts -/

/-- What a step came to. -/
inductive Account where
  | registered (name : String) (id : ListenerId)
  | unregistered (id : ListenerId) (found : Bool)
  | shown (text : String)
  /-- The deliveries of a broadcast, in order, each with what its reaction came to. -/
  | broadcast (event : Event) (deliveries : List (String × List Account))

def Account.reply : Account → BusReply
  | registered _ id => .registered id
  | unregistered _ found => .removed found
  | shown text => .shown text
  | broadcast _ _ => .nothing

/-- One moment of an account. -/
inductive Beat where
  | registered (name : String) (id : ListenerId)
  | unregistered (id : ListenerId) (found : Bool)
  /-- A broadcast begins, to these listeners. -/
  | began (event : Event) (listeners : List String)
  | delivered (name : String) (event : Event)
  | reacted (name : String) (reply : BusReply)
  deriving DecidableEq, Repr

mutual

/-- The moments of an account in their order. A delivery comes to its end before the next one begins. -/
def Account.beats : Account → List Beat
  | .registered name id => [.registered name id]
  | .unregistered id found => [.unregistered id found]
  | .shown _ => []
  | .broadcast event deliveries => .began event (deliveries.map (·.1)) :: deliveryBeats event deliveries

def deliveryBeats (event : Event) : List (String × List Account) → List Beat
  | [] => []
  | (name, deeds) :: rest => .delivered name event :: (reactionBeats name deeds ++ deliveryBeats event rest)

def reactionBeats (name : String) : List Account → List Beat
  | [] => []
  | a :: rest => a.beats ++ .reacted name a.reply :: reactionBeats name rest

end

/-- What the record shows of a moment. -/
def Beat.happening? : Beat → Option Happening
  | delivered name event => some (.delivered name event)
  | reacted name reply => some (.reacted name reply)
  | _ => none

/-! ## Registrations told -/

def Beat.made? : Beat → Option (ListenerId × String)
  | registered name id => some (id, name)
  | _ => none

def Beat.gone? : Beat → Option ListenerId
  | unregistered id true => some id
  | _ => none

/-- The registrations made, in order. -/
def made (u : List Beat) : List (ListenerId × String) :=
  u.filterMap Beat.made?

/-- The ids of the registrations removed. -/
def gone (u : List Beat) : List ListenerId :=
  u.filterMap Beat.gone?

/-- What stands after these moments: the entries there were and those made, without the ones removed. -/
def standing (entries : List (ListenerId × String)) (u : List Beat) : List (ListenerId × String) :=
  (entries ++ made u).filter (·.1 ∉ gone u)

/-! ## True accounts -/

mutual

/-- The step, done with this bus and this stock, comes to this account and leaves this bus and this stock. -/
inductive Does : Bus String → Stock → BusStep → Account → Bus String → Stock → Prop
  | register (b : Bus String) (s : Stock) (name : String) :
      Does b s (.register name) (.registered name (b.register name).1) (b.register name).2 s
  | unregister (b : Bus String) (s : Stock) (id : ListenerId) :
      Does b s (.unregister id) (.unregistered id (b.unregister id).1) (b.unregister id).2 s
  | show (b : Bus String) (s : Stock) : Does b s .show (.shown b.text) b s
  /-- A broadcast goes to the listeners that are registered when it begins. -/
  | broadcast {b b' : Bus String} {s s' : Stock} {event : Event} {deliveries : List (String × List Account)}
      (h : Delivers b s b.listeners deliveries b' s') :
      Does b s (.broadcast event) (.broadcast event deliveries) b' s'

/-- Deliveries to these listeners, one after another. -/
inductive Delivers : Bus String → Stock → List String → List (String × List Account) → Bus String → Stock → Prop
  | done (b : Bus String) (s : Stock) : Delivers b s [] [] b s
  /-- The listener has no reaction left. -/
  | ignored {b b' : Bus String} {s s' : Stock} {name : String} {names : List String}
      {deliveries : List (String × List Account)} (hnone : s.take? name = none)
      (hrest : Delivers b s names deliveries b' s') :
      Delivers b s (name :: names) ((name, []) :: deliveries) b' s'
  | answered {b b' b'' : Bus String} {s left s' s'' : Stock} {name : String} {names : List String}
      {reaction : List BusStep} {deeds : List Account} {deliveries : List (String × List Account)}
      (hsome : s.take? name = some (reaction, left)) (hreact : Reacts b left reaction deeds b' s')
      (hrest : Delivers b' s' names deliveries b'' s'') :
      Delivers b s (name :: names) ((name, deeds) :: deliveries) b'' s''

/-- The steps of a reaction, one after another. -/
inductive Reacts : Bus String → Stock → List BusStep → List Account → Bus String → Stock → Prop
  | done (b : Bus String) (s : Stock) : Reacts b s [] [] b s
  | step {b b' b'' : Bus String} {s s' s'' : Stock} {step : BusStep} {steps : List BusStep} {a : Account}
      {deeds : List Account} (h : Does b s step a b' s') (hrest : Reacts b' s' steps deeds b'' s'') :
      Reacts b s (step :: steps) (a :: deeds) b'' s''

end

end BuildRound.Troupe
