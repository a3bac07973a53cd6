import BuildRound.Bus.Gallery
import BuildRound.Proofs.Closing
import BuildRound.Proofs.Identities
import Mathlib.Data.Set.Card

/-!
# What a board shows

A board shows the actions whose last event that it was told of is their start, whatever came before and however events
about other actions were mixed in. It is on the bus once from its making until it is first told to leave, and
leaving takes out nobody else.
-/

namespace BuildRound

/-! ## Events on a board -/

namespace Board

/-- What a board was told, and when. -/
abbrev Delivery := Nanos × Event

/-- The action that runs after this, if it does. -/
def begun? : Delivery → Option RunningAction
  | (now, .started action) => some ⟨action.describe, now⟩
  | (_, .completed ..) => none
  | (_, .failed ..) => none

def follow (b : Board) (ds : List Delivery) : Board :=
  ds.foldl (fun b d => b.receive d.1 d.2) b

def lastAbout (id : ActionId) (ds : List Delivery) : Option Delivery :=
  (ds.filter (·.2.action.id = id)).getLast?

variable {b : Board} {id : ActionId} {a : RunningAction}

theorem follow_concat (b : Board) (ds : List Delivery) (d : Delivery) :
    b.follow (ds ++ [d]) = (b.follow ds).receive d.1 d.2 := by
  simp [follow]

theorem lastAbout_concat (id : ActionId) (ds : List Delivery) (d : Delivery) :
    lastAbout id (ds ++ [d]) = if d.2.action.id = id then some d else lastAbout id ds := by
  by_cases h : d.2.action.id = id <;> simp [lastAbout, h]

theorem mem_finish (other : ActionId) : (id, a) ∈ (b.finish other).running ↔ other ≠ id ∧ (id, a) ∈ b.running := by
  simp [finish, and_comm, eq_comm (a := other)]

/-- After an event only its action may have changed. -/
theorem mem_receive (now : Nanos) (event : Event) : (id, a) ∈ (b.receive now event).running ↔
    if event.action.id = id then begun? (now, event) = some a else (id, a) ∈ b.running := by
  cases event with
  | started action =>
      by_cases h : action.id = id
      · subst h
        simp [receive, start, mem_finish, begun?, Event.action, eq_comm]
      · simp [receive, start, mem_finish, Event.action, h, Ne.symm h]
  | completed action _ =>
      by_cases h : action.id = id <;> simp [receive, mem_finish, begun?, Event.action, h]
  | failed action _ _ =>
      by_cases h : action.id = id <;> simp [receive, mem_finish, begun?, Event.action, h]

theorem mem_follow (ds : List Delivery) :
    (id, a) ∈ (({} : Board).follow ds).running ↔ (lastAbout id ds).bind begun? = some a := by
  induction ds using List.reverseRecOn with
  | nil => simp [follow, lastAbout]
  | append_singleton ds d ih =>
      rw [follow_concat, mem_receive, lastAbout_concat, ih]
      by_cases h : d.2.action.id = id <;> simp [h]

def ids (b : Board) : List ActionId :=
  b.running.map (·.1)

theorem nodup_finish (h : b.ids.Nodup) (id : ActionId) : (b.finish id).ids.Nodup :=
  h.sublist (List.filter_sublist.map _)

theorem nodup_receive (h : b.ids.Nodup) (now : Nanos) (event : Event) : (b.receive now event).ids.Nodup := by
  cases event with
  | started action =>
      have hnot : action.id ∉ (b.finish action.id).ids := by simp [ids, finish]
      have hids : (b.receive now (.started action)).ids = (b.finish action.id).ids ++ [action.id] := by
        simp [ids, receive, start]
      rw [hids]
      exact (nodup_finish h _).append (List.nodup_singleton _) (by simpa using hnot)
  | completed action _ => exact nodup_finish h _
  | failed action _ _ => exact nodup_finish h _

theorem nodup_follow (ds : List Delivery) : (({} : Board).follow ds).ids.Nodup := by
  induction ds using List.reverseRecOn with
  | nil => exact List.nodup_nil
  | append_singleton ds d ih => exact follow_concat .. ▸ nodup_receive ih d.1 d.2

/-- Deliveries of which the last ones about each action agree come to the same. -/
theorem follow_perm {ds ds' : List Delivery} (h : ∀ id, lastAbout id ds = lastAbout id ds') :
    (({} : Board).follow ds).running.Perm (({} : Board).follow ds').running := by
  refine (List.perm_ext_iff_of_nodup (nodup_follow ds).of_map (nodup_follow ds').of_map).mpr (fun e => ?_)
  rw [mem_follow, mem_follow, h]

/-- For each action the last delivery about it is the same whichever of two about different actions comes first. -/
theorem follow_exchange {d d' : Delivery} (hne : d.2.action.id ≠ d'.2.action.id) (u v : List Delivery) :
    (({} : Board).follow (u ++ d' :: d :: v)).running.Perm (({} : Board).follow (u ++ d :: d' :: v)).running := by
  refine follow_perm (fun id => ?_)
  have hswap : [d', d].filter (·.2.action.id = id) = [d, d'].filter (·.2.action.id = id) := by
    by_cases h : d.2.action.id = id
    · have h' : d'.2.action.id ≠ id := fun heq => hne (h.trans heq.symm)
      simp [h, h']
    · simp [List.filter_cons, h]
  have hsplit (x y : Delivery) : u ++ x :: y :: v = u ++ [x, y] ++ v := by simp
  simp only [lastAbout, hsplit, List.filter_append, hswap]

theorem count_follow (ds : List Delivery) :
    (({} : Board).follow ds).count = {id | ((lastAbout id ds).bind begun?).isSome = true}.ncard := by
  have hids : {id | ((lastAbout id ds).bind begun?).isSome = true} =
      ((({} : Board).follow ds).ids.toFinset : Set ActionId) := by
    ext id
    simp [ids, Option.isSome_iff_exists, mem_follow]
  rw [hids, Set.ncard_coe_finset, List.toFinset_card_of_nodup (nodup_follow ds)]
  simp [ids, count]

theorem finish_of_not_mem (h : id ∉ b.ids) : b.finish id = b := by
  rw [finish, Bus.filter_ne_of_not_mem h]

/-- The end of an action that does not run goes unnoticed. -/
theorem receive_of_not_mem {now : Nanos} {event : Event} (hend : begun? (now, event) = none)
    (h : event.action.id ∉ b.ids) : b.receive now event = b := by
  cases event with
  | started action => cases hend
  | completed action _ => exact finish_of_not_mem h
  | failed action _ _ => exact finish_of_not_mem h

/-- What runs after an event depends on what ran before it. -/
theorem running_receive {b' : Board} (h : b.running = b'.running) (now : Nanos) (event : Event) :
    (b.receive now event).running = (b'.receive now event).running := by
  cases event <;> simp [receive, start, finish, h]

end Board

namespace Gallery

variable {g : Gallery}

theorem getElem?_concat {α : Type} (xs : List α) (x : α) (i : Nat) :
    (xs ++ [x])[i]? = if i = xs.length then some x else xs[i]? := by
  rcases Nat.lt_trichotomy i xs.length with hi | rfl | hi
  · simp [List.getElem?_append_left hi, hi.ne]
  · simp
  · rw [if_neg hi.ne', List.getElem?_eq_none hi.le, List.getElem?_eq_none (by simpa using hi)]

/-! ## Who is on the bus -/

/-- A board is on the bus under the id it keeps, and under no other; ids in the hands of others stand for others. -/
structure Entered (bus : Bus Listener) (registrations : List (Option ListenerId)) (handed : List ListenerId) :
    Prop where
  numbered : bus.Numbered
  distinct : (bus.entries.map (·.1)).Nodup
  boards : ∀ id i, (id, .board i) ∈ bus.entries ↔ registrations[i]? = some (some id)
  handed : ∀ id ∈ handed, id.number < bus.next ∧ ∀ i, (id, .board i) ∉ bus.entries

namespace Entered

variable {bus : Bus Listener} {registrations : List (Option ListenerId)} {handed : List ListenerId}

theorem empty : Entered {} [] [] :=
  ⟨Bus.numbered_empty, List.nodup_nil, by simp, by simp⟩

theorem unique (h : Entered bus registrations handed) {id : ListenerId} {l l' : Listener} (hl : (id, l) ∈ bus.entries)
    (hl' : (id, l') ∈ bus.entries) : l = l' :=
  congrArg (·.2) (List.inj_on_of_nodup_map h.distinct hl hl' rfl)

/-- The id that is handed out next is new. -/
theorem distinct_register (h : Entered bus registrations handed) (l : Listener) :
    ((bus.register l).2.entries.map (·.1)).Nodup := by
  have hnew : ⟨bus.next⟩ ∉ bus.entries.map (·.1) := by
    intro hmem
    obtain ⟨e, he, heq⟩ := List.mem_map.mp hmem
    exact absurd (h.numbered e he) (by simp [heq])
  simp only [Bus.register, Bus.takeId, Bus.push, List.map_append, List.map_singleton]
  exact h.distinct.append (List.nodup_singleton _) (by simpa using hnew)

theorem mem_register {l l' : Listener} {id : ListenerId} :
    (id, l') ∈ (bus.register l).2.entries ↔ (id, l') ∈ bus.entries ∨ id = ⟨bus.next⟩ ∧ l' = l := by
  simp [Bus.register, Bus.takeId, Bus.push]

theorem create (h : Entered bus registrations handed) :
    Entered (bus.register (.board registrations.length)).2
      (registrations ++ [some (bus.register (.board registrations.length)).1]) handed where
  numbered := h.numbered.register _
  distinct := h.distinct_register _
  boards id i := by
    rw [mem_register, h.boards]
    rw [getElem?_concat]
    by_cases hi : i = registrations.length
    · simp [hi, Bus.register, Bus.takeId, eq_comm]
    · simp [hi]
  handed id hid := by
    obtain ⟨hlt, hnot⟩ := h.handed id hid
    refine ⟨Nat.lt_succ_of_lt hlt, fun i hmem => ?_⟩
    rcases mem_register.mp hmem with hmem | ⟨rfl, -⟩
    · exact hnot i hmem
    · exact Nat.lt_irrefl _ hlt

theorem register (h : Entered bus registrations handed) (name : String) :
    Entered (bus.register (.own name)).2 registrations (handed ++ [(bus.register (.own name)).1]) where
  numbered := h.numbered.register _
  distinct := h.distinct_register _
  boards id i := by simp [mem_register, h.boards]
  handed id hid := by
    rcases List.mem_append.mp hid with hid | hid
    · obtain ⟨hlt, hnot⟩ := h.handed id hid
      exact ⟨Nat.lt_succ_of_lt hlt, fun i hmem => hnot i (by simpa [mem_register] using hmem)⟩
    · obtain rfl := List.mem_singleton.mp hid
      refine ⟨Nat.lt_succ_self _, fun i hmem => ?_⟩
      exact Nat.lt_irrefl _ (h.numbered _ (by simpa [mem_register] using hmem))

theorem mem_unregister {l : Listener} {id id' : ListenerId} :
    (id', l) ∈ (bus.unregister id).2.entries ↔ (id', l) ∈ bus.entries ∧ id' ≠ id := by
  simp [Bus.unregister]

theorem unregister (h : Entered bus registrations handed) {id : ListenerId} (hid : id ∈ handed) :
    Entered (bus.unregister id).2 registrations handed where
  numbered := h.numbered.unregister id
  distinct := h.distinct.sublist (List.filter_sublist.map _)
  boards id' i := by
    rw [mem_unregister, h.boards, and_iff_left_iff_imp]
    rintro hboard rfl
    exact (h.handed id' hid).2 i ((h.boards id' i).mpr hboard)
  handed id' hid' :=
    ⟨(h.handed id' hid').1, fun i hmem => (h.handed id' hid').2 i (mem_unregister.mp hmem).1⟩

/-- A board that leaves takes its own id along. -/
theorem leave (h : Entered bus registrations handed) {i : Nat} {id : ListenerId}
    (hi : registrations[i]? = some (some id)) : Entered (bus.unregister id).2 (registrations.set i none) handed where
  numbered := h.numbered.unregister id
  distinct := h.distinct.sublist (List.filter_sublist.map _)
  boards id' j := by
    rw [mem_unregister, h.boards]
    by_cases hij : i = j
    · subst hij
      simp [hi, List.getElem?_set_self', eq_comm]
    · -- Another board keeps another id, so it stays.
      rw [List.getElem?_set_ne hij, and_iff_left_iff_imp]
      rintro hj rfl
      cases h.unique ((h.boards _ _).mpr hi) ((h.boards _ _).mpr hj)
      exact hij rfl
  handed id' hid' :=
    ⟨(h.handed id' hid').1, fun i hmem => (h.handed id' hid').2 i (mem_unregister.mp hmem).1⟩

theorem eq_iff_board (h : Entered bus registrations handed) {i : Nat} {id : ListenerId}
    (hi : registrations[i]? = some (some id)) {e : ListenerId × Listener} (he : e ∈ bus.entries) :
    e.1 = id ↔ e.2 = .board i := by
  obtain ⟨id', l⟩ := e
  constructor
  · rintro rfl
    exact h.unique he ((h.boards id' i).mpr hi)
  · rintro rfl
    simpa [hi, eq_comm] using (h.boards id' i).mp he

theorem ne_board (h : Entered bus registrations handed) {i : Nat}
    (hi : ∀ id, registrations[i]? ≠ some (some id)) {e : ListenerId × Listener} (he : e ∈ bus.entries) :
    e.2 ≠ .board i := by
  obtain ⟨id, l⟩ := e
  rintro rfl
  exact hi id ((h.boards id i).mp he)

theorem count_of_kept (h : Entered bus registrations handed) {i : Nat} {id : ListenerId}
    (hi : registrations[i]? = some (some id)) : bus.listeners.count (.board i) = 1 := by
  have hsame : ∀ e ∈ bus.entries, decide (e.2 = .board i) = true ↔ (e == (id, .board i)) = true := by
    intro e he
    simpa [Prod.ext_iff] using (h.eq_iff_board hi he).mpr
  calc bus.listeners.count (.board i)
      = bus.entries.countP (fun e => decide (e.2 = .board i)) := by
        simp only [Bus.listeners, List.count, List.countP_map]
        rfl
    _ = bus.entries.count (id, .board i) := List.countP_congr hsame
    _ = 1 := List.count_eq_one_of_mem (List.Nodup.of_map _ h.distinct) ((h.boards id i).mpr hi)

theorem count_of_not_kept (h : Entered bus registrations handed) {i : Nat}
    (hi : ∀ id, registrations[i]? ≠ some (some id)) : bus.listeners.count (.board i) = 0 := by
  refine List.count_eq_zero.mpr (fun hmem => ?_)
  obtain ⟨e, he, heq⟩ := List.mem_map.mp hmem
  exact h.ne_board hi he heq

/-- Unregistering the id that a board keeps takes out the board and nobody else. -/
theorem unregister_of_kept (h : Entered bus registrations handed) {i : Nat} {id : ListenerId}
    (hi : registrations[i]? = some (some id)) :
    (bus.unregister id).2 = { bus with entries := bus.entries.filter (·.2 ≠ .board i) } := by
  have hentries : bus.entries.filter (·.1 ≠ id) = bus.entries.filter (·.2 ≠ .board i) := by
    refine List.filter_congr (fun e he => ?_)
    simp [h.eq_iff_board hi he]
  rw [← hentries]
  rfl

theorem filter_board (h : Entered bus registrations handed) {i : Nat}
    (hi : ∀ id, registrations[i]? ≠ some (some id)) : bus.entries.filter (·.2 ≠ .board i) = bus.entries :=
  List.filter_eq_self.mpr (fun _ he => decide_eq_true (h.ne_board hi he))

end Entered

/-! ## What was done -/

def Deed.delivery? (i : Nat) : Deed → Option Board.Delivery
  | delivered j now event => if j = i then some (now, event) else none
  | _ => none

/-- What a board was told so far. -/
def History.deliveries (h : History) (i : Nat) : List Board.Delivery :=
  h.filterMap (Deed.delivery? i)

theorem History.deliveries_concat (h : History) (d : Deed) (i : Nat) :
    deliveries (h ++ [d]) i = h.deliveries i ++ (d.delivery? i).toList := by
  cases hd : d.delivery? i <;> simp [deliveries, hd]

/-- The boards are as the history says. -/
structure Told (boards : List Board) (h : History) : Prop where
  created : ∀ i, .created i ∈ h ↔ i < boards.length
  left : ∀ i, .left i ∈ h ↔ (boards.map (·.registration))[i]? = some none
  running : ∀ i, ((boards.map (·.running))[i]?).getD [] = (({} : Board).follow (h.deliveries i)).running

namespace Told

variable {boards : List Board} {h : History}

theorem empty : Told [] [] :=
  ⟨by simp, by simp, by simp [History.deliveries, Board.follow]⟩

theorem create (k : Told boards h) (id : ListenerId) :
    Told (boards ++ [{ registration := some id }]) (h ++ [.created boards.length]) where
  created i := by
    simp only [List.mem_append, k.created, List.mem_singleton, Deed.created.injEq, List.length_append,
      List.length_singleton]
    omega
  left i := by
    rw [List.map_append, List.map_singleton, getElem?_concat]
    by_cases hi : i = boards.length
    · have hnot : .left boards.length ∉ h := fun hmem => by simpa using (k.left _).mp hmem
      simp [hi, hnot]
    · simp [hi, k.left]
  running i := by
    rw [List.map_append, List.map_singleton, getElem?_concat, History.deliveries_concat]
    by_cases hi : i = boards.length
    · simpa [hi, Deed.delivery?] using k.running i
    · simpa [hi, Deed.delivery?] using k.running i

theorem dismiss (k : Told boards h) {boards' : List Board} {i : Nat} (hi : i < boards.length)
    (hregistrations : boards'.map (·.registration) = (boards.map (·.registration)).set i none)
    (hrunning : boards'.map (·.running) = boards.map (·.running)) : Told boards' (h ++ [.left i]) where
  created j := by
    have hlength : boards'.length = boards.length := by simpa using congrArg List.length hrunning
    simpa [hlength] using k.created j
  left j := by
    rw [hregistrations, List.getElem?_set]
    by_cases hij : i = j
    · subst hij
      simp [hi]
    · simp [hij, Ne.symm hij, k.left]
  running j := by
    rw [hrunning, History.deliveries_concat]
    simpa [Deed.delivery?] using k.running j

theorem deliver {w : World} (k : Told w.boards h) {i : Nat} (hi : i < w.boards.length) (now : Nanos) (event : Event) :
    Told (w.onBoard i (·.receive now event)).boards (h ++ [.delivered i now event]) where
  created j := by simpa [World.onBoard] using k.created j
  left j := by
    rw [World.map_onBoard w i (fun b => b.registration_receive now event)]
    simpa using k.left j
  running j := by
    rw [History.deliveries_concat, List.getElem?_map, World.onBoard, List.getElem?_modify]
    have hbefore := k.running j
    by_cases hij : i = j
    · subst hij
      simp only [List.getElem?_map, List.getElem?_eq_getElem hi, Option.map_some, Option.getD_some] at hbefore
      simpa [hi, Deed.delivery?, Board.follow_concat] using Board.running_receive hbefore now event
    · simpa [hij, Deed.delivery?] using hbefore

end Told

/-! ## The invariant -/

/-- A board that is told to leave is taken out of the bus and forgets its id, and nothing else changes. -/
theorem Entered.dismissBoard {w : World} {handed : List ListenerId}
    (h : Entered w.bus (w.boards.map (·.registration)) handed) (i : Nat) :
    w.dismissBoard i = { w with
      bus := { w.bus with entries := w.bus.entries.filter (·.2 ≠ .board i) }
      boards := w.boards.modify i ({ · with registration := none }) } := by
  rw [World.dismissBoard_eq, World.bind_registration]
  cases hid : (w.registration? i).join with
  | none =>
      rw [h.filter_board (fun id hi => by rw [World.registration?, hi] at hid; cases hid)]
      rfl
  | some id =>
      rw [← h.unregister_of_kept (Option.join_eq_some_iff.mp hid)]
      rfl

/-- Where things stand after some steps. Whoever is told next is a board that was made, or none. -/
structure Kept (g : Gallery) : Prop where
  entered : Entered g.world.bus (g.world.boards.map (·.registration)) g.handed
  told : Told g.world.boards g.history
  underway : ∀ u ∈ g.underway, ∀ i, .board i ∈ u.2 → i < g.world.boards.length

theorem kept_empty : ({} : Gallery).Kept :=
  ⟨.empty, .empty, by simp⟩

namespace Kept

theorem create (h : g.Kept) : (g.move .create).Kept where
  entered := by
    have := h.entered.create
    simpa [move, World.newBoard, Board.create] using this
  told := h.told.create _
  underway u hu i hi := by
    have := h.underway u hu i hi
    simp [move, World.newBoard]
    omega

theorem dismiss (h : g.Kept) (i : Nat) : (g.move (.dismiss i)).Kept := by
  simp only [move]
  split
  · rename_i hi
    have heq := h.entered.dismissBoard i
    have hrunning : (g.world.dismissBoard i).boards.map (·.running) = g.world.boards.map (·.running) := by
      rw [heq]
      exact World.map_onBoard g.world i (f := ({ · with registration := none })) (fun _ => rfl)
    have hregistrations := g.world.registrations_dismissBoard i
    refine ⟨?_, h.told.dismiss hi hregistrations hrunning, fun u hu j hj => ?_⟩
    · cases hid : g.world.boards[i].registration with
      | none =>
          have hleft : g.world.Left i := by simp [World.Left, World.registration?, hi, hid]
          rw [hleft.dismissBoard]
          exact h.entered
      | some id =>
          have hkept : (g.world.boards.map (·.registration))[i]? = some (some id) := by simp [hi, hid]
          rw [World.bus_dismissBoard, show g.world.registration? i = some (some id) from hkept, hregistrations]
          exact h.entered.leave hkept
    · simpa [heq] using h.underway u hu j hj
  · exact h

theorem register (h : g.Kept) (name : String) : (g.move (.register name)).Kept :=
  ⟨h.entered.register name, h.told, h.underway⟩

theorem unregister (h : g.Kept) (n : Nat) : (g.move (.unregister n)).Kept := by
  simp only [move]
  split
  · exact h
  · exact ⟨h.entered.unregister (List.mem_of_getElem? ‹_›), h.told, h.underway⟩

/-- A broadcast that begins goes to boards that are on the bus, so they were made. -/
theorem broadcast (h : g.Kept) (event : Event) : (g.move (.broadcast event)).Kept := by
  refine ⟨h.entered, h.told, fun u hu i hi => ?_⟩
  rcases List.mem_append.mp hu with hu | hu
  · exact h.underway u hu i hi
  · obtain rfl := List.mem_singleton.mp hu
    obtain ⟨⟨id, l⟩, he, rfl⟩ := List.mem_map.mp hi
    have hkept := (h.entered.boards id i).mp he
    exact (List.getElem?_eq_some_iff.mp hkept).1.trans_eq (List.length_map _)

theorem deliver (h : g.Kept) (n : Nat) : (g.move (.deliver n)).Kept := by
  simp only [move]
  split
  · rename_i event listener rest hn
    have hmem := List.mem_of_getElem? hn
    have hunderway : ∀ u ∈ g.underway.set n (event, rest), ∀ i, .board i ∈ u.2 → i < g.world.boards.length := by
      intro u hu i hi
      rcases List.mem_or_eq_of_mem_set hu with hu | rfl
      · exact h.underway u hu i hi
      · exact h.underway _ hmem i (List.mem_cons_of_mem _ hi)
    cases listener with
    | own name => exact ⟨h.entered, h.told, hunderway⟩
    | board i =>
        have hi := h.underway _ hmem i List.mem_cons_self
        refine ⟨?_, h.told.deliver hi _ event, fun u hu j hj => ?_⟩
        · have hsame := World.map_onBoard g.world i (fun b => b.registration_receive g.world.clock event)
          exact hsame ▸ h.entered
        · simpa [tell, World.execute, World.onBoard] using hunderway u hu j hj
  · exact h

theorem move (h : g.Kept) (m : Move) : (g.move m).Kept := by
  cases m with
  | create => exact h.create
  | dismiss i => exact h.dismiss i
  | register name => exact h.register name
  | unregister n => exact h.unregister n
  | broadcast event => exact h.broadcast event
  | deliver n => exact h.deliver n
  | pass duration => exact ⟨h.entered, h.told, h.underway⟩

theorem run (h : g.Kept) (moves : List Move) : (g.run moves).Kept := by
  induction moves generalizing g with
  | nil => exact h
  | cons m moves ih => exact ih (h.move m)

end Kept

theorem Reachable.kept (h : g.Reachable) : g.Kept := by
  obtain ⟨moves, rfl⟩ := h
  exact kept_empty.run moves

/-! ## What every board shows -/

/-- Who is on the bus and what its boards show, by what was done. -/
structure Faithful (g : Gallery) : Prop where
  /-- A board is on the bus once, from its making until it is first told to leave. -/
  registered : ∀ i, g.world.bus.listeners.count (.board i) =
    if .created i ∈ g.history ∧ .left i ∉ g.history then 1 else 0
  /-- A board that leaves takes its own entry out, and no other listener's. -/
  leaving : ∀ i, g.world.dismissBoard i = { g.world with
    bus := { g.world.bus with entries := g.world.bus.entries.filter (·.2 ≠ .board i) }
    boards := g.world.boards.modify i ({ · with registration := none }) }
  leftAgain : ∀ i, .left i ∈ g.history → g.world.dismissBoard i = g.world
  /-- What runs are the actions whose last event was their start, as of then. -/
  running : ∀ i b, g.world.boards[i]? = some b → ∀ id a,
    (id, a) ∈ b.running ↔ (Board.lastAbout id (g.history.deliveries i)).bind Board.begun? = some a
  distinct : ∀ b ∈ g.world.boards, b.ids.Nodup
  count : ∀ i b, g.world.boards[i]? = some b → b.count =
    {id | ((Board.lastAbout id (g.history.deliveries i)).bind Board.begun?).isSome = true}.ncard
  unnoticed : ∀ b ∈ g.world.boards, ∀ now event, Board.begun? (now, event) = none → event.action.id ∉ b.ids →
    b.receive now event = b
  /-- Two deliveries in turn about different actions might as well have come the other way round. -/
  exchange : ∀ i b, g.world.boards[i]? = some b → ∀ u d d' v, g.history.deliveries i = u ++ d :: d' :: v →
    d.2.action.id ≠ d'.2.action.id → (({} : Board).follow (u ++ d' :: d :: v)).running.Perm b.running

theorem Kept.running_eq (h : g.Kept) {i : Nat} {b : Board} (hb : g.world.boards[i]? = some b) :
    b.running = (({} : Board).follow (g.history.deliveries i)).running := by
  simpa [hb] using h.told.running i

theorem Kept.ids_eq (h : g.Kept) {i : Nat} {b : Board} (hb : g.world.boards[i]? = some b) :
    b.ids = (({} : Board).follow (g.history.deliveries i)).ids :=
  congrArg (fun running => running.map (·.1)) (h.running_eq hb)

theorem Kept.registered (h : g.Kept) (i : Nat) : g.world.bus.listeners.count (.board i) =
    if .created i ∈ g.history ∧ .left i ∉ g.history then 1 else 0 := by
  simp only [h.told.created, h.told.left]
  cases hid : (g.world.boards.map (·.registration))[i]? with
  | none =>
      have hlt : ¬ i < g.world.boards.length := by simpa using hid
      rw [h.entered.count_of_not_kept (by simp [hid]), if_neg (fun hcase => hlt hcase.1)]
  | some registration =>
      have hlt : i < g.world.boards.length := by simpa using (List.getElem?_eq_some_iff.mp hid).1
      cases registration with
      | none => rw [h.entered.count_of_not_kept (by simp [hid]), if_neg (by simp)]
      | some id => rw [h.entered.count_of_kept hid, if_pos ⟨hlt, by simp⟩]

/-- Boards mirror what they are told, however the steps of broadcasts and of all who use the bus are mixed. -/
theorem Reachable.faithful (h : g.Reachable) : g.Faithful where
  registered := h.kept.registered
  leaving := h.kept.entered.dismissBoard
  leftAgain i hleft := World.Left.dismissBoard ((h.kept.told.left i).mp hleft)
  running i b hb id a := by rw [h.kept.running_eq hb, Board.mem_follow]
  distinct b hb := by
    obtain ⟨i, hi⟩ := List.mem_iff_getElem?.mp hb
    exact h.kept.ids_eq hi ▸ Board.nodup_follow _
  count i b hb := by
    rw [← Board.count_follow]
    exact congrArg List.length (h.kept.running_eq hb)
  unnoticed _ _ _ _ hend hnot := Board.receive_of_not_mem hend hnot
  exchange i b hb u d d' v hsplit hne := by
    rw [h.kept.running_eq hb, hsplit]
    exact Board.follow_exchange hne u v

/-- While a broadcast is under way, the listener between two boards begins another one, and the second board leaves
before either has reached it. -/
def overlapping : List Move :=
  let compile : Action := ⟨⟨"a"⟩, "Compile", .normal, []⟩
  let link : Action := ⟨⟨"b"⟩, "Link", .normal, []⟩
  [.create, .register "console", .create, .broadcast (.started compile), .deliver 0, .deliver 0,
    .broadcast (.started link), .dismiss 1, .pass 5, .deliver 1, .deliver 1, .deliver 1, .deliver 0,
    .broadcast (.failed compile 2 "exit 1"), .deliver 2, .dismiss 1, .unregister 0]

theorem faithful_overlapping :
    let g := run {} overlapping
    g.Faithful ∧ g.world.bus.listeners = [.board 0] ∧
      g.world.boards.map (·.running) =
        [[(⟨"b"⟩, ⟨"Link b", 5⟩)], [(⟨"b"⟩, ⟨"Link b", 5⟩), (⟨"a"⟩, ⟨"Compile a", 5⟩)]] :=
  ⟨Reachable.faithful ⟨overlapping, rfl⟩, by decide +kernel, by decide +kernel⟩

end Gallery

end BuildRound
