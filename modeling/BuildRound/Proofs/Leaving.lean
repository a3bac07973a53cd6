import BuildRound.Proofs.Record

/-!
# Boards that leave the bus

A round takes its board off the bus when it cleans up, and the engine may have had the board leave before. Either way
the id of the board is on the bus no longer, and nobody else is ever given that id.
-/

namespace BuildRound

/-! ## The bus after a stretch of the trace -/

/-- The bus after a stretch of the trace: its entries are what the engine made of them, and every id it was
given had not been handed out before. -/
structure Bus.Follows (t : Record) (b b' : Bus Listener) : Prop where
  entries : b'.entries = t.enrolled b.entries
  next : b'.next = b.next + (t.filterMap Occurrence.registered?).length
  fresh : ∀ o ∈ t, ∀ id, o.registered? = some id → b.next ≤ id.number ∧ id.number < b'.next

theorem Bus.Follows.next_le {t : Record} {b b' : Bus Listener} (h : b.Follows t b') : b.next ≤ b'.next :=
  h.next ▸ Nat.le_add_right ..

theorem Bus.Follows.refl (b : Bus Listener) : b.Follows [] b :=
  ⟨rfl, rfl, by simp⟩

theorem Bus.Follows.trans {t u : Record} {b b' b'' : Bus Listener} (h : b.Follows t b')
    (k : b'.Follows u b'') : b.Follows (t ++ u) b'' := by
  refine ⟨?_, by simp [k.next, h.next, Nat.add_assoc], ?_⟩
  · rw [k.entries, h.entries, Record.enrolled, Record.enrolled, Record.enrolled, List.foldl_append]
  · intro o ho id hid
    rcases List.mem_append.mp ho with ho | ho
    · obtain ⟨hle, hlt⟩ := h.fresh o ho id hid
      exact ⟨hle, Nat.lt_of_lt_of_le hlt k.next_le⟩
    · obtain ⟨hle, hlt⟩ := k.fresh o ho id hid
      exact ⟨Nat.le_trans h.next_le hle, hlt⟩

namespace World

variable {w w' w'' : World} {j k : Nat} {id : ListenerId}

/-! ## Taking a board off the bus -/

/-- The id that a board keeps is taken off the bus, and the board forgets it. -/
theorem dismissBoard_eq (w : World) (k : Nat) :
    w.dismissBoard k = { w with
      bus := (w.boards[k]?.bind Board.registration).elim w.bus (fun id => (w.bus.unregister id).2)
      boards := w.boards.modify k (fun b => { b with registration := none }) } := by
  unfold dismissBoard
  cases hb : w.boards[k]? with
  | none => simp [List.modify_eq_self (List.getElem?_eq_none_iff.mp hb)]
  | some b =>
      have hset : w.boards.set k { b with registration := none } =
          w.boards.modify k (fun b => { b with registration := none }) := by
        refine List.ext_getElem? (fun j => ?_)
        rw [List.getElem?_set', List.getElem?_modify]
        by_cases hkj : k = j
        · subst hkj
          simp [hb]
        · simp [hkj]
      obtain ⟨running, registration, reportsShown⟩ := b
      cases registration <;> simp [Board.leave, ← hset]

/-- A board that is off the bus, or none at all, leaves nothing behind. -/
theorem dismissBoard_of_absent {w : World} {k : Nat} (h : w.boards[k]?.bind Board.registration = none) :
    w.dismissBoard k = w := by
  unfold dismissBoard
  cases hb : w.boards[k]? with
  | none => rfl
  | some b =>
      rw [hb, Option.bind_some] at h
      obtain ⟨hk, rfl⟩ := List.getElem?_eq_some_iff.mp hb
      simp only [Board.leave, h, List.set_getElem_self]

@[simp] theorem clock_dismissBoard (w : World) (k : Nat) : (w.dismissBoard k).clock = w.clock := by
  rw [dismissBoard_eq]

@[simp] theorem turns_dismissBoard (w : World) (k : Nat) : (w.dismissBoard k).turns = w.turns := by
  rw [dismissBoard_eq]

@[simp] theorem signals_dismissBoard (w : World) (k : Nat) : (w.dismissBoard k).signals = w.signals := by
  rw [dismissBoard_eq]

@[simp] theorem progresses_dismissBoard (w : World) (k : Nat) : (w.dismissBoard k).progresses = w.progresses := by
  rw [dismissBoard_eq]

@[simp] theorem watch_dismissBoard (w : World) (k : Nat) : (w.dismissBoard k).watch = w.watch := by
  rw [dismissBoard_eq]

@[simp] theorem log_dismissBoard (w : World) (k : Nat) : (w.dismissBoard k).log = w.log := by
  rw [dismissBoard_eq]

@[simp] theorem trace_dismissBoard (w : World) (k : Nat) : (w.dismissBoard k).trace = w.trace := by
  rw [dismissBoard_eq]

theorem registrations_dismissBoard (w : World) (k : Nat) :
    (w.dismissBoard k).boards.map (·.registration) = (w.boards.map (·.registration)).set k none := by
  unfold dismissBoard
  cases hb : w.boards[k]? with
  | none => rw [List.set_eq_of_length_le (by simpa using hb)]
  | some b =>
      simp only [Board.leave]
      split <;> simp [*, List.map_set]

/-- Where the board is registered, if there is such a board. -/
def registration? (w : World) (k : Nat) : Option (Option ListenerId) :=
  (w.boards.map (·.registration))[k]?

theorem bind_registration (w : World) (k : Nat) : w.boards[k]?.bind Board.registration = (w.registration? k).join := by
  rw [registration?, List.getElem?_map]
  cases w.boards[k]? <;> rfl

theorem registration?_dismissBoard (w : World) (j k : Nat) :
    (w.dismissBoard j).registration? k = (w.registration? k).map (fun r => if j = k then none else r) := by
  rw [registration?, registrations_dismissBoard, List.getElem?_set', registration?]
  cases (w.boards.map (·.registration))[k]? <;> by_cases h : j = k <;> simp [h]

theorem bus_dismissBoard (w : World) (k : Nat) :
    (w.dismissBoard k).bus = (w.registration? k).join.elim w.bus (fun id => (w.bus.unregister id).2) := by
  rw [dismissBoard_eq, bind_registration]

theorem next_dismissBoard (w : World) (k : Nat) : (w.dismissBoard k).bus.next = w.bus.next := by
  rw [bus_dismissBoard]
  cases (w.registration? k).join <;> rfl

theorem entries_dismissBoard_subset (w : World) (k : Nat) : (w.dismissBoard k).bus.entries ⊆ w.bus.entries := by
  rw [bus_dismissBoard]
  cases (w.registration? k).join with
  | none => exact List.Subset.refl _
  | some id => exact fun e he => (List.mem_filter.mp he).1

theorem follows_dismissBoard (l : Option Nat) (w : World) (j : Nat) :
    w.bus.Follows [.issued l (.leave j) (w.readBoard j Board.registration none)] (w.dismissBoard j).bus := by
  have hreply : w.readBoard j Board.registration none = (w.registration? j).join := by
    rw [← bind_registration, readBoard]
    cases w.boards[j]? <;> rfl
  rw [hreply, bus_dismissBoard]
  cases (w.registration? j).join <;> exact ⟨rfl, rfl, by simp [Occurrence.registered?]⟩

/-! ## Boards that are on the bus or have left it -/

/-- The board is there, and off the bus. -/
def Left (w : World) (k : Nat) : Prop :=
  w.registration? k = some none

/-- The board is registered under this id, or it has left and nobody is on the bus under the id any more. -/
structure Posts (w : World) (k : Nat) (id : ListenerId) : Prop where
  taken : id.number < w.bus.next
  here : w.registration? k = some (some id) ∨ w.Left k ∧ ∀ e ∈ w.bus.entries, e.1 ≠ id

theorem Left.registration?_eq (h : w.Left k) : w.registration? k = some none := h

theorem Left.dismissBoard (h : w.Left k) : w.dismissBoard k = w :=
  dismissBoard_of_absent (by rw [bind_registration, h.registration?_eq]; rfl)

/-- Whether the board left before or not, the bus is without its id once it has been dismissed. -/
theorem Posts.entries_dismissBoard (h : w.Posts k id) :
    (w.dismissBoard k).bus.entries = w.bus.entries.filter (·.1 ≠ id) := by
  rcases h.here with hhere | ⟨hleft, hgone⟩
  · rw [bus_dismissBoard, hhere]
    rfl
  · rw [hleft.dismissBoard, List.filter_eq_self.mpr]
    exact fun e he => decide_eq_true (hgone e he)

theorem Posts.left_dismissBoard (h : w.Posts k id) : (w.dismissBoard k).Left k := by
  rw [Left, registration?_dismissBoard]
  rcases h.here with hhere | ⟨hleft, -⟩
  · simp [hhere]
  · simp [hleft.registration?_eq]

theorem posts_newBoard (w : World) : w.newBoard.2.Posts w.boards.length ⟨w.bus.next⟩ where
  taken := Nat.lt_succ_self _
  here := .inl (by simp [registration?, newBoard, Board.create, Bus.register, Bus.takeId])

theorem Left.newBoard (h : w.Left k) : w.newBoard.2.Left k := by
  have hk : k < (w.boards.map (·.registration)).length := (List.getElem?_eq_some_iff.mp h).1
  rw [Left, registration?, World.newBoard, List.map_append, List.getElem?_append_left hk]
  exact h

/-- No board comes or goes, none that left comes back, and one that leaves takes its id off the bus. -/
structure KeepsBoards (w w' : World) : Prop where
  length : w'.boards.length = w.boards.length
  left (k : Nat) : w.Left k → w'.Left k
  posts (k : Nat) (id : ListenerId) : w.Posts k id → w'.Posts k id

theorem KeepsBoards.trans (h : w.KeepsBoards w') (k : w'.KeepsBoards w'') : w.KeepsBoards w'' :=
  ⟨k.length.trans h.length, fun j => k.left j ∘ h.left j, fun j id => k.posts j id ∘ h.posts j id⟩

/-- While boards keep their registrations, the bus hands out ids that nobody had. -/
theorem keepsBoards_of_follows {t : Record} (h : w'.boards.map (·.registration) = w.boards.map (·.registration))
    (hbus : w.bus.Follows t w'.bus) : w.KeepsBoards w' where
  length := by simpa using congrArg List.length h
  left k hleft := (congrArg (·[k]?) h).trans hleft
  posts k id hposts := by
    refine ⟨Nat.lt_of_lt_of_le hposts.taken hbus.next_le, ?_⟩
    simp only [Left, registration?, h]
    refine hposts.here.imp_right (fun ⟨hleft, hgone⟩ => ⟨hleft, fun e he => ?_⟩)
    rw [hbus.entries] at he
    rcases Record.mem_enrolled he with he | ⟨o, ho, hid⟩
    · exact hgone e he
    · rintro rfl
      exact absurd hposts.taken (Nat.not_lt.mpr (hbus.fresh o ho _ hid).1)

theorem KeepsBoards.of_eq (h : w'.boards.map (·.registration) = w.boards.map (·.registration))
    (hbus : w'.bus = w.bus) : w.KeepsBoards w' :=
  keepsBoards_of_follows h (t := []) (by rw [hbus]; exact .refl w.bus)

theorem dismissBoard_keepsBoards (w : World) (j : Nat) : w.KeepsBoards (w.dismissBoard j) where
  length := by simp [dismissBoard_eq]
  left k hleft := by simp [Left, registration?_dismissBoard, hleft.registration?_eq]
  posts k id hposts := by
    refine ⟨w.next_dismissBoard j ▸ hposts.taken, ?_⟩
    by_cases hjk : j = k
    · subst hjk
      refine .inr ⟨hposts.left_dismissBoard, fun e he => ?_⟩
      rw [hposts.entries_dismissBoard] at he
      exact of_decide_eq_true (List.mem_filter.mp he).2
    · have hsame : (w.dismissBoard j).registration? k = w.registration? k := by
        simp [registration?_dismissBoard, hjk]
      simp only [Left, hsame]
      exact hposts.here.imp_right (fun ⟨hleft, hgone⟩ =>
        ⟨hleft, fun e he => hgone e (w.entries_dismissBoard_subset j he)⟩)

end World

end BuildRound
