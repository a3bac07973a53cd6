import BuildRound.Proofs.Launch

/-!
# Rounds one after another

A session runs rounds on one engine, which keeps its state, and hands the caller's set from each to the next. In
between, objects of earlier rounds may still be used. What a round relies on holds again after it: no watchdog runs, no
board is registered, and the bus handed out every id that stands on it.
-/

namespace BuildRound

open Round

/-! ## Between rounds -/

/-- One thing that is done between two rounds. -/
inductive Interim where
  /-- A command that answers no call, such as completing an action or registering a listener. -/
  | command (c : Command)
  | display (board : Nat) (progress : String)
  | leave (board : Nat)
  /-- Send an event to the boards on the bus. What the engine's own listeners do with it are commands. -/
  | broadcast (event : Event)

namespace World

def announce (w : World) (event : Event) : World :=
  w.bus.listeners.foldl
    (fun w listener =>
      match listener with
      | .board i => w.onBoard i (·.receive w.clock event)
      | .own _ => w) w

/-- Whatever receiving the event leaves true of the world, the broadcast does. -/
theorem announce_keeps {P : World → Prop} {event : Event}
    (hreceive : ∀ (w : World) (i : Nat), P w → P (w.onBoard i (·.receive w.clock event))) {w : World} (h : P w) :
    P (w.announce event) := by
  unfold announce
  generalize w.bus.listeners = listeners
  induction listeners generalizing w with
  | nil => exact h
  | cons listener rest ih =>
      cases listener with
      | board i => exact ih (hreceive w i h)
      | own name => exact ih h

def interim (w : World) : Interim → World
  | .command c => (execute none w c).2
  | .display board progress => (w.showRunning .caller board progress).2
  | .leave board => w.dismissBoard board
  | .broadcast event => w.announce event

def meanwhile (w : World) (interims : List Interim) : World :=
  interims.foldl interim w

theorem meanwhile_cons (w : World) (i : Interim) (rest : List Interim) :
    w.meanwhile (i :: rest) = (w.interim i).meanwhile rest := rfl

/-- Nothing of a round is at work: its watchdog was joined and its board has left the bus. -/
structure Settled (w : World) : Prop where
  numbered : w.bus.Numbered
  idle : w.watch.dog.isRunning = false
  left : ∀ r ∈ w.boards.map (·.registration), r = none

namespace Settled

variable {w w' : World}

theorem intro (hnumbered : w.bus.Numbered) (hidle : w.watch.dog.isRunning = false)
    (hleft : ∀ k < w.boards.length, w.Left k) : w.Settled := by
  refine ⟨hnumbered, hidle, fun r hr => ?_⟩
  obtain ⟨k, hk, rfl⟩ := List.mem_iff_getElem.mp hr
  exact (List.getElem_eq_iff hk).mpr (hleft k (by simpa using hk))

theorem left_of_lt (h : w.Settled) {k : Nat} (hk : k < w.boards.length) : w.Left k := by
  have hlt : k < (w.boards.map (·.registration)).length := by simpa using hk
  rw [Left, registration?, List.getElem?_eq_getElem hlt, h.left _ (List.getElem_mem hlt)]

theorem of_eq (h : w.Settled) (hbus : w'.bus = w.bus) (hwatch : w'.watch = w.watch)
    (hboards : w'.boards.map (·.registration) = w.boards.map (·.registration)) : w'.Settled :=
  ⟨hbus ▸ h.numbered, hwatch ▸ h.idle, hboards ▸ h.left⟩

theorem receive (h : w.Settled) (i : Nat) (now : Nanos) (event : Event) : (w.onBoard i (·.receive now event)).Settled :=
  h.of_eq rfl rfl (map_onBoard w i (fun b => b.registration_receive now event))

theorem dismissBoard (h : w.Settled) (i : Nat) : w.dismissBoard i = w := by
  refine dismissBoard_of_absent ?_
  cases hb : w.boards[i]? with
  | none => rfl
  | some b => exact h.left _ (List.mem_map_of_mem (List.mem_of_getElem? hb))

theorem execute (h : w.Settled) (c : Command) : (execute none w c).2.Settled := by
  cases c with
  | deliver i event => exact h.receive i w.clock event
  | countReport i => exact h.of_eq rfl rfl (map_onBoard w i (fun _ => rfl))
  | leave i =>
      show (w.dismissBoard i).Settled
      rwa [h.dismissBoard]
  | register name => exact ⟨h.numbered.register _, h.idle, h.left⟩
  | unregister id => exact ⟨h.numbered.unregister id, h.idle, h.left⟩
  | _ => exact h.of_eq rfl rfl rfl

theorem announce (h : w.Settled) (event : Event) : (w.announce event).Settled :=
  announce_keeps (fun w i hw => hw.receive i w.clock event) h

end Settled

theorem showRunning_eq (author : Author) (board : Nat) (progress : String) (w : World) :
    w.showRunning author board progress =
      match w.readBoard board (·.render progress w.clock) none with
      | none => (false, w)
      | some report => (true, (w.say author [.event .warn report []]).onBoard board Board.countReport) := by
  have hread (v : Watch) : readBoard { w with watch := v } board (·.render progress w.clock) none =
    w.readBoard board (·.render progress w.clock) none := rfl
  cases h : w.readBoard board (·.render progress w.clock) none with
  | none => simp [showRunning, reportBound, runReport, advanceReport, hread, h]
  | some report => simp [showRunning, reportBound, runReport, advanceReport, hread, h, say, onBoard]

theorem interim_display (w : World) (board : Nat) (progress : String) :
    w.interim (.display board progress) =
      match w.readBoard board (·.render progress w.clock) none with
      | none => w
      | some report => (w.say .caller [.event .warn report []]).onBoard board Board.countReport := by
  rw [interim, showRunning_eq]
  split <;> rfl

/-- An engine that displays a board while nobody else acts does what is done between rounds. -/
theorem run_display (l : Option Nat) (w : World) (board : Nat) (progress : String) :
    let shown := showRunning .caller board progress { w with clock := w.clock + 1 }
    let done := (Program.display board progress).run (fun _ => []) l w
    done.1 = shown.1 ∧ done.2.log = shown.2.log ∧ done.2.boards = shown.2.boards := by
  intro shown done
  let v : World := { w with clock := w.clock + 1 }
  let logged := (w.turn fun _ => []).perform l (.logReport board progress)
  have hdone : done = Program.run (fun _ => []) l
    (if logged.1 then .issue (.countReport board) fun _ => .done true else .done false) logged.2 := rfl
  have hreply : logged.1 = (v.readBoard board (·.render progress v.clock) none).isSome := rfl
  have hlog : logged.2.log = w.log ++
    ((v.readBoard board (·.render progress v.clock) none).toList.map (.event .warn · [])).map (.caller, ·) := rfl
  have hboards : logged.2.boards = w.boards := rfl
  rw [show shown = v.showRunning .caller board progress from rfl, showRunning_eq, hdone, hreply]
  cases h : v.readBoard board (·.render progress v.clock) none with
  | none =>
      rw [h] at hlog
      exact ⟨rfl, hlog.trans (List.append_nil _), hboards⟩
  | some report =>
      rw [h] at hlog
      exact ⟨rfl, hlog, congrArg (List.modify · board Board.countReport) hboards⟩

theorem Settled.interim {w : World} (h : w.Settled) (i : Interim) : (w.interim i).Settled := by
  cases i with
  | command c => exact h.execute c
  | display board progress =>
      rw [interim_display]
      split
      · exact h
      · exact h.of_eq rfl rfl (map_onBoard _ board (fun _ => rfl))
  | leave board =>
      show (w.dismissBoard board).Settled
      rwa [h.dismissBoard]
  | broadcast event => exact h.announce event

theorem Settled.meanwhile {w : World} (h : w.Settled) (interims : List Interim) : (w.meanwhile interims).Settled := by
  induction interims generalizing w with
  | nil => exact h
  | cons i rest ih => exact ih (h.interim i)

theorem interim_lengths (w : World) (i : Interim) :
    (w.interim i).progresses.length = w.progresses.length ∧ (w.interim i).boards.length = w.boards.length := by
  cases i with
  | command c => cases c <;> simp [interim, execute, say, onProgress, onBoard, dismissBoard_eq]
  | display board progress =>
      rw [interim_display]
      split <;> simp [say, onBoard]
  | leave board => simp [interim, dismissBoard_eq]
  | broadcast event =>
      refine announce_keeps (P := fun v =>
        v.progresses.length = w.progresses.length ∧ v.boards.length = w.boards.length) ?_ ⟨rfl, rfl⟩
      intro v i hv
      simpa [onBoard] using hv

theorem meanwhile_lengths (w : World) (interims : List Interim) :
    (w.meanwhile interims).progresses.length = w.progresses.length ∧
      (w.meanwhile interims).boards.length = w.boards.length := by
  induction interims generalizing w with
  | nil => exact ⟨rfl, rfl⟩
  | cons i rest ih =>
      obtain ⟨hprogresses, hboards⟩ := w.interim_lengths i
      obtain ⟨hprogresses', hboards'⟩ := ih (w.interim i)
      exact ⟨hprogresses'.trans hprogresses, hboards'.trans hboards⟩

end World

/-! ## The caller's set -/

namespace ArtifactSet

/-- All that the one set holds is in the other, spelled as before. -/
def Within (s t : ArtifactSet) : Prop :=
  ∀ a ∈ s.toList, a ∈ t.toList

theorem Within.refl (s : ArtifactSet) : s.Within s :=
  fun _ h => h

theorem Within.trans {s t u : ArtifactSet} (h : s.Within t) (k : t.Within u) : s.Within u :=
  fun a ha => k a (h a ha)

theorem within_insert (s : ArtifactSet) (a : Artifact) : s.Within (s.insert a) := by
  intro b hb
  unfold insert
  split
  · exact hb
  · exact List.mem_cons_of_mem a hb

theorem within_extend (s : ArtifactSet) (as : List Artifact) : s.Within (s.extend as) := by
  induction as generalizing s with
  | nil => exact .refl s
  | cons a as ih => exact (s.within_insert a).trans (ih _)

end ArtifactSet

theorem Progress.within_notice (i : Nat) (p : Progress) (o : Occurrence) : p.built.Within (p.notice i o).built := by
  unfold notice
  split
  · split
    · unfold notify
      split
      · exact .refl _
      · split <;> exact .refl _
      · exact .refl _
      · exact p.built.within_extend _
    · exact .refl _
  · split
    · unfold complete
      split <;> exact .refl _
    · exact .refl _
  · split
    · exact p.built.within_extend _
    · exact .refl _
  · exact .refl _

theorem Progress.within_after (i : Nat) (p : Progress) (t : Record) : p.built.Within (p.after i t).built := by
  induction t generalizing p with
  | nil => exact .refl _
  | cons o t ih => exact (p.within_notice i o).trans (ih _)

namespace Launch

variable {σ : Type} (l : Launch σ)

theorem built_within_returned : l.built.Within l.returned := by
  cases hvalid : l.setup.options.validate with
  | error e =>
      rw [(l.of_invalid hvalid).2.1]
      exact .refl _
  | ok _ =>
      obtain ⟨t, u, v, r, h⟩ := l.passage hvalid
      obtain ⟨p, -, hbuilt, hreturned⟩ := h.returned
      rw [hreturned, ← hbuilt]
      exact p.within_after l.progress u

theorem settled (h : l.stage.world.Settled) : l.world.Settled := by
  cases hvalid : l.setup.options.validate with
  | error e =>
      obtain ⟨n, hn, -, hflow⟩ := l.rejects hvalid
      refine .intro (h.numbered.follows hflow.bus) (hflow.watch.running.trans h.idle) (fun k hk => ?_)
      exact hflow.boards.left k (h.left_of_lt (hflow.boards_length ▸ hk))
  | ok _ =>
      obtain ⟨hnumbered, hidle, ⟨hleft, hown⟩, -, hlength⟩ := l.leaves hvalid
      refine .intro hnumbered hidle (fun k hk => ?_)
      rw [hlength, Nat.lt_succ_iff_lt_or_eq] at hk
      rcases hk with hk | rfl
      · exact hleft k (h.left_of_lt hk)
      · exact hown

theorem listeners_kept : l.world.bus.entries = l.record.enrolled l.stage.world.bus.entries := by
  cases hvalid : l.setup.options.validate with
  | error e =>
      obtain ⟨-, -, hnoise, hbus⟩ := l.of_invalid hvalid
      rw [hbus, hnoise.enrolled]
  | ok _ =>
      obtain ⟨t, u, v, r, h⟩ := l.passage hvalid
      exact h.bus

/-- The world in which the round calls the engine to attach its objects. -/
def attaching : World :=
  (l.provided.world.turn l.host.schedule).note (.called (.attach l.objects))

theorem attaching_enters : ∃ t : Record, l.attaching.Flow t l.entered.world := by
  obtain ⟨-, -, hon, -⟩ := l.provides
  have hentered : l.entered = (Act.on ((say l.host [span l.setup l.order] >>= fun _ =>
      provide l.host l.engine l.setup l.order l.built) >>= fun objects =>
        tell l.host (.attach objects) (l.engine.attach (some objects)) >>= fun _ => pure objects) l.stage).2 := rfl
  rw [Act.on_bind, hon] at hentered
  obtain ⟨t, -, hflow⟩ := (((l.engine.attach (some l.objects) l.provided.engine).bind
    (fun s => .done ((), s)))).run_flow l.host.schedule none l.attaching
  exact ⟨t, hentered ▸ hflow⟩

theorem attaching_trace (hvalid : l.setup.options.validate = .ok ()) : l.attaching.trace <+: l.world.trace := by
  obtain ⟨t, hflow⟩ := l.attaching_enters
  obtain ⟨u, p, -, h₂, ⟨-, -, hp⟩, hpost, -, hattended⟩ := l.works
  obtain ⟨v, -, -, -, hcloses⟩ := l.closes hvalid hp hpost hattended
  refine ⟨t ++ (u ++ v), ?_⟩
  simp [hcloses.trace, h₂.trace, hflow.trace]

/-- The round calls the engine to attach objects on which nothing is counted, runs or was reported, and on which waits
are not interrupted. -/
structure AttachesFresh : Prop where
  attaches : l.attaching.trace <+: l.world.trace
  progress : ∃ p, l.attaching.progresses[l.objects.progress]? = some p ∧ p.text = "[0/0]" ∧
    p.activity.interrupted = false
  board : ∃ b, l.attaching.boards[l.objects.board]? = some b ∧ b.running = [] ∧ b.reportsShown = 0

theorem attaches_fresh (h : l.stage.world.Settled) (hvalid : l.setup.options.validate = .ok ()) : l.AttachesFresh := by
  obtain ⟨t, -, -, hprovided⟩ := l.provides
  obtain ⟨n, hn, hturn⟩ := l.provided.world.turn_flow l.host.schedule
  obtain ⟨registration, hclean⟩ := hprovided.clean h.idle
  refine ⟨l.attaching_trace hvalid, ⟨{ requested := l.order.requested, built := l.built }, ?_, ?_, rfl⟩,
    ⟨{ registration := some registration }, ?_, rfl, rfl⟩⟩
  · exact (congrArg (·[l.progress]?) (hturn.toRecords.progresses_eq hn)).trans hprovided.fresh
  · show Progress.countsText 0 0 = "[0/0]"
    decide
  · exact (congrArg (·[l.objects.board]?) (World.turn_idle l.host.schedule hprovided.idle).1).trans hclean

end Launch

/-! ## Sessions -/

/-- One round of a session, and what is done before it. -/
structure Leg (σ : Type) where
  meanwhile : List Interim
  host : Host
  engine : Engine σ
  setup : Setup
  order : Order

/-- Where a session stands between two rounds. -/
structure Session (σ : Type) where
  stage : Stage σ
  built : ArtifactSet
  settled : stage.world.Settled

namespace Session

variable {σ : Type}

def launch (s : Session σ) (leg : Leg σ) : Launch σ where
  host := leg.host
  engine := leg.engine
  setup := leg.setup
  order := leg.order
  built := s.built
  stage := s.stage.inWorld (s.stage.world.meanwhile leg.meanwhile)
  numbered := (s.settled.meanwhile leg.meanwhile).numbered

def next (s : Session σ) (leg : Leg σ) : Session σ where
  stage := (s.launch leg).done.2
  built := (s.launch leg).returned
  settled := (s.launch leg).settled (s.settled.meanwhile leg.meanwhile)

def rounds (s : Session σ) : List (Leg σ) → List (Launch σ)
  | [] => []
  | leg :: legs => s.launch leg :: (s.next leg).rounds legs

/-- What holds of every round that a session may come to holds of its rounds. -/
theorem forall_rounds {P : Launch σ → Prop} (h : ∀ (s : Session σ) leg, P (s.launch leg)) (s : Session σ)
    (legs : List (Leg σ)) : ∀ l ∈ s.rounds legs, P l := by
  induction legs generalizing s with
  | nil => simp [rounds]
  | cons leg legs ih =>
      intro l hl
      rcases List.mem_cons.mp hl with rfl | hl
      · exact h s leg
      · exact ih (s.next leg) l hl

theorem launch_settled (s : Session σ) (leg : Leg σ) : (s.launch leg).stage.world.Settled :=
  s.settled.meanwhile leg.meanwhile

theorem built_within (s : Session σ) (legs : List (Leg σ)) :
    (s.built :: (s.rounds legs).map Launch.returned).Pairwise ArtifactSet.Within := by
  induction legs generalizing s with
  | nil => simp [rounds]
  | cons leg legs ih =>
      have hrest := ih (s.next leg)
      refine List.pairwise_cons.mpr ⟨fun t ht => ?_, hrest⟩
      have hround : s.built.Within (s.next leg).built := (s.launch leg).built_within_returned
      rcases List.mem_cons.mp ht with rfl | ht
      · exact hround
      · exact hround.trans ((List.pairwise_cons.mp hrest).1 t ht)

/-! ### New objects -/

/-- The numbers that the next progress and the next board will have. -/
def fresh (s : Session σ) : Attachment :=
  ⟨s.stage.world.progresses.length, s.stage.world.boards.length⟩

theorem objects_launch (s : Session σ) (leg : Leg σ) : (s.launch leg).objects = s.fresh := by
  obtain ⟨hprogresses, hboards⟩ := s.stage.world.meanwhile_lengths leg.meanwhile
  simp only [Launch.objects, Launch.progress, launch, fresh, hprogresses, hboards]

theorem fresh_next (s : Session σ) (leg : Leg σ) :
    (s.next leg).fresh =
      if leg.setup.options.validate.toBool then ⟨s.fresh.progress + 1, s.fresh.board + 1⟩ else s.fresh := by
  obtain ⟨hprogresses, hboards⟩ := s.stage.world.meanwhile_lengths leg.meanwhile
  cases hvalid : leg.setup.options.validate with
  | error e =>
      obtain ⟨n, hn, -, hflow⟩ := (s.launch leg).rejects hvalid
      have hp : (s.launch leg).world.progresses.length = s.stage.world.progresses.length :=
        hflow.progresses_length.trans hprogresses
      have hb : (s.launch leg).world.boards.length = s.stage.world.boards.length := hflow.boards_length.trans hboards
      exact Attachment.mk.injEq .. ▸ ⟨hp, hb⟩
  | ok _ =>
      obtain ⟨-, -, -, hp', hb'⟩ := (s.launch leg).leaves hvalid
      have hp : (s.launch leg).world.progresses.length = s.stage.world.progresses.length + 1 :=
        hp'.trans (congrArg (· + 1) hprogresses)
      have hb : (s.launch leg).world.boards.length = s.stage.world.boards.length + 1 :=
        hb'.trans (congrArg (· + 1) hboards)
      exact Attachment.mk.injEq .. ▸ ⟨hp, hb⟩

theorem fresh_le_next (s : Session σ) (leg : Leg σ) :
    s.fresh.progress ≤ (s.next leg).fresh.progress ∧ s.fresh.board ≤ (s.next leg).fresh.board := by
  rw [fresh_next]
  split <;> simp

theorem fresh_le (s : Session σ) (legs : List (Leg σ)) : ∀ l ∈ s.rounds legs,
    s.fresh.progress ≤ l.objects.progress ∧ s.fresh.board ≤ l.objects.board := by
  induction legs generalizing s with
  | nil => simp [rounds]
  | cons leg legs ih =>
      intro l hl
      rcases List.mem_cons.mp hl with rfl | hl
      · rw [objects_launch]
        exact ⟨Nat.le_refl _, Nat.le_refl _⟩
      · have hle := s.fresh_le_next leg
        have hrest := ih (s.next leg) l hl
        exact ⟨Nat.le_trans hle.1 hrest.1, Nat.le_trans hle.2 hrest.2⟩

/-- The objects of a round with valid options are never used for a later one. -/
theorem objects_increase (s : Session σ) (legs : List (Leg σ)) :
    (s.rounds legs).Pairwise (fun l l' => l.setup.options.validate = .ok () →
      l.objects.progress < l'.objects.progress ∧ l.objects.board < l'.objects.board) := by
  induction legs generalizing s with
  | nil => exact .nil
  | cons leg legs ih =>
      refine List.pairwise_cons.mpr ⟨fun l hl hvalid => ?_, ih (s.next leg)⟩
      have hle := (s.next leg).fresh_le legs l hl
      rw [fresh_next, show leg.setup.options.validate = .ok () from hvalid] at hle
      rw [objects_launch]
      exact ⟨hle.1, hle.2⟩

end Session

end BuildRound
