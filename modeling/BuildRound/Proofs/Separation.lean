import Mathlib.Data.List.Forall2
import BuildRound.Proofs.Completion
import BuildRound.Proofs.Session
import BuildRound.Proofs.Veil

/-!
# Rounds of a session are separate

Whatever else is done to objects of earlier rounds, before a round or during it, makes no difference to the round. The
session that leaves those objects alone runs beside the other, and the two worlds stay the same under the veil.
-/

namespace BuildRound

open Round

/-! ## The watch of a round -/

/-- What is known of a watch, if it is kept from step to step and a thread that runs then watches no objects of
earlier rounds. -/
structure Watch.Guard (k m : Nat) (G : Watch → Prop) : Prop where
  new {v : Watch} : G v → v.dog.isRunning = true → k ≤ v.progress ∧ m ≤ v.board
  kept {v v' : Watch} : v.Continues v' → G v → G v'

theorem Watch.guard_idle (k m : Nat) : Guard k m (·.dog.isRunning = false) where
  new h hrunning := by simp [h] at hrunning
  kept h hv := h.running.trans hv

def Watch.Posted (k m : Nat) (v : Watch) : Prop :=
  k ≤ v.progress ∧ m ≤ v.board

theorem Watch.guard_posted (k m : Nat) : Guard k m (Posted k m) where
  new h _ := h
  kept h hv := by rwa [Posted, h.progress, h.board]

/-- The worlds differ in nothing but objects of earlier rounds, the logs, and what was done to those objects; this is
known of the watch, and the boards among those objects are off the bus. -/
structure World.SameSince (k m : Nat) (G : Watch → Prop) (w w' : World) : Prop where
  same : w.SameBy (since k m) w'
  guard : G w.watch
  left : w.PastLeft m

namespace World.SameSince

variable {k m : Nat} {G : Watch → Prop} {w w' : World}

theorem watch (h : SameSince k m G w w') : w'.watch = w.watch :=
  (congrArg World.watch h.same :)

theorem map {f : World → World} (hf : ∀ w, (f (w.since k m)).since k m = (f w).since k m)
    (hguard : G w.watch → G (f w).watch) (hleft : w.PastLeft m → (f w).PastLeft m) (h : SameSince k m G w w') :
    SameSince k m G (f w) (f w') :=
  ⟨h.same.map hf, hguard h.guard, hleft h.left⟩

theorem note (h : SameSince k m G w w') (o : Occurrence) : SameSince k m G (w.note o) (w'.note o) :=
  h.map (f := (·.note o)) (fun w => w.since_note o) id id

theorem advance (h : SameSince k m G w w') (hk : k ≤ w.watch.progress) (hm : m ≤ w.watch.board)
    (interval : Nanos) (stopping : Bool) (loop : Loop) :
    (Watchdog.advance surroundings interval stopping loop w').1 =
        (Watchdog.advance surroundings interval stopping loop w).1 ∧
      (Watchdog.advance surroundings interval stopping loop w).2.SameBy (since k m)
        (Watchdog.advance surroundings interval stopping loop w').2 := by
  obtain ⟨hloop, hnext⟩ := advance_since interval stopping loop hk hm
  obtain ⟨hloop', hnext'⟩ := advance_since interval stopping loop (w := w') (h.watch ▸ hk) (h.watch ▸ hm)
  rw [show w'.since k m = w.since k m from h.same] at hloop' hnext'
  exact ⟨hloop'.symm.trans hloop, hnext'.symm.trans hnext⟩

section Guarded

variable (hG : Watch.Guard k m G)

include hG

theorem moveWatchdog (h : SameSince k m G w w') : SameSince k m G w.moveWatchdog w'.moveWatchdog := by
  refine ⟨?_, hG.kept w.moveWatchdog_flow.watch h.guard, w.moveWatchdog_flow.boards.pastLeft h.left⟩
  unfold World.moveWatchdog Watchdog.step
  rw [h.watch]
  cases hthread : w.watch.dog.thread with
  | none => exact h.same.map (f := fun v => withDog (w.watch.dog, v)) (fun v => v.since_withWatch _)
  | some loop =>
      obtain ⟨hk, hm⟩ := hG.new h.guard (by simp [Watchdog.isRunning, hthread])
      obtain ⟨hloop, hnext⟩ := h.advance hk hm w.watch.dog.interval w.watch.dog.stopping loop
      simp only [hloop]
      exact hnext.map (f := fun v => withDog ({ w.watch.dog with thread := _ }, v)) (fun v => v.since_withWatch _)

theorem move (h : SameSince k m G w w') (mv : Move) : SameSince k m G (w.move mv) (w'.move mv) := by
  cases mv with
  | pass duration => exact ⟨SameBy.wait h.same duration, h.guard, h.left⟩
  | watch => exact h.moveWatchdog hG
  | cancel token =>
      have hsignals : SameSince k m G { w with signals := w.signals.cancel token }
          { w' with signals := w'.signals.cancel token } :=
        h.map (f := fun w => { w with signals := w.signals.cancel token })
          (fun w => since_since { w with signals := w.signals.cancel token }) id id
      exact hsignals.note _

theorem moves (h : SameSince k m G w w') (ms : List Move) :
    SameSince k m G (ms.foldl World.move w) (ms.foldl World.move w') := by
  induction ms generalizing w w' with
  | nil => exact h
  | cons mv ms ih => exact ih (h.move hG mv)

theorem turn (h : SameSince k m G w w') (s : Schedule) : SameSince k m G (w.turn s) (w'.turn s) := by
  have hturns : w'.turns = w.turns := (congrArg World.turns h.same :)
  have hmoves := h.moves hG (s w.turns)
  unfold World.turn
  rw [hturns]
  exact hmoves.map (f := fun v => { v with turns := w.turns + 1 })
    (fun v => since_since { v with turns := w.turns + 1 }) id id

theorem perform (h : SameSince k m G w w') (l : Option Nat) {c : Command} (hc : c.isPast k m = false) :
    (w'.perform l c).1 = (w.perform l c).1 ∧ SameSince k m G (w.perform l c).2 (w'.perform l c).2 := by
  obtain ⟨hreply, hnext⟩ := perform_since l hc w w' h.same
  have hflow := w.perform_flow l c
  exact ⟨hreply, hnext, hG.kept hflow.watch h.guard, hflow.boards.pastLeft h.left⟩

/-- What reaches only objects of earlier rounds cannot be told from a rest of no time. -/
theorem perform_past (h : SameSince k m G w w') (l : Option Nat) {c : Command} (hc : c.isPast k m = true) :
    SameSince k m G (w.perform l c).2 (w'.perform l (.rest 0)).2 := by
  have hflow := w.perform_flow l c
  refine ⟨?_, hG.kept hflow.watch h.guard, hflow.boards.pastLeft h.left⟩
  have hrest : (w'.perform l (.rest 0)).2.since k m = { w' with clock := w'.clock + 1 }.since k m :=
    since_note_of_isPast _ (o := .issued l (.rest 0) ()) rfl
  show (w'.perform l (.rest 0)).2.since k m = (w.perform l c).2.since k m
  rw [hrest, perform_since_of_isPast l h.left hc]
  exact SameBy.wait h.same 1

end Guarded

end World.SameSince

/-! ## Engines that leave earlier rounds alone -/

/-- The second program is the first without what reaches only objects of earlier rounds: instead it rests for no time,
and goes on as the first does on every reply. -/
inductive Program.Without {α : Type} (k m : Nat) : Program α → Program α → Prop
  | done (a : α) : Without k m (.done a) (.done a)
  | kept {c : Command} (hc : c.isPast k m = false) {next next' : c.Reply → Program α}
      (hnext : ∀ r, Without k m (next r) (next' r)) : Without k m (.issue c next) (.issue c next')
  | past {c : Command} (hc : c.isPast k m = true) {next : c.Reply → Program α} {p : Program α}
      (hnext : ∀ r, Without k m (next r) p) : Without k m (.issue c next) (.issue (.rest 0) (fun _ => p))

structure Engine.Without {σ : Type} (k m : Nat) (e e' : Engine σ) : Prop where
  prepare (x : σ) : (e.prepare x).Without k m (e'.prepare x)
  setFileCache (cache : FileCache) (x : σ) : (e.setFileCache cache x).Without k m (e'.setFileCache cache x)
  attach (objects : Option Attachment) (x : σ) : (e.attach objects x).Without k m (e'.attach objects x)
  findConflicts (x : σ) : (e.findConflicts x).Without k m (e'.findConflicts x)
  informModified (files : ModifiedFiles) (x : σ) : (e.informModified files x).Without k m (e'.informModified files x)
  evaluate (q : Request) (x : σ) : (e.evaluate q x).Without k m (e'.evaluate q x)
  reportCycles (report : EvaluationResult.CycleReport) (x : σ) :
    (e.reportCycles report x).Without k m (e'.reportCycles report x)

section Engines

variable {k m : Nat} {G : Watch → Prop} (hG : Watch.Guard k m G) (s : World.Schedule)

include hG

theorem Program.Without.coupled {α : Type} {p p' : Program α} (hp : p.Without k m p') :
    Coupled s s (World.SameSince k m G) p p' := by
  intro l w w' hw
  induction hp generalizing w w' with
  | done a => exact ⟨rfl, hw⟩
  | kept hc hnext ih =>
      obtain ⟨hreply, hnext⟩ := (hw.turn hG s).perform hG l hc
      simp only [run, hreply]
      exact ih _ _ _ hnext
  | past hc hnext ih =>
      -- Of either command only the time it takes is seen.
      have hpast := (hw.turn hG s).perform_past hG l hc
      simp only [run]
      exact ih _ _ _ hpast

theorem Engine.Without.coupled {σ : Type} {e e' : Engine σ} (h : e.Without k m e') :
    e.Coupled s s (World.SameSince k m G) e' where
  prepare x := (h.prepare x).coupled hG s
  setFileCache cache x := (h.setFileCache cache x).coupled hG s
  attach objects x := (h.attach objects x).coupled hG s
  findConflicts x := (h.findConflicts x).coupled hG s
  informModified files x := (h.informModified files x).coupled hG s
  evaluate q x := (h.evaluate q x).coupled hG s
  reportCycles report x := (h.reportCycles report x).coupled hG s

end Engines

namespace Round

variable {k m : Nat} {G : Watch → Prop} {host : Host}

open World

/-! ## Steps of a round -/

theorem lockstep_since (hG : Watch.Guard k m G) (host : Host) : Lockstep host host (SameSince k m G) where
  turn h := h.turn hG host.schedule
  say _ _ h := ⟨h.same, h.guard, h.left⟩
  note o h := h.note o

theorem opening_since (host : Host) (interval : Nanos) :
    Opening host host interval interval (SameSince k m (·.dog.isRunning = false)) where
  toLockstep := lockstep_since (Watch.guard_idle k m) host
  newProgress requested built w w' h :=
    have hnew := (since_newProgress requested built).carries w w' h.same
    ⟨hnew.1, hnew.2, h.guard, h.left⟩
  newBoard w w' h :=
    have hnew := since_newBoard.carries w w' h.same
    ⟨hnew.1, hnew.2, h.guard, fun j hj => (h.left j hj).newBoard⟩
  watch objects _ _ h :=
    ⟨h.same.map (f := fun w => { w with
      watch := { dog := .ofInterval interval, progress := objects.progress, board := objects.board } })
        (fun w => since_withWatch w _), rfl, h.left⟩

theorem working_since (host : Host) {i : Nat} (hi : k ≤ i) :
    Working host host i (SameSince k m (Watch.Posted k m)) where
  toLockstep := lockstep_since (Watch.guard_posted k m) host
  signals h := (congrArg World.signals h.same :)
  progress h := by
    have hget := congrArg (fun v : World => v.progresses[i]?) h.same
    simpa only [since, getElem?_veiled_of_le _ hi] using hget
  onProgress f h := h.map (f := (·.onProgress i f)) (fun w => w.since_onProgress i f) id id
  exclude h := h.map (f := fun w => { w with watch := { w.watch with exclusive := true } })
    (fun w => since_withWatch w { w.watch with exclusive := true }) id id
  dismiss j h := by
    refine h.map (f := (·.dismissBoard j)) (fun w => w.since_dismissBoard j) (fun hguard => ?_)
      (dismissBoard_keepsBoards _ j).pastLeft
    rwa [watch_dismissBoard]

/-! ## Stopping the watchdog -/

end Round

namespace World.SameSince

variable {k m : Nat} {w w' : World}

theorem withDog {G : Watch → Prop} (h : SameSince k m G w w') (d : Watchdog)
    (hguard : G w.watch → G (World.withDog (d, w)).watch) :
    SameSince k m G (World.withDog (d, w)) (World.withDog (d, w')) :=
  h.map (f := fun v => World.withDog (d, v)) (fun v => v.since_withWatch { v.watch with dog := d }) hguard id

theorem run (h : SameSince k m (Watch.Posted k m) w w') (n : Nat) (d : Watchdog) :
    (d.run surroundings n w').1 = (d.run surroundings n w).1 ∧
      SameSince k m (Watch.Posted k m) (d.run surroundings n w).2 (d.run surroundings n w').2 := by
  induction n generalizing d w w' with
  | zero => exact ⟨rfl, h⟩
  | succ n ih =>
      unfold Watchdog.run
      split
      · exact ⟨rfl, h⟩
      · unfold Watchdog.step
        cases d.thread with
        | none => exact ih h d
        | some loop =>
            obtain ⟨hloop, hnext⟩ := h.advance h.guard.1 h.guard.2 d.interval d.stopping loop
            have haside := advance_aside d.interval d.stopping loop w
            have hkept : w.KeepsBoards _ := .of_eq haside.registrations haside.bus
            simp only [hloop]
            refine ih ⟨hnext, ?_, hkept.pastLeft h.left⟩ _
            rw [Watch.Posted, haside.progress, haside.board]
            exact h.guard

theorem join (h : SameSince k m (Watch.Posted k m) w w') (d : Watchdog) :
    (d.join surroundings w').1 = (d.join surroundings w).1 ∧
      SameSince k m (Watch.Posted k m) (d.join surroundings w).2 (d.join surroundings w').2 := by
  obtain ⟨hdog, hnext⟩ := h.run Watchdog.joinBound d
  unfold Watchdog.join
  simp only [hdog]
  split
  next panicked _ =>
    cases panicked with
    | false => exact ⟨rfl, hnext⟩
    | true => exact ⟨rfl, hnext.same, hnext.guard, hnext.left⟩
  next => exact ⟨rfl, hnext⟩

theorem joinWatchdog (h : SameSince k m (Watch.Posted k m) w w') :
    SameSince k m (Watch.Posted k m) w.joinWatchdog w'.joinWatchdog := by
  obtain ⟨hdog, hnext⟩ := h.join w.watch.dog
  have hjoined := hnext.withDog (w.watch.dog.join surroundings w).1 id
  have hback : World.withDog (w'.watch.dog.join surroundings w') =
      World.withDog ((w.watch.dog.join surroundings w).1, (w.watch.dog.join surroundings w').2) := by
    rw [h.watch, ← hdog]
  unfold World.joinWatchdog
  simp only [hback, hjoined.watch]
  split
  · exact hjoined
  · exact hjoined.note .joined

theorem toldToStop (h : SameSince k m (Watch.Posted k m) w w') (s : Schedule) :
    SameSince k m (Watch.Posted k m) (w.toldToStop s) (w'.toldToStop s) := by
  have hG := Watch.guard_posted k m
  have hflag := ((h.turn hG s).turn hG s).map
    (f := fun w => World.withDog ({ w.watch.dog with stopping := true }, w))
    (fun w => w.since_withWatch { w.watch with dog := { w.watch.dog with stopping := true } }) id id
  have hinterrupt := (hflag.turn hG s).map (f := surroundings.interrupt)
    (fun w => w.since_onProgress w.watch.progress Progress.interruptWaiters) id id
  exact hinterrupt.turn hG s

end World.SameSince

namespace Round

variable {σ : Type} {k m : Nat}

open World

theorem start_since (host : Host) :
    Carries (SameSince k m (Watch.Posted k m)) (SameSince k m (Watch.Posted k m)) (spawnWatchdog host)
      (spawnWatchdog host) := by
  intro w w' h
  simp only [spawnWatchdog, h.watch]
  exact ⟨by trivial, h.withDog (w.watch.dog.start host.canSpawn).2 id⟩

theorem stopWatchdog_since (host : Host) {s s' : Stage σ} (h : s.Meets (SameSince k m (Watch.Posted k m)) s') :
    ((stopWatchdog host).on s).2.Meets (SameSince k m (Watch.Posted k m)) ((stopWatchdog host).on s').2 := by
  have hturn := h.world.turn (Watch.guard_posted k m) host.schedule
  rw [stopWatchdog_on, stopWatchdog_on]
  refine ⟨?_, h.engine⟩
  simp only [hturn.watch]
  split
  · exact (h.world.toldToStop host.schedule).joinWatchdog
  · exact hturn

end Round

/-! ## Whole rounds -/

namespace Launch

open World Round

variable {σ : Type}

/-- The two rounds are asked for in the same way, the second on an engine that leaves the objects of earlier rounds
alone, and they begin alike but for those objects. -/
structure Spares (l l' : Launch σ) : Prop where
  host : l'.host = l.host
  setup : l'.setup = l.setup
  order : l'.order = l.order
  built : l'.built = l.built
  engine : l.engine.Without l.objects.progress l.objects.board l'.engine
  settled : l.stage.world.Settled
  stage : l.stage.Meets (SameBy (since l.objects.progress l.objects.board)) l'.stage

namespace Spares

variable {l l' : Launch σ}

theorem abreast (h : l.Spares l') :
    Abreast (SameSince l.objects.progress l.objects.board (·.dog.isRunning = false))
      (SameSince l.objects.progress l.objects.board (Watch.Posted l.objects.progress l.objects.board))
      l.setup.options.reportInterval l l' where
  setup := h.setup
  order := h.order
  built := h.built
  stage := ⟨⟨h.stage.world, h.settled.idle, fun _ hj => h.settled.left_of_lt hj⟩, h.stage.engine⟩
  opening := h.host ▸ opening_since l.host l.setup.options.reportInterval
  -- Until the round has entered no watchdog runs, and from then on it watches the objects of this round.
  before := h.host ▸ h.engine.coupled (Watch.guard_idle _ _) l.host.schedule
  entered hentered := by
    obtain ⟨_, -, -, hopened⟩ := l.opens
    obtain ⟨hprogress, hboard⟩ := hopened.post
    exact ⟨hentered.same, ⟨Nat.le_of_eq hprogress.symm, Nat.le_of_eq hboard.symm⟩, hentered.left⟩
  after := h.host ▸ h.engine.coupled (Watch.guard_posted _ _) l.host.schedule
  working := h.host ▸ working_since l.host (Nat.le_refl _)
  start := by
    rw [h.host]
    exact start_since l.host

theorem ends (h : l.Spares l') :
    l'.outcome = l.outcome ∧ l'.returned = l.returned ∧
      l.done.2.Meets (SameBy (since l.objects.progress l.objects.board)) l'.done.2 := by
  have hvalidate : l'.setup.options.validate = l.setup.options.validate := by rw [h.setup]
  cases hvalid : l.setup.options.validate with
  | error e =>
      obtain ⟨houtcome, hreturned, hmeet⟩ := h.abreast.fails hvalid (hvalidate.trans hvalid)
      exact ⟨houtcome, hreturned, hmeet.world.same, hmeet.engine⟩
  | ok _ =>
      obtain ⟨houtcome, hreturned, hmeet⟩ := h.abreast.ends hvalid (hvalidate.trans hvalid)
        (by rw [h.host]; exact stopWatchdog_since l.host h.abreast.works.2)
      exact ⟨houtcome, hreturned, hmeet.world.same, hmeet.engine⟩

end Spares

/-- The second round comes out like the first, and does the same with its own objects. -/
structure Matches (l l' : Launch σ) : Prop where
  objects : l'.objects = l.objects
  outcome : l'.outcome = l.outcome
  returned : l'.returned = l.returned
  record : l'.record.filter (!·.isPast l.objects.progress l.objects.board) =
    l.record.filter (!·.isPast l.objects.progress l.objects.board)
  progress : l'.world.progresses[l.objects.progress]? = l.world.progresses[l.objects.progress]?
  board : l'.world.boards[l.objects.board]? = l.world.boards[l.objects.board]?

theorem Spares.matches {l l' : Launch σ} (h : l.Spares l') : l.Matches l' := by
  obtain ⟨houtcome, hreturned, hmeet⟩ := h.ends
  have hworld : l'.world.since l.objects.progress l.objects.board = l.world.since l.objects.progress l.objects.board :=
    hmeet.world
  have hstage := h.stage.world
  refine ⟨?_, houtcome, hreturned, ?_, ?_, ?_⟩
  · have hprogresses := congrArg (·.progresses.length) hstage
    have hboards := congrArg (·.boards.length) hstage
    simp only [since, length_veiled] at hprogresses hboards
    simp only [objects, progress, hprogresses, hboards]
  · have hbefore := congrArg World.trace hstage
    have hafter := congrArg World.trace hworld
    simp only [since, trace_eq, List.filter_append] at hbefore hafter
    rw [hbefore] at hafter
    exact List.append_cancel_left hafter
  · simpa only [since, getElem?_veiled_of_le _ (Nat.le_refl _)] using
      congrArg (·.progresses[l.objects.progress]?) hworld
  · simpa only [since, getElem?_veiled_of_le _ (Nat.le_refl _)] using
      congrArg (·.boards[l.objects.board]?) hworld

end Launch

/-! ## Between rounds -/

/-- Whether what is done between rounds reaches no more than objects of earlier rounds. At the time of a broadcast no
other boards are there. -/
def Interim.isPast (k m : Nat) : Interim → Bool
  | .command c => c.isPast k m
  | .display j _ | .leave j => j < m
  | .broadcast _ => true

namespace World

variable {k m : Nat} {w w' : World}

theorem interim_since {i : Interim} (hi : i.isPast k m = false) (h : w.SameBy (since k m) w') :
    (w.interim i).SameBy (since k m) (w'.interim i) := by
  refine h.map (f := (·.interim i)) (fun w => ?_)
  cases i with
  | command c => exact (execute_since none hi w).2
  | display j progress =>
      have hj : m ≤ j := Nat.le_of_not_lt (of_decide_eq_false hi)
      have hclock : (w.since k m).clock = w.clock := rfl
      rw [interim_display, interim_display, w.readBoard_since hj, hclock]
      split
      · exact w.since_since
      · exact w.since_onBoard j (fun _ => rfl)
  | leave j => exact w.since_dismissBoard j
  | broadcast event => cases hi

theorem interim_since_of_isPast {i : Interim} (hi : i.isPast k m = true) (hw : w.Settled)
    (hm : w.boards.length = m) : (w.interim i).since k m = w.since k m := by
  cases i with
  | command c => exact execute_since_of_isPast none (fun _ hj => hw.left_of_lt (hm ▸ hj)) hi
  | display j progress =>
      rw [interim_display]
      split
      · rfl
      · exact (w.say .caller _).since_onBoard_of_lt (.inr (Nat.le_of_eq hm)) (fun _ => rfl)
  | leave j => exact congrArg (since k m) (hw.dismissBoard j)
  | broadcast event =>
      refine (announce_keeps (P := fun v => v.boards.length ≤ m ∧ v.since k m = w.since k m) ?_
        ⟨Nat.le_of_eq hm, rfl⟩).2
      rintro v j ⟨hv, hsince⟩
      have hreceive : (v.onBoard j (·.receive v.clock event)).since k m = v.since k m :=
        v.since_onBoard_of_lt (.inr hv) (fun b => b.registration_receive v.clock event)
      exact ⟨by simpa [onBoard] using hv, hreceive.trans hsince⟩

/-- What reaches no more than objects of earlier rounds may as well be left out. -/
theorem meanwhile_since (h : w.SameBy (since k m) w') (hw : w.Settled) (hm : w.boards.length = m)
    (interims : List Interim) :
    (w.meanwhile interims).SameBy (since k m) (w'.meanwhile (interims.filter (!·.isPast k m))) := by
  induction interims generalizing w w' with
  | nil => exact h
  | cons i rest ih =>
      have hlength : (w.interim i).boards.length = m := (w.interim_lengths i).2.trans hm
      cases hi : i.isPast k m with
      | true =>
          have hsame : (w.interim i).SameBy (since k m) w' := Eq.trans h (interim_since_of_isPast hi hw hm).symm
          simpa [meanwhile_cons, hi] using ih hsame (hw.interim i) hlength
      | false => simpa [meanwhile_cons, hi] using ih (interim_since hi h) (hw.interim i) hlength

end World

/-! ## Sessions -/

/-- The second leg is the first without what reaches no more than objects of earlier rounds, before the round and
during it. -/
structure Leg.Spares {σ : Type} (k m : Nat) (leg leg' : Leg σ) : Prop where
  host : leg'.host = leg.host
  setup : leg'.setup = leg.setup
  order : leg'.order = leg.order
  engine : leg.engine.Without k m leg'.engine
  meanwhile : leg'.meanwhile = leg.meanwhile.filter (!·.isPast k m)

namespace Session

variable {σ : Type}

/-- For each leg in turn, the second session leaves the objects of earlier rounds alone. -/
inductive Spares : Session σ → List (Leg σ) → List (Leg σ) → Prop
  | nil (s : Session σ) : Spares s [] []
  | cons {s : Session σ} {leg leg' : Leg σ} {legs legs' : List (Leg σ)}
      (h : leg.Spares s.fresh.progress s.fresh.board leg') (hs : Spares (s.next leg) legs legs') :
      Spares s (leg :: legs) (leg' :: legs')

/-- The sessions stand at the same point, but for objects of earlier rounds. -/
structure Beside (s s' : Session σ) : Prop where
  built : s'.built = s.built
  stage : s.stage.Meets (World.SameBy (World.since s.fresh.progress s.fresh.board)) s'.stage

theorem Beside.refl (s : Session σ) : s.Beside s :=
  ⟨rfl, rfl, rfl⟩

variable {s s' : Session σ} {leg leg' : Leg σ}

theorem Beside.launch (h : s.Beside s') (hleg : leg.Spares s.fresh.progress s.fresh.board leg') :
    (s.launch leg).Spares (s'.launch leg') where
  host := hleg.host
  setup := hleg.setup
  order := hleg.order
  built := h.built
  engine := by
    rw [objects_launch]
    exact hleg.engine
  settled := s.launch_settled leg
  stage := by
    rw [objects_launch]
    refine ⟨?_, h.stage.engine⟩
    show (s.stage.world.meanwhile leg.meanwhile).SameBy _ (s'.stage.world.meanwhile leg'.meanwhile)
    rw [hleg.meanwhile]
    exact World.meanwhile_since h.stage.world s.settled rfl leg.meanwhile

theorem Beside.next (h : s.Beside s') (hleg : leg.Spares s.fresh.progress s.fresh.board leg') :
    (s.next leg).Beside (s'.next leg') := by
  obtain ⟨-, hreturned, hmeet⟩ := (h.launch hleg).ends
  rw [objects_launch] at hmeet
  obtain ⟨hk, hm⟩ := s.fresh_le_next leg
  refine ⟨hreturned, ?_, hmeet.engine⟩
  -- The next round has more objects of earlier rounds, so its veil covers what this one covers.
  have hlater := congrArg (World.since (s.next leg).fresh.progress (s.next leg).fresh.board) hmeet.world
  rwa [World.since_of_le hk hm, World.since_of_le hk hm] at hlater

theorem Beside.matches {legs legs' : List (Leg σ)} (h : s.Beside s') (hlegs : s.Spares legs legs') :
    List.Forall₂ Launch.Matches (s.rounds legs) (s'.rounds legs') := by
  induction hlegs generalizing s' with
  | nil => exact .nil
  | cons hleg hs ih => exact .cons (h.launch hleg).matches (ih (h.next hleg))

/-- Whatever rounds are run one after another and whatever is done in between: the caller's set keeps what it holds, as
it is spelled; each round leaves the bus to the listeners of the engine; each round with valid options attaches a
progress and a board that are new and untouched; and whatever is done to objects of earlier rounds, between rounds or
by the engine during them, and whatever is broadcast between rounds, all rounds come out as without it. -/
theorem rounds_separate (s : Session σ) (legs : List (Leg σ)) :
    (s.built :: (s.rounds legs).map Launch.returned).Pairwise ArtifactSet.Within ∧
      (∀ l ∈ s.rounds legs, l.world.bus.entries = l.record.enrolled l.stage.world.bus.entries) ∧
      (∀ l ∈ s.rounds legs, l.setup.options.validate = .ok () → l.AttachesFresh) ∧
      (s.rounds legs).Pairwise (fun l l' => l.setup.options.validate = .ok () →
        l.objects.progress < l'.objects.progress ∧ l.objects.board < l'.objects.board) ∧
      ∀ legs', s.Spares legs legs' → List.Forall₂ Launch.Matches (s.rounds legs) (s.rounds legs') :=
  ⟨s.built_within legs, forall_rounds (fun s leg => (s.launch leg).listeners_kept) s legs,
    forall_rounds (fun s leg => (s.launch leg).attaches_fresh (s.launch_settled leg)) s legs,
    s.objects_increase legs, fun _ hlegs => (Beside.refl s).matches hlegs⟩

/-- An engine that evaluates by issuing these commands. -/
def issuing (cs : List Command) : Engine Unit where
  prepare x := .done x
  setFileCache _ x := .done x
  attach _ x := .done x
  findConflicts x := .done (.ok (), x)
  informModified _ x := .done x
  evaluate _ x := cs.foldr (fun c rest => .issue c (fun _ => rest)) (.done (.ok {}, x))
  reportCycles _ x := .done x

theorem issuing_without (k m : Nat) (cs : List Command) :
    (issuing cs).Without k m (issuing (cs.map (fun c => if c.isPast k m then .rest 0 else c))) := by
  constructor
  case evaluate =>
    intro q x
    show Program.Without k m (cs.foldr _ _) (List.foldr _ _ _)
    induction cs with
    | nil => exact .done _
    | cons c cs ih =>
        cases hc : c.isPast k m with
        | true => simpa [hc] using Program.Without.past hc (fun _ => ih)
        | false => simpa [hc] using Program.Without.kept hc (fun _ => ih)
  all_goals
    intros
    exact .done _

def plainLeg (meanwhile : List Interim) (cs : List Command) : Leg Unit where
  meanwhile
  host := { schedule := fun _ => [] }
  engine := issuing cs
  setup := { options := ⟨false, 1, 1⟩, needsExecution := fun _ => true, fileCache := fun _ => none }
  order := { requested := .empty, exclusive := [], context := ⟨⟨0⟩⟩, modified := .everything }

def unused : Session Unit where
  stage := { world := { signals := ⟨[false]⟩ }, engine := () }
  built := .empty
  settled := ⟨Bus.numbered_empty, rfl, by simp⟩

/-- The objects of the first round are used again before and during the second one. -/
def overstaying : List (Leg Unit) :=
  [plainLeg [] [.deliver 0 (.started Launch.compile)],
    plainLeg [.broadcast (.started Launch.compile), .command (.complete 0 Launch.compile)]
      [.deliver 0 (.completed Launch.compile 0), .deliver 1 (.started Launch.compile), .readRunning 1]]

def discreet : List (Leg Unit) :=
  [plainLeg [] [.deliver 0 (.started Launch.compile)],
    plainLeg [] [.rest 0, .deliver 1 (.started Launch.compile), .readRunning 1]]

theorem spares_overstaying : unused.Spares overstaying discreet := by
  have hfresh : (unused.next (plainLeg [] [.deliver 0 (.started Launch.compile)])).fresh = ⟨1, 1⟩ := by
    rw [fresh_next]
    rfl
  have hfirst : (plainLeg [] [.deliver 0 (.started Launch.compile)]).Spares 0 0
      (plainLeg [] [.deliver 0 (.started Launch.compile)]) :=
    ⟨rfl, rfl, rfl, issuing_without 0 0 _, rfl⟩
  have hsecond : (plainLeg [.broadcast (.started Launch.compile), .command (.complete 0 Launch.compile)]
      [.deliver 0 (.completed Launch.compile 0), .deliver 1 (.started Launch.compile), .readRunning 1]).Spares 1 1
      (plainLeg [] [.rest 0, .deliver 1 (.started Launch.compile), .readRunning 1]) :=
    ⟨rfl, rfl, rfl, issuing_without 1 1 _, rfl⟩
  exact .cons hfirst (.cons (by rw [hfresh]; exact hsecond) (.nil _))

/-- Only the progress and the board of the first round come out different. -/
theorem rounds_separate_overstaying :
    unused.Spares overstaying discreet ∧
      (unused.rounds overstaying).map (·.world.progresses.map Progress.completedCount) = [[0], [1, 0]] ∧
      (unused.rounds discreet).map (·.world.progresses.map Progress.completedCount) = [[0], [0, 0]] ∧
      (unused.rounds overstaying).map (·.world.boards.map Board.count) = [[1], [0, 1]] ∧
      (unused.rounds discreet).map (·.world.boards.map Board.count) = [[1], [1, 1]] ∧
      List.Forall₂ Launch.Matches (unused.rounds overstaying) (unused.rounds discreet) :=
  ⟨spares_overstaying, by decide +kernel, by decide +kernel, by decide +kernel, by decide +kernel,
    (rounds_separate unused overstaying).2.2.2.2 discreet spares_overstaying⟩

end Session

end BuildRound
