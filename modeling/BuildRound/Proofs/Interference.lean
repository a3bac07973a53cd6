import BuildRound.Proofs.Completion
import BuildRound.Proofs.Lockstep

/-!
# The watchdog beside a round

What the watchdog does beside a round, and the time that passes, is erased from the world: the clock, the log, how
far the watchdog's thread and its report have come, and how many reports boards have shown. The steps of a round and
of an engine that does not look at the number of reports act on what is left.
-/

namespace BuildRound

/-! ## Erasing -/

/-- A board without the times its actions started at and without its reports. -/
def Board.erased (b : Board) : Board :=
  { b with running := b.running.map (fun r => (r.1, { r.2 with started := 0 })), reportsShown := 0 }

/-- Of the watchdog only its post, whether it runs and whether it was told to stop. -/
def Watch.erased (v : Watch) : Watch where
  dog := { interval := 0, stopping := v.dog.stopping, thread := v.dog.thread.map (fun _ => .head) }
  progress := v.progress
  board := v.board
  exclusive := v.exclusive

@[simp] theorem Watch.erased_erased (v : Watch) : v.erased.erased = v.erased := by
  simp [erased, Function.comp_def]

namespace Board

@[simp] theorem erased_erased (b : Board) : b.erased.erased = b.erased := by
  simp [erased, Function.comp_def]

@[simp] theorem erased_comp_erased : erased ∘ erased = erased :=
  funext erased_erased

@[simp] theorem erased_comp_silent : erased ∘ silent = erased := rfl

theorem erased_finish (b : Board) (id : ActionId) : (b.finish id).erased = b.erased.finish id := by
  simp [erased, finish, List.filter_map, Function.comp_def]

theorem erased_receive (b : Board) (now now' : Nanos) (event : Event) :
    (b.erased.receive now event).erased = (b.receive now' event).erased := by
  cases event with
  | started action => simp [receive, start, erased, finish, List.filter_map, Function.comp_def]
  | completed action duration => simp [receive, ← erased_finish]
  | failed action duration error => simp [receive, ← erased_finish]

/-- Whether there is a report does not depend on the time. -/
theorem isSome_render (b : Board) (progress : String) (now : Nanos) :
    (b.render progress now).isSome = !b.running.isEmpty := by
  cases h : b.running <;> simp [render, renderActions, h]

theorem leave_erased {ℓ : Type} (b : Board) (bus : Bus ℓ) :
    b.erased.leave bus = ((b.leave bus).1.erased, (b.leave bus).2) := by
  cases h : b.registration <;> simp [leave, erased, h]

end Board

namespace World

variable {α : Type}

def erased (w : World) : World :=
  { w with clock := 0, boards := w.boards.map Board.erased, watch := w.watch.erased, log := [] }

abbrev Same : World → World → Prop :=
  SameBy erased

@[simp] theorem erased_erased (w : World) : w.erased.erased = w.erased := by
  simp [erased]

theorem Same.note {w w' : World} (h : w.Same w') (o : Occurrence) : (w.note o).Same (w'.note o) :=
  congrArg (fun v : World => v.note o) h

/-! ## The watchdog and time -/

theorem Aside.same {w w' : World} (h : w.Aside w') : w.Same w' := by
  have hboards : w'.boards.map Board.erased = w.boards.map Board.erased := by
    simpa using congrArg (List.map Board.erased) h.boards
  simp only [SameBy, erased, Watch.erased, h.turns, h.trace, h.signals, h.progresses, h.bus, hboards, h.progress,
    h.board, h.exclusive, h.dog]

theorem moveWatchdog_same (w : World) : w.Same w.moveWatchdog := by
  unfold moveWatchdog Watchdog.step
  cases hthread : w.watch.dog.thread with
  | none => exact rfl
  | some loop =>
      -- Wherever the step leads the thread, it is still there afterwards, and no more than that is left of it.
      have h := (advance_aside w.watch.dog.interval w.watch.dog.stopping loop w).same
      refine Eq.trans ?_ h
      have hdog := (advance_aside w.watch.dog.interval w.watch.dog.stopping loop w).dog
      simp only [erased, withDog, Watch.erased, hdog, hthread, Option.map_some]

/-- The token that others cancel by a move, if they do. -/
def Move.token? : Move → Option Token
  | .cancel token => some token
  | _ => none

def cancelled (w : World) (tokens : List Token) : World :=
  tokens.foldl (fun w token => w.move (.cancel token)) w

theorem Same.cancelled {w w' : World} (h : w.Same w') (tokens : List Token) :
    (w.cancelled tokens).Same (w'.cancelled tokens) := by
  induction tokens generalizing w w' with
  | nil => exact h
  | cons token tokens ih =>
      exact ih (h.map (f := (·.move (.cancel token))) (fun w => by simp [move, World.note, erased]))

/-- Of all the moves beside a round, cancellations are what is left. -/
theorem moves_same (ms : List Move) (w : World) :
    (w.cancelled (ms.filterMap Move.token?)).Same (ms.foldl move w) := by
  induction ms generalizing w with
  | nil => exact rfl
  | cons m ms ih =>
      cases m with
      | pass duration =>
          have hpass : w.Same (w.move (.pass duration)) := rfl
          exact (ih _).trans (hpass.cancelled _)
      | watch => exact (ih _).trans (w.moveWatchdog_same.cancelled _)
      | cancel token => exact ih _

/-- Others cancel the same tokens at the same turns. -/
def SameCancels (s s' : Schedule) : Prop :=
  ∀ n, (s' n).filterMap Move.token? = (s n).filterMap Move.token?

theorem Same.turn {s s' : Schedule} (hcancels : SameCancels s s') {w w' : World} (h : w.Same w') :
    (w.turn s).Same (w'.turn s') := by
  have hturns : w'.erased.turns = w.erased.turns := congrArg World.turns h
  change w'.turns = w.turns at hturns
  have hmoves : ((s w.turns).foldl World.move w).Same ((s' w'.turns).foldl World.move w') := by
    rw [hturns]
    have hw := moves_same (s w.turns) w
    have hw' := moves_same (s' w.turns) w'
    rw [hcancels w.turns] at hw'
    exact (hw'.trans (h.cancelled _)).trans hw.symm
  have hset (v : World) : ({ v with turns := w.turns + 1 } : World).erased =
      { v.erased with turns := w.turns + 1 } := rfl
  simp only [SameBy, World.turn, hturns] at hmoves ⊢
  rw [hset, hset, hmoves]

/-! ## Commands -/

theorem getElem?_erased (w : World) (i : Nat) : w.erased.boards[i]? = w.boards[i]?.map Board.erased :=
  List.getElem?_map

theorem erased_onBoard (w : World) (i : Nat) {f g : Board → Board} (h : ∀ b, (f b.erased).erased = (g b).erased) :
    (w.erased.onBoard i f).erased = (w.onBoard i g).erased := by
  have hboards : (w.erased.boards.modify i f).map Board.erased = (w.boards.modify i g).map Board.erased := by
    apply List.ext_getElem?
    intro j
    simp only [List.getElem?_map, List.getElem?_modify, getElem?_erased]
    cases w.boards[j]? <;> by_cases hij : i = j <;> simp [hij, h]
  unfold onBoard
  rw [erased, hboards]
  simp [erased]

theorem dismissBoard_erased (w : World) (j : Nat) : (w.erased.dismissBoard j).erased = (w.dismissBoard j).erased := by
  simp only [dismissBoard, getElem?_erased]
  cases w.boards[j]? with
  | none => exact w.erased_erased
  | some b => simp [Board.leave_erased, erased, List.map_set]

end World

/-- Everything but looking at how many reports a board has shown. -/
def Command.IsBlind : Command → Prop
  | .readReports _ => False
  | _ => True

namespace World

theorem execute_respects (l : Option Nat) {c : Command} (hc : c.IsBlind) : Respects erased (execute l · c) := by
  intro w
  cases c with
  | deliver i event => exact ⟨rfl, w.erased_onBoard i (fun b => b.erased_receive ..)⟩
  | notify n => cases l <;> exact ⟨rfl, by simp [execute, notify, say, onProgress, erased]⟩
  | readRunning i =>
      refine ⟨?_, by simp [execute]⟩
      simp only [execute, readBoard, getElem?_erased]
      cases w.boards[i]? <;> simp [Board.count, Board.erased]
  | readReports i => exact hc.elim
  | logReport i progress =>
      refine ⟨?_, w.erased_erased⟩
      simp only [execute, readBoard, getElem?_erased]
      cases w.boards[i]? <;> simp [Board.isSome_render, Board.erased]
  | countReport i => exact ⟨rfl, w.erased_onBoard i (fun b => by simp [Board.countReport, Board.erased])⟩
  | leave i =>
      refine ⟨?_, w.dismissBoard_erased i⟩
      simp only [execute, readBoard, getElem?_erased]
      cases w.boards[i]? <;> rfl
  | _ => exact ⟨rfl, by simp [execute, onProgress, erased]⟩

theorem perform_respects (l : Option Nat) {c : Command} (hc : c.IsBlind) : Respects erased (perform l · c) := by
  intro w
  obtain ⟨ha, hnext⟩ := (execute_respects l hc).carries { w with clock := w.clock + 1 }
    { w.erased with clock := w.erased.clock + 1 } (by simp [SameBy, erased])
  simp only [perform, ha]
  exact ⟨by trivial, Same.note hnext _⟩

/-! ## Stopping the watchdog -/

variable {s s' : Schedule} {w w' : World}

theorem Same.toldToStop (hcancels : SameCancels s s') (h : w.Same w') :
    (w.toldToStop s).Same (w'.toldToStop s') := by
  have hflag : Same _ _ := ((h.turn hcancels).turn hcancels).map
    (f := fun w => withDog ({ w.watch.dog with stopping := true }, w))
    (fun w => by simp [withDog, erased, Watch.erased, Function.comp_def])
  have hinterrupt : Same _ _ := (hflag.turn hcancels).map (f := surroundings.interrupt)
    (fun w => by simp [surroundings, onProgress, erased, Watch.erased, Function.comp_def])
  exact hinterrupt.turn hcancels

/-- The world with its watchdog's thread gone. -/
def retired (w : World) : World :=
  withDog ({ w.watch.dog with thread := none }, w)

theorem Same.retired (h : w.Same w') : w.retired.Same w'.retired :=
  h.map (f := World.retired) (fun w => by simp [World.retired, withDog, erased, Watch.erased])

/-- Joining only ends the thread. -/
theorem Joinable.join_same (h : w.Joinable) : (w.retired.note .joined).Same w.joinWatchdog := by
  obtain ⟨joined, v, haside, hjoin⟩ := h.join
  rw [hjoin]
  refine Same.note (Eq.trans ?_ haside.same.retired) .joined
  simp only [retired, erased, withDog, Watch.erased, haside.dog]

theorem Same.joinWatchdog (h : w.Same w') (hw : w.Joinable) (hw' : w'.Joinable) :
    w.joinWatchdog.Same w'.joinWatchdog :=
  hw'.join_same.trans ((h.retired.note .joined).trans hw.join_same.symm)

end World

/-! ## Engines that do not look -/

/-- A program that never looks at how many reports a board has shown. -/
def Program.Blind {α : Type} : Program α → Prop
  | .done _ => True
  | .issue c next => c.IsBlind ∧ ∀ r, (next r).Blind

structure Engine.Blind {σ : Type} (e : Engine σ) : Prop where
  prepare (x : σ) : (e.prepare x).Blind
  setFileCache (cache : FileCache) (x : σ) : (e.setFileCache cache x).Blind
  attach (objects : Option Attachment) (x : σ) : (e.attach objects x).Blind
  findConflicts (x : σ) : (e.findConflicts x).Blind
  informModified (files : ModifiedFiles) (x : σ) : (e.informModified files x).Blind
  evaluate (q : Request) (x : σ) : (e.evaluate q x).Blind
  reportCycles (report : EvaluationResult.CycleReport) (x : σ) : (e.reportCycles report x).Blind

section Schedules

open World

variable {s s' : World.Schedule} (hcancels : SameCancels s s')

include hcancels

theorem Program.Blind.coupled {α : Type} {p : Program α} (hp : p.Blind) : Coupled s s' Same p p := by
  intro l w w' hw
  induction p generalizing w w' with
  | done a => exact ⟨rfl, hw⟩
  | issue c next ih =>
      obtain ⟨hreply, hnext⟩ := (perform_respects l hp.1).carries _ _ (hw.turn hcancels)
      simp only [run, hreply]
      exact ih _ (hp.2 _) _ _ hnext

theorem Engine.Blind.coupled {σ : Type} {e : Engine σ} (h : e.Blind) : e.Coupled s s' Same e where
  prepare x := (h.prepare x).coupled hcancels
  setFileCache cache x := (h.setFileCache cache x).coupled hcancels
  attach objects x := (h.attach objects x).coupled hcancels
  findConflicts x := (h.findConflicts x).coupled hcancels
  informModified files x := (h.informModified files x).coupled hcancels
  evaluate q x := (h.evaluate q x).coupled hcancels
  reportCycles report x := (h.reportCycles report x).coupled hcancels

end Schedules

namespace Round

open World

variable {σ : Type} {host host' : Host} (hcancels : SameCancels host.schedule host'.schedule)

/-! ## Steps of a round -/

include hcancels

theorem lockstep_same : Lockstep host host' Same where
  turn h := h.turn hcancels
  say _ _ h := h
  note o h := h.note o

theorem working_same (i : Nat) : Working host host' i Same where
  toLockstep := lockstep_same hcancels
  signals h := (congrArg World.signals h :)
  progress h := (congrArg (fun w : World => w.progresses[i]?) h :)
  onProgress f h := congrArg (fun w : World => w.onProgress i f) h
  exclude h := h.map (f := fun w => { w with watch := { w.watch with exclusive := true } })
    (fun w => by simp [erased, Watch.erased, Function.comp_def])
  dismiss j h := h.map (f := (·.dismissBoard j)) (fun w => dismissBoard_erased w j)

theorem opening_same (interval interval' : Nanos) : Opening host host' interval interval' Same where
  toLockstep := lockstep_same hcancels
  newProgress requested built := Respects.carries (fun w => ⟨rfl, by simp [newProgress, erased]⟩)
  newBoard := Respects.carries (fun w => ⟨by simp [newBoard, erased], by simp [newBoard, erased, Board.create]⟩)
  watch objects w w' h := by
    have hset := congrArg (fun v : World => { v with
      watch := { dog := { interval := 0 }, progress := objects.progress, board := objects.board } }) h
    exact hset

theorem stopWatchdog_same {s s' : Stage σ} (h : s.Meets Same s')
    (hs : s.world.watch.dog.isRunning = true ∧ (s.world.toldToStop host.schedule).Joinable)
    (hs' : s'.world.watch.dog.isRunning = true ∧ (s'.world.toldToStop host'.schedule).Joinable) :
    ((stopWatchdog host).on s).2.Meets Same ((stopWatchdog host').on s').2 := by
  have hturn (host : Host) (w : World) (hw : w.watch.dog.isRunning = true) :
      (w.turn host.schedule).watch.dog.isRunning = true := by
    obtain ⟨n, -, hflow⟩ := w.turn_flow host.schedule
    exact hflow.watch.running.trans hw
  rw [stopWatchdog_on, stopWatchdog_on, hturn host _ hs.1, hturn host' _ hs'.1]
  exact ⟨(h.world.toldToStop hcancels).joinWatchdog hs.2 hs'.2, h.engine⟩

omit hcancels

theorem start_same (hspawn : host.canSpawn = true) (hspawn' : host'.canSpawn = true) :
    Carries Same Same (spawnWatchdog host) (spawnWatchdog host') := by
  have hsame : spawnWatchdog host' = spawnWatchdog host := by
    funext w
    simp only [spawnWatchdog, hspawn, hspawn', Host.canSpawn_iff.mp hspawn, Host.canSpawn_iff.mp hspawn']
  rw [hsame]
  refine Respects.carries (fun w => ?_)
  cases h : w.watch.dog.thread <;>
    simp [spawnWatchdog, hspawn, Watchdog.start, Watchdog.isRunning, erased, Watch.erased, withDog, h]

end Round

/-! ## Whole rounds -/

/-- What runs on a board, apart from since when. -/
def Board.actions (b : Board) : List (ActionId × String) :=
  b.running.map (fun r => (r.1, r.2.description))

theorem Board.actions_erased (b : Board) : b.erased.actions = b.actions := by
  simp [actions, erased]

namespace Launch

open World Round

variable {σ : Type}

/-- The same round beside another schedule, with reports after another interval. -/
def beside (l : Launch σ) (schedule : World.Schedule) (interval : Nanos) : Launch σ :=
  { l with host := { l.host with schedule }, setup := l.setup.every interval }

section Beside

variable (l : Launch σ) (hblind : l.engine.Blind) (hspawn : l.host.canSpawn = true) {schedule : World.Schedule}
  (hcancels : SameCancels l.host.schedule schedule) (interval : Nanos)

include hblind hspawn hcancels

theorem beside_abreast : Abreast Same Same interval l (l.beside schedule interval) where
  setup := rfl
  order := rfl
  built := rfl
  stage := ⟨rfl, rfl⟩
  opening := opening_same hcancels _ _
  before := hblind.coupled hcancels
  entered := id
  after := hblind.coupled hcancels
  working := working_same hcancels l.progress
  start := start_same hspawn hspawn

end Beside

theorem worked_joinable (l : Launch σ) (hspawn : l.host.canSpawn = true) :
    l.worked.2.world.watch.dog.isRunning = true ∧
      (l.worked.2.world.toldToStop l.host.schedule).Joinable := by
  obtain ⟨u, p, -, -, ⟨-, -, hp⟩, hpost, hrunning, hattended⟩ := l.works
  rw [hspawn] at hrunning
  obtain ⟨n, -, -, hjoinable⟩ := World.toldToStop_settles l.host.schedule hrunning hattended (by rw [hpost, hp]; rfl)
  exact ⟨hrunning, hjoinable⟩

/-- In two rounds that start alike, with the watchdog at work in both, the engine does not look at the number of
reports and others cancel the same tokens at the same turns. However the time passes, whenever the watchdog moves and
whatever it reports, the two make the same calls, with the same replies to all that the engine does in between, end
in the same way, give back the same set and leave the same progresses and running actions. -/
theorem watchdog_beside (l : Launch σ) (hblind : l.engine.Blind) (hspawn : l.host.canSpawn = true)
    {schedule : World.Schedule} (hcancels : SameCancels l.host.schedule schedule) {interval : Nanos}
    (hpositive : 0 < l.setup.options.reportInterval) (hpositive' : 0 < interval) :
    (l.beside schedule interval).record = l.record ∧
      (l.beside schedule interval).outcome = l.outcome ∧ (l.beside schedule interval).returned = l.returned ∧
      (l.beside schedule interval).world.progresses = l.world.progresses ∧
      (l.beside schedule interval).world.boards.map Board.actions = l.world.boards.map Board.actions := by
  have habreast := l.beside_abreast hblind hspawn hcancels interval
  have hends : (l.beside schedule interval).outcome = l.outcome ∧
      (l.beside schedule interval).returned = l.returned ∧ l.done.2.Meets Same (l.beside schedule interval).done.2 := by
    have hvalidate : (l.beside schedule interval).setup.options.validate = l.setup.options.validate := by
      simp [beside, Setup.every, Options.validate, Nat.ne_of_gt hpositive, Nat.ne_of_gt hpositive']
    cases hvalid : l.setup.options.validate with
    | error e => exact habreast.fails hvalid (hvalidate.trans hvalid)
    | ok _ =>
        exact habreast.ends hvalid (hvalidate.trans hvalid) (stopWatchdog_same hcancels habreast.works.2
          (l.worked_joinable hspawn) ((l.beside schedule interval).worked_joinable hspawn))
  obtain ⟨houtcome, hreturned, hsame, -⟩ := hends
  have hboards : (l.beside schedule interval).world.boards.map Board.erased = l.world.boards.map Board.erased :=
    (congrArg World.boards hsame :)
  refine ⟨?_, houtcome, hreturned, (congrArg World.progresses hsame :), ?_⟩
  · exact (congrArg (fun w : World => w.trace.drop l.stage.world.trace.length) hsame :)
  · simpa [Board.actions_erased, Function.comp_def] using congrArg (List.map Board.actions) hboards

/-- An engine that evaluates by starting an action, letting time pass twice and completing it. -/
def leisurely (action : Action) : Engine (Option Attachment) where
  prepare s := .done s
  setFileCache _ s := .done s
  attach objects _ := .done objects
  findConflicts s := .done (.ok (), s)
  informModified _ s := .done s
  evaluate _
    | none => .done (.ok {}, none)
    | some objects =>
        .issue (.notify (.enqueueing (.action action))) fun _ =>
        .issue (.deliver objects.board (.started action)) fun _ =>
        .issue (.rest (Nanos.ofMillis 2)) fun _ =>
        .issue (.rest (Nanos.ofMillis 2)) fun _ =>
        .issue (.complete objects.progress action) fun _ => .done (.ok {}, some objects)
  reportCycles _ s := .done s

theorem leisurely_blind (action : Action) : (leisurely action).Blind := by
  constructor
  case evaluate =>
    intro q s
    cases s <;> simp [leisurely, Program.Blind, Command.IsBlind]
  all_goals
    intros
    trivial

def unhurried : Launch (Option Attachment) where
  host := { schedule := fun _ => [] }
  engine := leisurely compile
  setup := { options := ⟨false, 1, 1⟩, needsExecution := fun _ => true, fileCache := fun _ => none }
  order := { requested := .empty, exclusive := [], context := ⟨⟨0⟩⟩, modified := .everything }
  built := .empty
  stage := { world := { signals := ⟨[false]⟩ }, engine := none }
  numbered := Bus.numbered_empty

/-- With the watchdog awake the round shows a report, without it none, and nothing else differs. -/
theorem watchdog_beside_unhurried :
    unhurried.engine.Blind ∧ unhurried.world.boards.map (·.reportsShown) = [0] ∧
      (unhurried.beside attentive 1).world.boards.map (·.reportsShown) = [1] ∧
      (unhurried.beside attentive 1).record = unhurried.record ∧
      (unhurried.beside attentive 1).outcome = unhurried.outcome ∧
      (unhurried.beside attentive 1).returned = unhurried.returned ∧
      (unhurried.beside attentive 1).world.progresses = unhurried.world.progresses ∧
      (unhurried.beside attentive 1).world.boards.map Board.actions = unhurried.world.boards.map Board.actions :=
  ⟨leisurely_blind compile, by decide +kernel, by decide +kernel,
    watchdog_beside unhurried (leisurely_blind compile) rfl
      (fun _ => by simp [attentive, unhurried, Move.token?]) (by decide) (by decide)⟩

end Launch

end BuildRound
