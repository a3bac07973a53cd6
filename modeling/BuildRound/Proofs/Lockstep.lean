import BuildRound.Proofs.Launch

/-!
# Rounds in lockstep

Two rounds that do the same step by step, each in a world of its own, beside other schedules and on engines that
may differ. If each single step leads related worlds to related worlds and brings the same answer, so does every
part of the round. What relates the worlds is left open.
-/

namespace BuildRound

open Round

variable {σ α β : Type}

/-! ## Related worlds -/

/-- Done in related worlds, the two bring the same answer and lead to related worlds. -/
def World.Carries (P Q : World → World → Prop) (f f' : World → α × World) : Prop :=
  ∀ w w', P w w' → (f' w').1 = (f w).1 ∧ Q (f w).2 (f' w').2

/-- The worlds are the same as far as `view` shows. -/
def World.SameBy (view : World → World) (w w' : World) : Prop :=
  view w' = view w

/-- What is done acts only on what `view` shows. -/
def World.Respects (view : World → World) (f : World → α × World) : Prop :=
  ∀ w, (f (view w)).1 = (f w).1 ∧ view (f (view w)).2 = view (f w).2

theorem World.Respects.carries {view : World → World} {f : World → α × World} (h : Respects view f) :
    Carries (SameBy view) (SameBy view) f f := by
  intro w w' hw
  obtain ⟨ha, hnext⟩ := h w
  obtain ⟨ha', hnext'⟩ := h w'
  rw [show view w' = view w from hw] at ha' hnext'
  exact ⟨ha'.symm.trans ha, hnext'.symm.trans hnext⟩

theorem World.SameBy.map {view f : World → World} (hf : ∀ w, view (f (view w)) = view (f w)) {w w' : World}
    (h : w.SameBy view w') : (f w).SameBy view (f w') := by
  have hrespects : Respects view (fun w => ((), f w)) := fun w => ⟨rfl, hf w⟩
  exact (hrespects.carries w w' h).2

namespace Program

theorem run_bind (s : World.Schedule) (l : Option Nat) (p : Program α) (f : α → Program β) (w : World) :
    (p.bind f).run s l w = (f (p.run s l w).1).run s l (p.run s l w).2 := by
  induction p generalizing w with
  | done a => rfl
  | issue c next ih => exact ih _ _

/-- The two programs run in lockstep, whoever listens. -/
def Coupled (s s' : World.Schedule) (P : World → World → Prop) (p p' : Program α) : Prop :=
  ∀ l, World.Carries P P (p.run s l) (p'.run s' l)

variable {s s' : World.Schedule} {P : World → World → Prop} {p p' : Program α}

theorem Coupled.done (a : α) : Coupled s s' P (.done a) (.done a) :=
  fun _ _ _ h => ⟨rfl, h⟩

theorem Coupled.bind {f f' : α → Program β} (h : Coupled s s' P p p') (k : ∀ a, Coupled s s' P (f a) (f' a)) :
    Coupled s s' P (p.bind f) (p'.bind f') := by
  intro l w w' hw
  obtain ⟨ha, hnext⟩ := h l w w' hw
  rw [run_bind, run_bind, ha]
  exact k _ l _ _ hnext

end Program

structure Engine.Coupled (s s' : World.Schedule) (P : World → World → Prop) (e e' : Engine σ) : Prop where
  prepare (x : σ) : Program.Coupled s s' P (e.prepare x) (e'.prepare x)
  setFileCache (cache : FileCache) (x : σ) :
    Program.Coupled s s' P (e.setFileCache cache x) (e'.setFileCache cache x)
  attach (objects : Option Attachment) (x : σ) : Program.Coupled s s' P (e.attach objects x) (e'.attach objects x)
  findConflicts (x : σ) : Program.Coupled s s' P (e.findConflicts x) (e'.findConflicts x)
  informModified (files : ModifiedFiles) (x : σ) :
    Program.Coupled s s' P (e.informModified files x) (e'.informModified files x)
  evaluate (q : Request) (x : σ) : Program.Coupled s s' P (e.evaluate q x) (e'.evaluate q x)
  reportCycles (report : EvaluationResult.CycleReport) (x : σ) :
    Program.Coupled s s' P (e.reportCycles report x) (e'.reportCycles report x)

namespace Round

/-- Related worlds, and the engine in the same state. -/
structure Stage.Meets (P : World → World → Prop) (s s' : Stage σ) : Prop where
  world : P s.world s'.world
  engine : s'.engine = s.engine

/-! ## Parts in sequence -/

/-- Done on stages that meet, the two parts answer the same and lead to stages that meet. -/
def Act.Relates (P Q : World → World → Prop) (part part' : Act σ α) : Prop :=
  ∀ s s' : Stage σ, s.Meets P s' → (part'.on s').1 = (part.on s).1 ∧ (part.on s).2.Meets Q (part'.on s').2

def Attempt.Relates (P : World → World → Prop) (part part' : Attempt σ α) : Prop :=
  Act.Relates P P part.run part'.run

variable {P Q R : World → World → Prop} {host host' : Host}

theorem Act.Relates.pure (a : α) : Act.Relates P P (Pure.pure a : Act σ α) (Pure.pure a) :=
  fun _ _ h => ⟨rfl, h⟩

/-- Whatever brought the two here, they go on in lockstep. -/
theorem Act.Relates.after {part part' : Act σ α} {rest rest' : α → Act σ β} {s s' : Stage σ}
    (h : (part'.on s').1 = (part.on s).1 ∧ (part.on s).2.Meets P (part'.on s').2)
    (k : ∀ a, Act.Relates P Q (rest a) (rest' a)) :
    ((part' >>= rest').on s').1 = ((part >>= rest).on s).1 ∧
      ((part >>= rest).on s).2.Meets Q ((part' >>= rest').on s').2 := by
  rw [Act.on_bind, Act.on_bind, h.1]
  exact k _ _ _ h.2

theorem Act.Relates.bind {part part' : Act σ α} {rest rest' : α → Act σ β} (h : Act.Relates P Q part part')
    (k : ∀ a, Act.Relates Q R (rest a) (rest' a)) : Act.Relates P R (part >>= rest) (part' >>= rest') :=
  fun s s' hs => Act.Relates.after (h s s' hs) k

theorem Attempt.Relates.bind {part part' : Attempt σ α} {rest rest' : α → Attempt σ β}
    (h : Attempt.Relates P part part') (k : ∀ a, Attempt.Relates P (rest a) (rest' a)) :
    Attempt.Relates P (part >>= rest) (part' >>= rest') := by
  show Act.Relates P P (part.run >>= ExceptT.bindCont rest) (part'.run >>= ExceptT.bindCont rest')
  refine Act.Relates.bind h (fun a => ?_)
  cases a with
  | error e => exact .pure _
  | ok a => exact k a

theorem Attempt.Relates.pure (a : α) :
    Attempt.Relates P (Pure.pure a : Attempt σ α) (Pure.pure a) :=
  Act.Relates.pure _

theorem Act.Relates.lift {part part' : Act σ α} (h : Act.Relates P P part part') :
    Attempt.Relates P (lift part) (Round.lift part') :=
  Act.Relates.bind h (fun a => .pure (Except.ok a))

theorem Attempt.Relates.orFail (answer : Except BuildError α) :
    Attempt.Relates P (orFail answer : Attempt σ α) (Round.orFail answer) :=
  Act.Relates.pure answer

/-! ## Single steps -/

/-- What any part of a round does keeps worlds related: taking turns, logging, and noting what the round does. -/
structure Lockstep (host host' : Host) (P : World → World → Prop) : Prop where
  turn {w w' : World} : P w w' → P (w.turn host.schedule) (w'.turn host'.schedule)
  say {w w' : World} (entries entries' : List Log.Entry) :
    P w w' → P (w.say .caller entries) (w'.say .caller entries')
  note {w w' : World} (o : Occurrence) : P w w' → P (w.note o) (w'.note o)

namespace Lockstep

variable (h : Lockstep host host' P)

include h

theorem act {f f' : World → α × World} (hf : World.Carries P Q f f') :
    Act.Relates P Q (Round.act host f : Act σ α) (Round.act host' f') := by
  intro s s' hs
  obtain ⟨ha, hw⟩ := hf _ _ (h.turn hs.world)
  exact ⟨ha, hw, hs.engine⟩

theorem change {f f' : World → World} (hf : ∀ w w', P w w' → Q (f w) (f' w')) :
    Act.Relates P Q (Round.change host f : Act σ Unit) (Round.change host' f') :=
  h.act (fun w w' hw => ⟨rfl, hf w w' hw⟩)

theorem sayAll (entries entries' : List Log.Entry) :
    Act.Relates P P (Round.say host entries : Act σ Unit) (Round.say host' entries') :=
  h.change (fun _ _ => h.say entries entries')

theorem ask (call : Call) {program program' : σ → Program (α × σ)}
    (hprogram : ∀ x, Program.Coupled host.schedule host'.schedule P (program x) (program' x)) :
    Act.Relates P P (Round.ask host call program) (Round.ask host' call program') := by
  intro s s' hs
  obtain ⟨ha, hw⟩ := hprogram s.engine call.listener _ _ (h.note (.called call) (h.turn hs.world))
  simp only [Act.on, Round.ask, hs.engine, ha]
  exact ⟨by trivial, hw, rfl⟩

theorem tell (call : Call) {program program' : σ → Program σ}
    (hprogram : ∀ x, Program.Coupled host.schedule host'.schedule P (program x) (program' x)) :
    Act.Relates P P (Round.tell host call program) (Round.tell host' call program') :=
  h.ask call (fun x => (hprogram x).bind (fun _ => .done _))

end Lockstep

/-- What work on progress number `i` does besides keeps worlds related too. -/
structure Working (host host' : Host) (i : Nat) (P : World → World → Prop) : Prop
    extends Lockstep host host' P where
  signals {w w' : World} : P w w' → w'.signals = w.signals
  progress {w w' : World} : P w w' → w'.progresses[i]? = w.progresses[i]?
  onProgress {w w' : World} (f : Progress → Progress) : P w w' → P (w.onProgress i f) (w'.onProgress i f)
  exclude {w w' : World} : P w w' →
    P { w with watch := { w.watch with exclusive := true } } { w' with watch := { w'.watch with exclusive := true } }
  dismiss {w w' : World} (j : Nat) : P w w' → P (w.dismissBoard j) (w'.dismissBoard j)

/-- The same setup with reports after another interval. -/
def Setup.every (setup : Setup) (interval : Nanos) : Setup :=
  { setup with options := { setup.options with reportInterval := interval } }

namespace Working

variable {i : Nat} (h : Working host host' i P)
variable {engine engine' : Engine σ} (hengine : engine.Coupled host.schedule host'.schedule P engine')
variable (setup : Setup) (order : Order) (interval : Nanos)

include h

theorem read (f : Progress → α) (missing : α) :
    Act.Relates P P (act host (fun w => (w.readProgress i f missing, w)) : Act σ α)
      (act host' (fun w => (w.readProgress i f missing, w))) := by
  refine h.act (fun w w' hw => ⟨?_, hw⟩)
  simp only [World.readProgress, h.progress hw]

theorem checkCancelled :
    Attempt.Relates P (checkCancelled host order : Attempt σ Unit) (Round.checkCancelled host' order) := by
  refine Attempt.Relates.bind (Act.Relates.lift (h.act fun w w' hw => ⟨?_, h.note .checked hw⟩)) .orFail
  simp only [h.signals hw]

/-! ## One evaluation -/

include hengine

theorem evaluate (q : Request) : Attempt.Relates P (evaluate host engine q) (Round.evaluate host' engine' q) :=
  Attempt.Relates.bind (h.ask (.evaluate q) (hengine.evaluate q)).lift (fun answer =>
    Attempt.Relates.bind (h.change (fun _ _ => h.note (.answered q.listener answer))).lift (fun _ => .orFail answer))

theorem evaluateMain : Attempt.Relates P (evaluateMain host engine setup order i)
    (Round.evaluateMain host' engine' (setup.every interval) order i) :=
  Attempt.Relates.bind (h.evaluate hengine (request setup order order.requested (some i))) (fun result =>
    Attempt.Relates.bind (h.change (fun _ _ => h.onProgress _)).lift (fun _ => .pure result))

theorem evaluateAlone (artifact : Artifact) : Attempt.Relates P (evaluateAlone host engine setup order artifact)
    (Round.evaluateAlone host' engine' (setup.every interval) order artifact) :=
  Attempt.Relates.bind (h.sayAll _ _).lift (fun _ =>
    h.evaluate hengine (request setup order (.ofList [artifact]) none))

theorem reportCycles (reports : List EvaluationResult.CycleReport) :
    Act.Relates P P (reportCycles host engine reports) (Round.reportCycles host' engine' reports) := by
  induction reports with
  | nil => exact .pure ()
  | cons report rest ih => exact (h.tell (.reportCycles report) (hengine.reportCycles report)).bind (fun _ => ih)

theorem judge (result : EvaluationResult) : Attempt.Relates P (judge host engine setup result)
    (Round.judge host' engine' (setup.every interval) result) :=
  Attempt.Relates.bind (h.reportCycles hengine _).lift (fun _ =>
    Attempt.Relates.bind (h.sayAll _ _).lift (fun _ => .orFail (result.verdict setup.options.keepGoing)))

theorem episode {part part' : Attempt σ EvaluationResult} (hpart : Attempt.Relates P part part') :
    Attempt.Relates P (episode host engine setup order part)
      (Round.episode host' engine' (setup.every interval) order part') :=
  Attempt.Relates.bind (h.checkCancelled order) (fun _ =>
    Attempt.Relates.bind hpart (fun result => h.judge hengine setup interval result))

/-! ## The work of a round -/

theorem survey : Attempt.Relates P (survey host engine order) (Round.survey host' engine' order) := by
  refine Attempt.Relates.bind (h.ask .findConflicts hengine.findConflicts).lift (fun conflicts => ?_)
  refine Attempt.Relates.bind (h.change (fun _ _ => h.note (.examined conflicts))).lift (fun _ => ?_)
  exact Attempt.Relates.bind (.orFail conflicts) (fun _ =>
    (h.tell (.informModified order.modified) (hengine.informModified order.modified)).lift)

theorem buildMain : Attempt.Relates P (buildMain host engine setup order i)
    (Round.buildMain host' engine' (setup.every interval) order i) := by
  refine Attempt.Relates.bind
    (h.episode hengine setup order interval (h.evaluateMain hengine setup order interval)) (fun success => ?_)
  refine Attempt.Relates.bind (h.read Progress.completedCount 0).lift (fun completed => ?_)
  refine Attempt.Relates.bind (h.read Progress.enqueuedCount 0).lift (fun enqueued => ?_)
  exact Attempt.Relates.bind (h.sayAll _ _).lift (fun _ => .pure success)

theorem buildExclusive (artifacts : List Artifact) (success : Bool) :
    Attempt.Relates P (buildExclusive host engine setup order artifacts success)
      (Round.buildExclusive host' engine' (setup.every interval) order artifacts success) := by
  induction artifacts generalizing success with
  | nil => exact .pure success
  | cons artifact rest ih =>
      exact Attempt.Relates.bind
        (h.episode hengine setup order interval (h.evaluateAlone hengine setup order interval artifact))
        (fun fine => ih (fine && success))

theorem build : Attempt.Relates P (build host engine setup order i)
    (Round.build host' engine' (setup.every interval) order i) := by
  refine Attempt.Relates.bind (h.survey hengine order) (fun _ => ?_)
  refine Attempt.Relates.bind (h.buildMain hengine setup order interval) (fun success => ?_)
  cases order.exclusive.isEmpty with
  | true => exact .pure success
  | false =>
      exact Attempt.Relates.bind (h.change (fun _ _ => h.exclude)).lift (fun _ =>
        h.buildExclusive hengine setup order interval order.exclusive success)

theorem work (hstart : World.Carries P P (spawnWatchdog host) (spawnWatchdog host')) :
    Attempt.Relates P (work host engine setup order i)
      (Round.work host' engine' (setup.every interval) order i) :=
  Attempt.Relates.bind (Attempt.Relates.bind (h.act hstart).lift .orFail)
    (fun _ => h.build hengine setup order interval)

/-! ## Cleaning up -/

theorem cleanUp (objects : Attachment) (hobjects : objects.progress = i) {s s' : Stage σ}
    (hstop : ((stopWatchdog host).on s).2.Meets P ((stopWatchdog host').on s').2) :
    ((cleanUp host' engine' objects).on s').1 = ((cleanUp host engine objects).on s).1 ∧
      ((cleanUp host engine objects).on s).2.Meets P ((cleanUp host' engine' objects).on s').2 := by
  subst hobjects
  -- The two watchdogs may be at different places when they are stopped, so not the stopping itself is in lockstep,
  -- but only what comes after it.
  refine Act.Relates.after ⟨rfl, hstop⟩ (fun _ => ?_)
  refine Act.Relates.bind (h.tell .detach (hengine.attach none)) (fun _ => ?_)
  refine Act.Relates.bind (h.change (fun _ _ => h.dismiss objects.board)) (fun _ => ?_)
  refine Act.Relates.bind (h.act (fun w w' hw => ⟨?_, h.note .released (h.onProgress _ hw)⟩)) (fun built => ?_)
  · simp only [World.readProgress, h.progress hw]
  · exact Act.Relates.bind (h.sayAll _ _) (fun _ => .pure built)

end Working

/-! ## Opening -/

/-- Putting the objects of a round in place keeps worlds related too. -/
structure Opening (host host' : Host) (interval interval' : Nanos) (P : World → World → Prop) : Prop
    extends Lockstep host host' P where
  newProgress (requested built : ArtifactSet) :
    World.Carries P P (·.newProgress requested built) (·.newProgress requested built)
  newBoard : World.Carries P P World.newBoard World.newBoard
  watch (objects : Attachment) {w w' : World} : P w w' →
    P { w with watch := { dog := .ofInterval interval, progress := objects.progress, board := objects.board } }
      { w' with watch := { dog := .ofInterval interval', progress := objects.progress, board := objects.board } }

namespace Opening

variable {engine engine' : Engine σ} (setup : Setup) (order : Order) (interval : Nanos)

theorem setUp (h : Opening host host' setup.options.reportInterval interval P) (built : ArtifactSet) :
    Act.Relates P P (setUp host setup order built : Act σ Attachment)
      (Round.setUp host' (setup.every interval) order built) := by
  refine Act.Relates.bind (h.act (h.newProgress order.requested built)) (fun progress => ?_)
  refine Act.Relates.bind (h.act h.newBoard) (fun board => ?_)
  refine Act.Relates.bind (h.sayAll _ _) (fun _ => ?_)
  exact Act.Relates.bind (h.change (fun _ _ => h.watch ⟨progress, board⟩)) (fun _ => .pure _)

theorem enter (h : Opening host host' setup.options.reportInterval interval P)
    (hengine : engine.Coupled host.schedule host'.schedule P engine') (built : ArtifactSet) :
    Act.Relates P P (enter host engine setup order built)
      (Round.enter host' engine' (setup.every interval) order built) := by
  refine Act.Relates.bind (h.tell .prepare hengine.prepare) (fun _ => ?_)
  refine Act.Relates.bind (h.tell .setFileCache (hengine.setFileCache setup.fileCache)) (fun _ => ?_)
  refine Act.Relates.bind (h.setUp setup order interval built) (fun objects => ?_)
  exact Act.Relates.bind (h.tell (.attach objects) (hengine.attach (some objects))) (fun _ => .pure objects)

end Opening

end Round

/-! ## Whole rounds -/

namespace Launch

theorem done_of_invalid (l : Launch σ) {e : ConfigError} (hinvalid : l.setup.options.validate = .error e) :
    l.done = ((.error (.config e), l.built), (Act.on (say l.host [span l.setup l.order]) l.stage).2) := by
  simp only [done, run, Act.on_bind, hinvalid]
  rfl

theorem done_of_valid (l : Launch σ) (hvalid : l.setup.options.validate = .ok ()) :
    l.done = ((Round.outcome l.worked.1, ((cleanUp l.host l.engine l.objects).on l.worked.2).1),
      ((cleanUp l.host l.engine l.objects).on l.worked.2).2) := by
  obtain ⟨-, -, hopen, -⟩ := l.opens
  have hwork : Act.on (ExceptT.run (work l.host l.engine l.setup l.order l.objects.progress)) l.entered =
    l.worked := rfl
  rw [Act.on_bind] at hopen
  simp only [done, run, Act.on_bind, hvalid, hopen, hwork]
  rfl

/-- Two rounds that are to do the same, beginning on stages that meet. From when they have entered, another relation
may be kept than before. -/
structure Abreast (P Q : World → World → Prop) (interval : Nanos) (l l' : Launch σ) : Prop where
  setup : l'.setup = l.setup.every interval
  order : l'.order = l.order
  built : l'.built = l.built
  stage : l.stage.Meets P l'.stage
  opening : Opening l.host l'.host l.setup.options.reportInterval interval P
  before : l.engine.Coupled l.host.schedule l'.host.schedule P l'.engine
  entered : P l.entered.world l'.entered.world → Q l.entered.world l'.entered.world
  after : l.engine.Coupled l.host.schedule l'.host.schedule Q l'.engine
  working : Working l.host l'.host l.progress Q
  start : World.Carries Q Q (spawnWatchdog l.host) (spawnWatchdog l'.host)

namespace Abreast

variable {P Q : World → World → Prop} {interval : Nanos} {l l' : Launch σ} (h : Abreast P Q interval l l')

include h

theorem enters : l'.objects = l.objects ∧ l.entered.Meets Q l'.entered := by
  obtain ⟨-, -, hopen, -⟩ := l.opens
  obtain ⟨-, -, hopen', -⟩ := l'.opens
  rw [h.setup, h.order, h.built] at hopen'
  have henter := Act.Relates.bind (h.opening.sayAll [span l.setup l.order] [span (l.setup.every interval) l.order])
    (fun _ => h.opening.enter l.setup l.order interval h.before l.built) _ _ h.stage
  rw [hopen, hopen'] at henter
  exact ⟨henter.1, h.entered henter.2.world, henter.2.engine⟩

theorem works : l'.worked.1 = l.worked.1 ∧ l.worked.2.Meets Q l'.worked.2 := by
  obtain ⟨hobjects, hentered⟩ := h.enters
  have hprogress : l'.progress = l.progress := congrArg Attachment.progress hobjects
  have hwork := h.working.work h.after l.setup l.order interval h.start _ _ hentered
  unfold worked
  rwa [hprogress, h.setup, h.order]

/-- If the two also meet after their watchdogs were stopped, they end in the same way and meet at their ends. -/
theorem ends (hvalid : l.setup.options.validate = .ok ()) (hvalid' : l'.setup.options.validate = .ok ())
    (hstop : ((stopWatchdog l.host).on l.worked.2).2.Meets Q ((stopWatchdog l'.host).on l'.worked.2).2) :
    l'.outcome = l.outcome ∧ l'.returned = l.returned ∧ l.done.2.Meets Q l'.done.2 := by
  obtain ⟨hbuilt, hmeet⟩ := h.working.cleanUp h.after l.objects rfl hstop
  unfold outcome returned
  rw [l.done_of_valid hvalid, l'.done_of_valid hvalid', h.enters.1, h.works.1]
  exact ⟨rfl, hbuilt, hmeet⟩

theorem fails {e : ConfigError} (hinvalid : l.setup.options.validate = .error e)
    (hinvalid' : l'.setup.options.validate = .error e) :
    l'.outcome = l.outcome ∧ l'.returned = l.returned ∧ l.done.2.Meets P l'.done.2 := by
  obtain ⟨-, hmeet⟩ := h.opening.sayAll [span l.setup l.order] [span l'.setup l'.order] _ _ h.stage
  unfold outcome returned
  rw [l.done_of_invalid hinvalid, l'.done_of_invalid hinvalid', h.built]
  exact ⟨rfl, rfl, hmeet⟩

end Abreast

end Launch

end BuildRound
