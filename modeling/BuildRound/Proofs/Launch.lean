import BuildRound.Engine.Scripted
import BuildRound.Proofs.Closing

/-!
# A whole round

A launch is all that a round starts from. With valid options, its record is that of opening, of the work and of
closing, and the work alone decides how the round ends and what it gives back.
-/

namespace BuildRound

open Round

/-- All that a round starts from. The bus has handed out the ids that stand on it. -/
structure Launch (σ : Type) where
  host : Host
  engine : Engine σ
  setup : Setup
  order : Order
  built : ArtifactSet
  stage : Stage σ
  numbered : stage.world.bus.Numbered

namespace Launch

variable {σ : Type} (l : Launch σ)

/-- The answer of the round, and the stage after it. -/
def done : (Except BuildError Unit × ArtifactSet) × Stage σ :=
  (run l.host l.engine l.setup l.order l.built).on l.stage

def outcome : Except BuildError Unit :=
  l.done.1.1

def returned : ArtifactSet :=
  l.done.1.2

def world : World :=
  l.done.2.world

/-- What happened in the round. -/
def record : Record :=
  l.world.trace.drop l.stage.world.trace.length

def progress : Nat :=
  l.stage.world.progresses.length

def objects : Attachment :=
  ⟨l.progress, l.stage.world.boards.length⟩

/-- What the round asks for if nothing ends it early. -/
def requests : List Request :=
  Round.requests l.setup l.order l.progress

def token : Token :=
  l.order.context.cancellation

/-- The record of a round, in its three stretches, and what becomes of the work. -/
structure Passage (t u v : Record) (r : Except BuildError Bool) : Prop where
  record : l.record = t ++ (u ++ v)
  opening : t.Plain [.called .prepare, .called .setFileCache, .called (.attach l.objects)]
  work : Work l.host.spawn l.setup.options.keepGoing l.token l.order.modified
    (l.stage.world.signals.after t) l.requests u r
  closing : v.Closing l.host.canSpawn
  outcome : l.outcome = Round.outcome r
  returned : ∃ p : Progress, p.requested = l.order.requested ∧ p.built = l.built ∧
    l.returned = (p.after l.progress u).built
  stopped : l.world.watch.dog.isRunning = false
  bus : l.world.bus.entries = l.record.enrolled l.stage.world.bus.entries

/-- The stage on which the round is about to attach what it has put in place, if the options are valid. -/
def provided : Stage σ :=
  (Act.on (say l.host [span l.setup l.order] >>= fun _ => provide l.host l.engine l.setup l.order l.built)
    l.stage).2

/-- The stage on which the work begins, if the options are valid. -/
def entered : Stage σ :=
  (Act.on (say l.host [span l.setup l.order] >>= fun _ => enter l.host l.engine l.setup l.order l.built)
    l.stage).2

/-- What the work brings, and the stage after it. -/
def worked : Except BuildError Bool × Stage σ :=
  Act.on (work l.host l.engine l.setup l.order l.progress).run l.entered

theorem provides : ∃ t : Record,
    t.Plain [.called .prepare, .called .setFileCache] ∧
      Act.on (say l.host [span l.setup l.order] >>= fun _ => provide l.host l.engine l.setup l.order l.built)
        l.stage = (l.objects, l.provided) ∧
      l.stage.world.Provided l.order.requested l.built t l.provided.world := by
  obtain ⟨n, s₀, hn, h₀⟩ := say_leads l.host [span l.setup l.order] l.stage
  obtain ⟨t, s₁, ht, e₁, provided⟩ := provide_provides l.host l.engine l.setup l.order l.built s₀
  rw [h₀.flow.progresses_length, h₀.flow.boards_length] at e₁
  have hon : Act.on (say l.host [span l.setup l.order] >>= fun _ =>
      provide l.host l.engine l.setup l.order l.built) l.stage = (l.objects, s₁) := by
    rw [Act.on_bind, h₀.eq]
    exact e₁
  have hprovided : l.provided = s₁ := congrArg (·.2) hon
  exact ⟨n ++ t, hn.plain.append ht, hprovided ▸ hon, hprovided ▸ provided.after h₀.flow⟩

theorem attaches : ∃ t : Record, t.Calls (.attach l.objects) ∧
    Act.on (say l.host [span l.setup l.order] >>= fun _ => enter l.host l.engine l.setup l.order l.built)
      l.stage = (l.objects, l.entered) ∧
    l.provided.world.Flow t l.entered.world := by
  obtain ⟨-, -, hon, -⟩ := l.provides
  obtain ⟨t, s, ht, h⟩ := tell_calls l.host (.attach l.objects) trivial (l.engine.attach (some l.objects)) l.provided
  have henter : Act.on (say l.host [span l.setup l.order] >>= fun _ =>
      enter l.host l.engine l.setup l.order l.built) l.stage = (l.objects, s) := by
    have hassoc : Act.on (say l.host [span l.setup l.order] >>= fun _ =>
        enter l.host l.engine l.setup l.order l.built) l.stage =
        Act.on ((say l.host [span l.setup l.order] >>= fun _ =>
          provide l.host l.engine l.setup l.order l.built) >>= fun objects =>
            tell l.host (.attach objects) (l.engine.attach (some objects)) >>= fun _ => pure objects) l.stage := rfl
    rw [hassoc, Act.on_bind, hon, Act.on_bind, h.eq]
    rfl
  have hentered : l.entered = s := congrArg (·.2) henter
  exact ⟨t, ht, hentered ▸ henter, hentered ▸ h.flow⟩

theorem opens : ∃ t : Record,
    t.Plain [.called .prepare, .called .setFileCache, .called (.attach l.objects)] ∧
      Act.on (say l.host [span l.setup l.order] >>= fun _ => enter l.host l.engine l.setup l.order l.built)
        l.stage = (l.objects, l.entered) ∧
      l.stage.world.Opened l.order.requested l.built t l.entered.world := by
  obtain ⟨t, ht, -, hprovided⟩ := l.provides
  obtain ⟨u, hu, hon, h⟩ := l.attaches
  exact ⟨t ++ u, ht.append (hu.plain trivial), hon, hprovided.toOpened.flow (hu.plain trivial) h⟩

/-- Cleaning up after the work, whatever it brought. -/
theorem closes (hvalid : l.setup.options.validate = .ok ()) {p : Progress}
    (hprogress : l.worked.2.world.progresses[l.progress]? = some p)
    (hpost : l.worked.2.world.watch.progress = l.progress) (hattended : l.worked.2.world.watch.Attended) :
    ∃ v : Record, v.Closing l.worked.2.world.watch.dog.isRunning ∧
      l.outcome = Round.outcome l.worked.1 ∧ l.returned = p.built ∧
      l.worked.2.world.Closes l.objects.board v l.world := by
  obtain ⟨-, -, hopen, -⟩ := l.opens
  obtain ⟨v, s₃, hv, e₃, hcloses⟩ := cleanUp_closes l.host l.engine l.objects hprogress hpost hattended
  have hdone : l.done = ((Round.outcome l.worked.1, p.built), s₃) := by
    have hwork : Act.on (ExceptT.run (work l.host l.engine l.setup l.order l.objects.progress)) l.entered =
      l.worked := rfl
    rw [Act.on_bind] at hopen
    simp only [done, run, Act.on_bind, hvalid, hopen, hwork, e₃]
    rfl
  refine ⟨v, hv, ?_⟩
  simp only [world, outcome, returned, hdone]
  exact ⟨trivial, trivial, hcloses⟩

/-- The work of a round that has opened. Its watchdog stays at the post until cleaning up. -/
theorem works : ∃ (u : Record) (p : Progress),
    Work l.host.spawn l.setup.options.keepGoing l.token l.order.modified l.entered.world.signals l.requests u
        l.worked.1 ∧
      l.entered.world.Records u l.worked.2.world ∧
      (p.requested = l.order.requested ∧ p.built = l.built ∧
        l.worked.2.world.progresses[l.progress]? = some (p.after l.progress u)) ∧
      l.worked.2.world.watch.progress = l.progress ∧
      l.worked.2.world.watch.dog.isRunning = l.host.canSpawn ∧ l.worked.2.world.watch.Attended := by
  obtain ⟨_, -, -, hopened⟩ := l.opens
  obtain ⟨u, r, s₂, hu, h₂, e₂, hpost, hrunning, hattended⟩ :=
    work_passes l.host l.engine l.setup l.order l.progress hopened.idle
  obtain rfl : r = l.worked.1 := (congrArg (·.1) e₂).symm
  obtain rfl : s₂ = l.worked.2 := (congrArg (·.2) e₂).symm
  obtain ⟨p, hp, hrequested, hbuilt⟩ := hopened.progress
  refine ⟨u, p, hu, h₂, ⟨hrequested, hbuilt, ?_⟩, hpost.trans hopened.post.1, hrunning, hattended⟩
  rw [h₂.progresses]
  exact congrArg (Option.map _) hp

theorem passage (hvalid : l.setup.options.validate = .ok ()) : ∃ t u v r, l.Passage t u v r := by
  obtain ⟨t, ht, -, hopened⟩ := l.opens
  obtain ⟨u, p, hu, h₂, ⟨hrequested, hbuilt, hp⟩, hpost, hrunning, hattended⟩ := l.works
  obtain ⟨v, hv, houtcome, hreturned, hcloses⟩ := l.closes hvalid hp hpost hattended
  have hrecord : l.record = t ++ (u ++ v) := by
    simp [record, hcloses.trace, h₂.trace, hopened.trace]
  refine ⟨t, u, v, _, hrecord, ht, ?_, ?_, houtcome, ⟨p, hrequested, hbuilt, hreturned⟩, hcloses.idle, ?_⟩
  · rw [← hopened.signals]
    exact hu
  · exact hrunning ▸ hv
  · obtain ⟨id, hid, hosts⟩ := hopened.board
    rw [hcloses.bus id _ (h₂.boards.posts _ id hid) ((hosts l.numbered).follows h₂.bus), hrecord]
    simp only [Record.enrolled_append]

/-- What a round with valid options leaves in the world: one progress more, and one board more, which is off the bus. -/
theorem leaves (hvalid : l.setup.options.validate = .ok ()) :
    l.world.bus.Numbered ∧ l.world.watch.dog.isRunning = false ∧
      ((∀ k, l.stage.world.Left k → l.world.Left k) ∧ l.world.Left l.objects.board) ∧
      l.world.progresses.length = l.stage.world.progresses.length + 1 ∧
      l.world.boards.length = l.stage.world.boards.length + 1 := by
  obtain ⟨_, -, -, hopened⟩ := l.opens
  obtain ⟨u, p, -, h₂, ⟨-, -, hp⟩, hpost, -, hattended⟩ := l.works
  obtain ⟨v, -, -, -, hcloses⟩ := l.closes hvalid hp hpost hattended
  have hkept := h₂.boards.trans hcloses.boards
  refine ⟨hcloses.numbered ((hopened.numbered l.numbered).follows h₂.bus), hcloses.idle, ⟨fun k hleft => ?_, ?_⟩,
    ?_, ?_⟩
  · exact hkept.left k (hopened.left k hleft)
  · obtain ⟨id, hid, -⟩ := hopened.board
    exact hcloses.left id (h₂.boards.posts _ id hid)
  · rw [hcloses.length, h₂.progresses_length, hopened.lengths.1]
  · rw [hkept.length, hopened.lengths.2]

/-- With invalid options a round opens its span and fails. -/
theorem rejects {e : ConfigError} (hinvalid : l.setup.options.validate = .error e) :
    ∃ n : Record, n.Noise ∧ l.done.1 = (.error (.config e), l.built) ∧ l.stage.world.Flow n l.world := by
  obtain ⟨n, s₀, hn, h₀⟩ := say_leads l.host [span l.setup l.order] l.stage
  have hdone : l.done = ((.error (.config e), l.built), s₀) := by
    simp only [done, run, Act.on_bind, h₀.eq, hinvalid]
    rfl
  simp only [world, hdone]
  exact ⟨n, hn, trivial, h₀.flow⟩

theorem trace_eq : l.world.trace = l.stage.world.trace ++ l.record := by
  have hprefix : l.stage.world.trace <+: l.world.trace := by
    cases hvalid : l.setup.options.validate with
    | error e =>
        obtain ⟨n, -, -, hflow⟩ := l.rejects hvalid
        exact ⟨n, hflow.trace.symm⟩
    | ok _ =>
        obtain ⟨t, -, -, hopened⟩ := l.opens
        obtain ⟨u, p, -, h₂, ⟨-, -, hp⟩, hpost, -, hattended⟩ := l.works
        obtain ⟨v, -, -, -, hcloses⟩ := l.closes hvalid hp hpost hattended
        exact ⟨t ++ (u ++ v), by simp [hcloses.trace, h₂.trace, hopened.trace]⟩
  obtain ⟨t, ht⟩ := hprefix
  simp [record, ← ht]

theorem of_invalid {e : ConfigError} (hinvalid : l.setup.options.validate = .error e) :
    l.outcome = .error (.config e) ∧ l.returned = l.built ∧ l.record.Noise ∧
      l.world.bus = l.stage.world.bus := by
  obtain ⟨n, hn, hdone, hflow⟩ := l.rejects hinvalid
  refine ⟨congrArg (·.1) hdone, congrArg (·.2) hdone, ?_, hflow.bus.eq_of_noise hn⟩
  simpa [record, hflow.trace] using hn

/-- A launch on an engine that follows scripts, with nobody else around. -/
def scripted (keepGoing : Bool) (scripts : List Script) (requested : List Artifact)
    (exclusive : List Artifact) : Launch Scripted where
  host := { schedule := fun _ => [] }
  engine := Scripted.engine
  setup := { options := ⟨keepGoing, 1, 1⟩, needsExecution := fun _ => true, fileCache := fun _ => none }
  order := { requested := .ofList requested, exclusive, context := ⟨⟨0⟩⟩, modified := .everything }
  built := .empty
  stage := { world := { signals := ⟨[false]⟩ }, engine := { scripts } }
  numbered := Bus.numbered_empty

end Launch

end BuildRound
