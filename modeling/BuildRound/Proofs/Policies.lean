import BuildRound.Proofs.Alike
import BuildRound.Proofs.Evaluations

/-!
# Keep-going and fail-fast agree

A round under each of the two failure policies, with all else equal and an engine that does not look at the policy.
The two do the same until an evaluation answers with errors. There the round that fails fast ends, and the other goes
on; but what it still does adds nothing to the built set and cannot make it succeed.
-/

namespace BuildRound

open Round

variable {σ α : Type}

/-! ## The two policies -/

/-- Evaluations are the same under both failure policies. -/
def Engine.IgnoresPolicy (engine : Engine σ) : Prop :=
  ∀ (q : Request) (keepGoing : Bool) (s : σ), engine.evaluate { q with keepGoing } s = engine.evaluate q s

theorem Engine.IgnoresPolicy.evaluate_eq {engine : Engine σ} (h : engine.IgnoresPolicy) {q q' : Request}
    (hq : q'.neutral = q.neutral) : engine.evaluate q' = engine.evaluate q := by
  funext s
  rw [← h q false s, ← h q' false s]
  exact congrArg (engine.evaluate · s) hq

def Round.Setup.under (setup : Setup) (keepGoing : Bool) : Setup :=
  { setup with options := { setup.options with keepGoing } }

def Launch.under (l : Launch σ) (keepGoing : Bool) : Launch σ :=
  { l with setup := l.setup.under keepGoing }

/-! ## Failures -/

def Occurrence.failure? : Occurrence → Option EvaluationResult
  | .answered _ (.ok result) => if result.hasError then some result else none
  | _ => none

namespace Record

/-- The first result with errors that an evaluation answered with. -/
def failure? (t : Record) : Option EvaluationResult :=
  t.findSome? Occurrence.failure?

theorem failure?_append (t u : Record) : (t ++ u).failure? = t.failure?.or u.failure? :=
  List.findSome?_append

theorem failure?_eq_none {t : Record} (h : ∀ o ∈ t, o.IsIdle) : t.failure? = none := by
  refine List.findSome?_eq_none_iff.mpr (fun o ho => ?_)
  have hanswer := (h o ho).not_answered
  cases o with
  | answered l a => cases hanswer
  | _ => rfl

theorem Noise.failure? {t : Record} (h : t.Noise) : t.failure? = none :=
  failure?_eq_none h.plain.idle

theorem failure?_single (o : Occurrence) : Record.failure? [o] = o.failure? := by
  simp [failure?]

theorem Asks.failure? {q : Request} {a : Except BuildError EvaluationResult} {t : Record} (h : t.Asks q a) :
    t.failure? = (Occurrence.answered q.listener a).failure? := by
  obtain ⟨ht, hu⟩ := h
  rename_i t u
  have hcalled : Record.failure? [.called (.evaluate q)] = none := failure?_single _
  have hbeside : u.failure? = none := failure?_eq_none hu.idle
  rw [← List.singleton_append, failure?_append, failure?_append, failure?_append, ht.failure?, hcalled, hbeside,
    failure?_single]
  rfl

end Record

/-! ## Parts that agree under both policies -/

namespace Round

variable (host : Host) (engine : Engine σ) (setup : Setup) (order : Order)

theorem checkCancelled_agree :
    Attempt.Agree (checkCancelled host order : Attempt σ Unit) (checkCancelled host order) := by
  refine Attempt.Agree.bind (Act.Agree.lift (act_agree host fun w w' h => ?_)) (fun answer => .orFail answer)
  refine ⟨?_, h.note rfl⟩
  exact h.read (f := fun w => w.signals.check order.context.cancellation) (fun _ _ _ => rfl)

variable {engine} in
theorem evaluate_agree (hengine : engine.IgnoresPolicy) {q q' : Request} (hq : q'.neutral = q.neutral) :
    Attempt.Agree (evaluate host engine q) (evaluate host engine q') := by
  have hcall : Call.neutral (.evaluate q') = Call.neutral (.evaluate q) := congrArg Call.evaluate hq
  have hlistener : q'.listener = q.listener := Call.listener_eq hcall
  unfold evaluate
  rw [hengine.evaluate_eq hq, hlistener]
  exact Attempt.Agree.bind (ask_agree host hcall _).lift
    (fun answer => Attempt.Agree.bind (note_agree host rfl).lift (fun _ => .orFail answer))

variable {engine} in
theorem evaluateMain_agree (hengine : engine.IgnoresPolicy) (progress : Nat) :
    Attempt.Agree (evaluateMain host engine (setup.under true) order progress)
      (evaluateMain host engine (setup.under false) order progress) := by
  refine Attempt.Agree.bind (evaluate_agree host hengine rfl) (fun result => ?_)
  refine Attempt.Agree.bind (Act.Agree.lift (change_agree host fun w w' h => ?_)) (fun _ => Act.Agree.pure _)
  exact h.map (f := (·.onProgress progress (fun p => { p with built := p.built.extend result.values })))
    (fun _ _ _ => rfl)

variable {engine} in
theorem evaluateAlone_agree (hengine : engine.IgnoresPolicy) (artifact : Artifact) :
    Attempt.Agree (evaluateAlone host engine (setup.under true) order artifact)
      (evaluateAlone host engine (setup.under false) order artifact) :=
  Attempt.Agree.bind (say_agree host _ _).lift (fun _ => evaluate_agree host hengine rfl)

theorem survey_agree : Attempt.Agree (survey host engine order) (survey host engine order) := by
  refine Attempt.Agree.bind (ask_agree host rfl _).lift (fun conflicts => ?_)
  refine Attempt.Agree.bind (note_agree host rfl).lift (fun _ => ?_)
  exact Attempt.Agree.bind (.orFail conflicts) (fun _ => (tell_agree host rfl _).lift)

theorem setUp_agree (built : ArtifactSet) :
    Act.Agree (setUp host (setup.under true) order built : Act σ Attachment)
      (setUp host (setup.under false) order built) := by
  refine Act.Agree.bind (act_agree host (.of_frame fun _ _ _ => rfl)) (fun progress => ?_)
  refine Act.Agree.bind (act_agree host (.of_frame fun _ _ _ => rfl)) (fun board => ?_)
  refine Act.Agree.bind (say_agree host _ _) (fun _ => ?_)
  refine Act.Agree.bind (change_agree host fun w w' h => ?_) (fun _ => .pure _)
  exact h.map (f := fun w => { w with
    watch := { dog := .ofInterval setup.options.reportInterval, progress, board } }) (fun _ _ _ => rfl)

theorem enter_agree (built : ArtifactSet) :
    Act.Agree (enter host engine (setup.under true) order built)
      (enter host engine (setup.under false) order built) := by
  refine Act.Agree.bind (tell_agree host rfl _) (fun _ => Act.Agree.bind (tell_agree host rfl _) (fun _ => ?_))
  exact Act.Agree.bind (setUp_agree host setup order built)
    (fun objects => Act.Agree.bind (tell_agree host rfl _) (fun _ => .pure objects))

theorem startWatchdog_agree : Attempt.Agree (startWatchdog host : Attempt σ Unit) (startWatchdog host) := by
  refine Attempt.Agree.bind (Act.Agree.lift (act_agree host (.of_frame fun _ _ _ => rfl))) (fun started => ?_)
  cases started <;> exact Act.Agree.pure _

/-! ## Comparing two runs -/

/-- Doing this part on stage `s` records `t`, answers `r` and leads to stage `s'`. -/
structure Attempt.Brings (part : Attempt σ α) (s : Stage σ) (t : Record) (r : Except BuildError α) (s' : Stage σ) :
    Prop where
  eq : Act.on part.run s = (r, s')
  records : s.world.Records t s'.world

theorem Attempt.Leads.brings {part : Attempt σ α} {s s' : Stage σ} {t : Record} {r : Except BuildError α}
    (h : Attempt.Leads part s t r s') : Attempt.Brings part s t r s' :=
  ⟨h.eq, h.flow.toRecords⟩

/-- A step beside which others cancel tokens at most. -/
def Act.Quiet (part : Act σ α) : Prop :=
  ∀ s, ∃ (n : Record) (a : α) (s' : Stage σ), n.Noise ∧ part.Leads s n a s'

theorem read_quiet (f : World → α) : Act.Quiet (act host (fun w => (f w, w)) : Act σ α) := by
  intro s
  obtain ⟨n, w, hn, h⟩ := act_leads host f s
  exact ⟨n, _, _, hn, h⟩

theorem change_quiet {f : World → World} (hf : ∀ w : World, w.Flow [] (f w)) :
    Act.Quiet (change host f : Act σ Unit) := by
  intro s
  obtain ⟨n, s', hn, h⟩ := change_leads host hf s
  exact ⟨n, (), s', hn, h⟩

theorem say_quiet (entries : List Log.Entry) : Act.Quiet (say host entries : Act σ Unit) :=
  change_quiet host (f := (·.say .caller entries)) (fun _ => .of_eq rfl rfl rfl rfl rfl (.refl _))

theorem watchExclusive_quiet :
    Act.Quiet (change host (fun w => { w with watch := { w.watch with exclusive := true } }) : Act σ Unit) :=
  change_quiet host (f := fun w => { w with watch := { w.watch with exclusive := true } })
    (fun _ => .of_eq rfl rfl rfl rfl rfl ⟨rfl, rfl, rfl, rfl, id⟩)

/-- Nothing that happened added to the built set of this progress. -/
def Unheard (i : Nat) (t : Record) : Prop :=
  ∀ p : Progress, (p.after i t).built = p.built

theorem Unheard.append {i : Nat} {t u : Record} (ht : Unheard i t) (hu : Unheard i u) : Unheard i (t ++ u) := by
  intro p
  rw [Progress.after_append, hu, ht]

theorem Unheard.of_plain {t ms : Record} (h : t.Plain ms) (i : Nat) : Unheard i t :=
  Progress.built_after_plain h i

/-- A part that adds nothing to the built set of this progress and does not end in success. -/
def Attempt.Vain (i : Nat) (part : Attempt σ Bool) : Prop :=
  ∀ s, ∃ (u : Record) (r : Except BuildError Bool) (s' : Stage σ), Attempt.Brings part s u r s' ∧ Unheard i u ∧
    r ≠ .ok true

theorem Attempt.Vain.pure (i : Nat) : Attempt.Vain i (Pure.pure false : Attempt σ Bool) :=
  fun s => ⟨[], .ok false, s, ⟨rfl, (World.Flow.refl _).toRecords⟩, fun _ => rfl, by simp⟩

theorem Attempt.Vain.aside {i : Nat} {part : Act σ α} {rest : α → Attempt σ Bool} (hquiet : part.Quiet)
    (k : ∀ a, (rest a).Vain i) : (lift part >>= rest).Vain i := by
  intro s
  obtain ⟨n, a, m, hn, h⟩ := hquiet s
  obtain ⟨u, r, s', k, hu, hr⟩ := k a m
  refine ⟨n ++ u, r, s', ⟨?_, h.flow.toRecords.trans k.records⟩, (Unheard.of_plain hn.plain i).append hu, hr⟩
  rw [Attempt.on_bind, h.lift.eq]
  exact k.eq

/-- How a part goes with keep-going, and how it goes from an alike stage without. -/
inductive Compares (i : Nat) (part part' : Attempt σ Bool) (s s' : Stage σ) : Prop
  /-- No evaluation answered with errors, and both do the same. -/
  | together {t : Record} {r : Except BuildError Bool} {m m' : Stage σ} (h : Attempt.Brings part s t r m)
      (h' : Act.on part'.run s' = (r, m')) (hm : m.Alike m') (ht : t.failure? = none) (hr : r ≠ .ok false)
  /-- Where an evaluation has answered with errors, the one goes on and the other ends. -/
  | parted {t u : Record} {r : Except BuildError Bool} {m m' s₁ : Stage σ} {result : EvaluationResult}
      {x : BuildError} (hbefore : s.world.Records t m.world) (h : Act.on part.run s = (r, s₁))
      (hafter : m.world.Records u s₁.world) (h' : Act.on part'.run s' = (.error x, m')) (hm : m.Alike m')
      (ht : t.failure? = some result) (hx : result.verdict false = .error x) (hu : Unheard i u)
      (hr : r ≠ .ok true)

namespace Compares

variable {i : Nat} {s s' : Stage σ}

theorem of_error {part part' : Attempt σ α} {rest rest' : α → Attempt σ Bool} {t : Record} {e : BuildError}
    {m m' : Stage σ} (h : Attempt.Brings part s t (.error e) m) (h' : Act.on part'.run s' = (.error e, m'))
    (hm : m.Alike m') (ht : t.failure? = none) : Compares i (part >>= rest) (part' >>= rest') s s' :=
  .together ⟨by rw [Attempt.on_bind, h.eq], h.records⟩ (by rw [Attempt.on_bind, h']) hm ht (by simp)

theorem of_ok {part part' : Attempt σ α} {rest rest' : α → Attempt σ Bool} {t : Record} {a : α} {m m' : Stage σ}
    (h : Attempt.Brings part s t (.ok a) m) (h' : Act.on part'.run s' = (.ok a, m')) (ht : t.failure? = none)
    (k : Compares i (rest a) (rest' a) m m') : Compares i (part >>= rest) (part' >>= rest') s s' := by
  cases k with
  | together k k' hm hu hr =>
      refine .together ⟨by rw [Attempt.on_bind, h.eq]; exact k.eq, h.records.trans k.records⟩
        (by rw [Attempt.on_bind, h']; exact k') hm ?_ hr
      rw [Record.failure?_append, ht, hu, Option.none_or]
  | parted hbefore k hafter k' hm hfailure hx hu hr =>
      refine .parted (h.records.trans hbefore) (by rw [Attempt.on_bind, h.eq]; exact k) hafter
        (by rw [Attempt.on_bind, h']; exact k') hm ?_ hx hu hr
      rw [Record.failure?_append, ht, hfailure, Option.none_or]

/-- First a part that agrees and makes no evaluation. -/
theorem after {part part' : Attempt σ α} {rest rest' : α → Attempt σ Bool} (hagree : part.Agree part')
    (hs : s.Alike s') {t : Record} {r : Except BuildError α} {m : Stage σ} (h : Attempt.Brings part s t r m)
    (ht : t.failure? = none) (k : ∀ a m m', Stage.Alike m m' → Compares i (rest a) (rest' a) m m') :
    Compares i (part >>= rest) (part' >>= rest') s s' := by
  obtain ⟨m', h', hm⟩ := hagree.on hs h.eq
  cases r with
  | error e => exact .of_error h h' hm ht
  | ok a => exact .of_ok h h' ht (k a m m' hm)

/-- What follows on a part: where the one goes on after errors, it does so in vain. -/
theorem bind {part part' : Attempt σ Bool} {rest rest' : Bool → Attempt σ Bool}
    (h : Compares i part part' s s')
    (htogether : ∀ m m', Stage.Alike m m' → Compares i (rest true) (rest' true) m m')
    (hparted : (rest false).Vain i) :
    Compares i (part >>= rest) (part' >>= rest') s s' := by
  cases h with
  | @together t r m m' h h' hm ht hr =>
      rcases r with e | _ | _
      · exact .of_error h h' hm ht
      · exact absurd rfl hr -- without failures there is nothing to absorb
      · exact .of_ok h h' ht (htogether m m' hm)
  | @parted t u r m m' s₁ result x hbefore h hafter h' hm ht hx hu hr =>
      -- The one that failed fast does nothing more, so all that is left is what the other goes on with.
      have hend : Act.on (part' >>= rest').run s' = (.error x, m') := by rw [Attempt.on_bind, h']
      rcases r with e | _ | _
      · exact .parted hbefore (by rw [Attempt.on_bind, h]) hafter hend hm ht hx hu (by simp)
      · obtain ⟨v, r', s₂, k, hv, hr'⟩ := hparted s₁
        exact .parted hbefore (by rw [Attempt.on_bind, h]; exact k.eq) (hafter.trans k.records) hend hm ht hx
          (hu.append hv) hr'
      · exact absurd rfl hr

theorem aside {part part' : Act σ α} {rest rest' : α → Attempt σ Bool} (hagree : part.Agree part')
    (hquiet : part.Quiet) (hs : s.Alike s') (k : ∀ a m m', Stage.Alike m m' → Compares i (rest a) (rest' a) m m') :
    Compares i (lift part >>= rest) (lift part' >>= rest') s s' := by
  obtain ⟨n, a, m, hn, h⟩ := hquiet s
  exact .after hagree.lift hs h.lift.brings hn.failure? k

theorem pure (hs : s.Alike s') : Compares i (Pure.pure true) (Pure.pure true) s s' :=
  .together ⟨rfl, (World.Flow.refl _).toRecords⟩ rfl hs rfl (by simp)

end Compares

/-! ## Evaluations -/

theorem verdict_of_hasError {result : EvaluationResult} (h : result.hasError = true) :
    result.verdict true = .ok false ∧ ∃ x, result.verdict false = .error x := by
  refine ⟨EvaluationResult.verdict_eq_ok.mpr ⟨by simp [h], fun _ => rfl⟩, ?_⟩
  cases hverdict : result.verdict false with
  | ok fine => simp [EvaluationResult.verdict_eq_ok, h] at hverdict
  | error x => exact ⟨x, rfl⟩

theorem verdict_of_clean {result : EvaluationResult} (h : result.hasError = false) (keepGoing : Bool) :
    result.verdict keepGoing = .ok true :=
  EvaluationResult.verdict_eq_ok.mpr ⟨by simp [h], by simp [h]⟩

theorem judge_on (result : EvaluationResult) {s s' : Stage σ} (hs : s.Alike s') :
    ∃ m m' : Stage σ, m.Alike m' ∧
      Act.on (judge host engine (setup.under true) result).run s = (result.verdict true, m) ∧
      Act.on (judge host engine (setup.under false) result).run s' = (result.verdict false, m') := by
  have hshown := (reportCycles_agree host engine result.cycleReports).bind
    (fun _ => say_agree host (result.verdictLog true) (result.verdictLog false))
  exact ⟨_, _, (hshown s s' hs).2, rfl, rfl⟩

theorem episode_compares {part part' : Attempt σ EvaluationResult} {q : Request} (hpart : Evaluates part q)
    (hagree : part.Agree part') (i : Nat) {s s' : Stage σ} (hs : s.Alike s') :
    Compares i (episode host engine (setup.under true) order part)
      (episode host engine (setup.under false) order part') s s' := by
  obtain ⟨n, m, hn, hlook⟩ := checkCancelled_leads host order s
  have hnone : Record.failure? (n ++ [.checked]) = none := by
    rw [Record.failure?_append, hn.failure?]
    rfl
  refine .after (checkCancelled_agree host order) hs hlook.brings hnone (fun _ s s' hs => ?_)
  obtain ⟨t, n, a, m, ht, hn, h⟩ := hpart s
  obtain ⟨m', h', hm⟩ := hagree.on hs h.eq
  have hfailure : (t ++ n).failure? = (Occurrence.answered q.listener a).failure? := by
    rw [Record.failure?_append, ht.failure?, hn.failure?, Option.or_none]
  cases a with
  | error e => exact .of_error h.brings h' hm hfailure
  | ok result =>
      obtain ⟨v, s₁, hv, hjudge⟩ := judge_leads host engine (setup.under true) result m
      obtain ⟨m₁, m₁', hm₁, hgoing, hfailing⟩ := judge_on host engine setup result hm
      obtain rfl : s₁ = m₁ := (Prod.mk.inj (hjudge.eq.symm.trans hgoing)).2
      have heval := h.flow.toRecords.trans hjudge.flow.toRecords
      -- Reporting the cycles asks for no evaluation, so the first failure is this result or none.
      have hall : (t ++ n ++ v).failure? = if result.hasError then some result else none := by
        rw [Record.failure?_append, hfailure, Record.failure?_eq_none hv.idle, Option.or_none]
        rfl
      have hon : Act.on (part >>= judge host engine (setup.under true)).run s = (result.verdict true, s₁) := by
        rw [Attempt.on_bind, h.eq]
        exact hgoing
      have hon' : Act.on (part' >>= judge host engine (setup.under false)).run s' = (result.verdict false, m₁') := by
        rw [Attempt.on_bind, h']
        exact hfailing
      cases herror : result.hasError with
      | false =>
          rw [verdict_of_clean herror] at hon hon'
          exact .together ⟨hon, heval⟩ hon' hm₁ (by rw [hall, herror]; rfl) (by simp)
      | true =>
          obtain ⟨hgo, x, hx⟩ := verdict_of_hasError herror
          rw [hgo] at hon
          rw [hx] at hon'
          exact .parted heval hon (World.Flow.refl _).toRecords hon' hm₁ (by rw [hall, herror]; rfl) hx (fun _ => rfl)
            (by simp)

/-! ## The main build -/

variable {engine} in
theorem buildMain_compares (hengine : engine.IgnoresPolicy) (i : Nat) {s s' : Stage σ} (hs : s.Alike s') :
    Compares i (buildMain host engine (setup.under true) order i) (buildMain host engine (setup.under false) order i)
      s s' := by
  refine .bind (episode_compares host engine setup order (evaluateMain_evaluates host engine _ order i)
    (evaluateMain_agree host setup order hengine i) i hs) (fun m m' hm => ?_) ?_
  · refine .aside (act_agree host (.of_frame fun _ _ _ => rfl)) (read_quiet host _) hm (fun completed m m' hm => ?_)
    refine .aside (act_agree host (.of_frame fun _ _ _ => rfl)) (read_quiet host _) hm (fun enqueued m m' hm => ?_)
    exact .aside (say_agree host _ _) (say_quiet host _) hm (fun _ _ _ => .pure)
  · exact .aside (read_quiet host _) (fun completed => .aside (read_quiet host _) (fun enqueued =>
      .aside (say_quiet host _) (fun _ => .pure i)))

/-! ## The exclusive builds -/

theorem unheard_of_isOf {qs : List Request} {o : Occurrence} (h : o.IsOf qs) (hqs : ∀ q ∈ qs, q.listener = none)
    (i : Nat) : Unheard i [o] := by
  rcases h with h | rfl | ⟨q, hq, h⟩
  · exact .of_plain ⟨rfl, by simpa using h⟩ i
  · exact fun _ => rfl
  · rw [hqs q hq] at h
    rcases h with rfl | h | ⟨a, rfl⟩
    · exact fun _ => rfl
    · have hbeside : Record.Beside none [o] := by simpa [Record.Beside] using h
      exact .of_plain hbeside.plain i
    · exact fun _ => rfl

/-- Evaluations that nobody listens to leave the built set alone. -/
theorem Unheard.of_course {keepGoing : Bool} {token : Token} {signals : Signals} {qs : List Request} {t : Record}
    {r : Except BuildError Bool} (h : Course keepGoing token signals qs t r) (hqs : ∀ q ∈ qs, q.listener = none)
    (i : Nat) : Unheard i t := by
  have hof := h.isOf
  clear h
  induction t with
  | nil => exact fun _ => rfl
  | cons o t ih =>
      intro p
      exact (ih (fun o ho => hof o (List.mem_cons_of_mem _ ho)) _).trans (unheard_of_isOf (hof o (by simp)) hqs i p)

theorem listener_exclusiveRequests {artifacts : List Artifact} {q : Request}
    (h : q ∈ exclusiveRequests setup order artifacts) : q.listener = none := by
  obtain ⟨a, -, rfl⟩ := List.mem_map.mp h
  rfl

/-- After a failure the exclusive builds are in vain. -/
theorem buildExclusive_vain (artifacts : List Artifact) (i : Nat) :
    (buildExclusive host engine setup order artifacts false).Vain i := by
  intro s
  obtain ⟨u, r, s₁, hu, h⟩ := buildExclusive_leads host engine setup order artifacts false s
  refine ⟨u, _, s₁, h.brings, .of_course hu (fun q => listener_exclusiveRequests setup order) i, ?_⟩
  cases r <;> simp [Except.map]

variable {engine} in
theorem buildExclusive_compares (hengine : engine.IgnoresPolicy) (artifacts : List Artifact) (i : Nat)
    {s s' : Stage σ} (hs : s.Alike s') :
    Compares i (buildExclusive host engine (setup.under true) order artifacts true)
      (buildExclusive host engine (setup.under false) order artifacts true) s s' := by
  induction artifacts generalizing s s' with
  | nil => exact .pure hs
  | cons artifact rest ih =>
      exact .bind (episode_compares host engine setup order (evaluateAlone_evaluates host engine _ order artifact)
        (evaluateAlone_agree host setup order hengine artifact) i hs) (fun m m' hm => ih hm)
        (buildExclusive_vain host engine (setup.under true) order rest i)

/-! ## All the work -/

variable {engine} in
theorem build_compares (hengine : engine.IgnoresPolicy) (i : Nat) {s s' : Stage σ} (hs : s.Alike s') :
    Compares i (build host engine (setup.under true) order i) (build host engine (setup.under false) order i)
      s s' := by
  obtain ⟨t, r, m, ht, h⟩ := survey_leads host engine order s
  refine .after (survey_agree host engine order) hs h.brings (Record.failure?_eq_none ht.idle) (fun _ m m' hm => ?_)
  refine .bind (buildMain_compares host setup order hengine i hm) (fun m m' hm => ?_) ?_
  · cases order.exclusive with
    | nil => exact .pure hm
    | cons artifact rest =>
        refine .aside (change_agree host fun w w' hw => ?_) (watchExclusive_quiet host) hm (fun _ m m' hm => ?_)
        · exact hw.map (f := fun w => { w with watch := { w.watch with exclusive := true } }) (fun _ _ _ => rfl)
        · exact buildExclusive_compares host setup order hengine (artifact :: rest) i hm
  · cases order.exclusive with
    | nil => exact .pure i
    | cons artifact rest =>
        exact .aside (watchExclusive_quiet host) (fun _ => buildExclusive_vain host engine _ order (artifact :: rest) i)

variable {engine} in
theorem work_compares (hengine : engine.IgnoresPolicy) (i : Nat) {s s' : Stage σ} (hs : s.Alike s')
    (hidle : s.world.watch.dog.isRunning = false) :
    Compares i (work host engine (setup.under true) order i) (work host engine (setup.under false) order i) s s' := by
  obtain ⟨n, m, hn, h, hstart, -⟩ := startWatchdog_on host hidle
  exact .after (startWatchdog_agree host) hs ⟨hstart, h⟩ hn.failure?
    (fun _ m m' hm => build_compares host setup order hengine i hm)

/-! ## What a comparison says -/

namespace Compares

variable {i : Nat} {part part' : Attempt σ Bool} {s s' : Stage σ}

theorem built_eq (h : Compares i part part' s s') :
    (Act.on part'.run s').2.world.progresses[i]?.map Progress.built =
      (Act.on part.run s).2.world.progresses[i]?.map Progress.built := by
  cases h with
  | together h h' hm ht hr =>
      rw [h.eq, h']
      simp only [hm.world.read (f := World.progresses) (fun _ _ _ => rfl)]
  | parted hbefore h hafter h' hm ht hx hu hr =>
      rw [h, h']
      simp only [hm.world.read (f := World.progresses) (fun _ _ _ => rfl), hafter.progresses, Option.map_map]
      exact congrArg (Option.map · _) (funext fun p => (hu p).symm)

theorem succeeds_iff (h : Compares i part part' s s') :
    (Act.on part.run s).1 = .ok true ↔ (Act.on part'.run s').1 = .ok true := by
  cases h with
  | together h h' hm ht hr => rw [h.eq, h']
  | parted hbefore h hafter h' hm ht hx hu hr =>
      rw [h, h']
      exact iff_of_false hr (by simp)

/-- The two records have a beginning in common, and the first failure is where the one of them stops. -/
theorem tells (h : Compares i part part' s s') : ∃ t u : Record,
    (Act.on part.run s).2.world.trace = s.world.trace ++ (t ++ u) ∧
    (Act.on part'.run s').2.world.trace.map Occurrence.neutral = (s.world.trace ++ t).map Occurrence.neutral ∧
    (∀ result, (t ++ u).failure? = some result →
      ∃ x, result.verdict false = .error x ∧ (Act.on part'.run s').1 = .error x) ∧
    ((t ++ u).failure? = none → (Act.on part'.run s').1 = (Act.on part.run s).1) := by
  cases h with
  | @together t r m m' h h' hm ht hr =>
      rw [h.eq, h']
      refine ⟨t, [], by simpa using h.records.trace, ?_, by simp [ht], fun _ => rfl⟩
      rw [hm.world.trace_eq, h.records.trace]
  | @parted t u r m m' s₁ result x hbefore h hafter h' hm ht hx hu hr =>
      rw [h, h']
      have hfirst : (t ++ u).failure? = some result := by rw [Record.failure?_append, ht, Option.some_or]
      refine ⟨t, u, ?_, ?_, ?_, by simp [hfirst]⟩
      · rw [hafter.trace, hbefore.trace, List.append_assoc]
      · rw [hm.world.trace_eq, hbefore.trace]
      · intro result' hresult'
        obtain rfl := Option.some.inj (hfirst.symm.trans hresult')
        exact ⟨x, hx, rfl⟩

end Compares

end Round

theorem Scripted.ignoresPolicy : Scripted.engine.IgnoresPolicy := by
  intro q keepGoing s
  have hsteps : ∀ s : Scripted, s.perform { q with keepGoing } = s.perform q := fun s =>
    funext fun step => by cases step <;> rfl
  simp only [Scripted.engine, Scripted.evaluate, hsteps]

/-! ## Two rounds -/

def Call.request? : Call → Option Request
  | .evaluate q => some q
  | _ => none

def Call.cycleReport? : Call → Option EvaluationResult.CycleReport
  | .reportCycles report => some report
  | _ => none

/-- What can be read of calls without their policies, where the calls have a beginning in common. -/
theorem Call.prefix_of_neutral {β : Type} {f : Call → Option β} {g : β → β} (hf : ∀ c, f c.neutral = (f c).map g)
    (hdetach : f .detach = none) {cs cs' ds ds' : List Call} (h : ds = cs ++ cs' ++ [.detach])
    (h' : ds'.map Call.neutral = cs.map Call.neutral ++ [.detach]) :
    (ds'.filterMap f).map g <+: (ds.filterMap f).map g := by
  have hneutral : ∀ cs : List Call, (cs.filterMap f).map g = (cs.map Call.neutral).filterMap f := by
    intro cs
    rw [List.map_filterMap, List.filterMap_map]
    exact congrArg (List.filterMap · cs) (funext fun c => (hf c).symm)
  have hend : [Call.detach].filterMap f = [] := List.filterMap_cons_none hdetach
  rw [hneutral ds', h', List.filterMap_append, hend, List.append_nil, ← hneutral, h, List.filterMap_append,
    List.filterMap_append, List.append_assoc, List.map_append]
  exact List.prefix_append _ _

theorem Record.Closing.calls {watched : Bool} {v : Record} (h : v.Closing watched) : Record.calls v = [.detach] := by
  rw [← Record.calls_steps, h.steps]
  cases watched <;> rfl

theorem Record.calls_neutral (t : Record) : Record.calls (t.map Occurrence.neutral) = t.calls.map Call.neutral := by
  induction t with
  | nil => rfl
  | cons o t ih =>
      rw [List.map_cons, calls_cons, calls_cons, ih, List.map_append]
      cases o <;> rfl

namespace Launch

variable (l : Launch σ)

def asked : List Request :=
  l.record.calls.filterMap Call.request?

def cyclesReported : List EvaluationResult.CycleReport :=
  l.record.calls.filterMap Call.cycleReport?

theorem outcome_eq_ok {r : Except BuildError Bool} : Round.outcome r = .ok () ↔ r = .ok true := by
  rcases r with e | _ | _ <;> simp [Round.outcome]

theorem entered_alike : Stage.Alike (l.under true).entered (l.under false).entered := by
  have hagree := (say_agree l.host [span (l.setup.under true) l.order] [span (l.setup.under false) l.order]).bind
    (fun _ => enter_agree l.host l.engine l.setup l.order l.built)
  exact (hagree l.stage l.stage ⟨.refl _, rfl⟩).2

/-- A round with valid options: it opens, works, and closes. -/
theorem ends (hvalid : l.setup.options.validate = .ok ()) : ∃ (t v : Record) (p : Progress),
    t.Plain [.called .prepare, .called .setFileCache, .called (.attach l.objects)] ∧
      v.Closing l.host.canSpawn ∧ l.entered.world.trace = l.stage.world.trace ++ t ∧
      l.world.trace = l.worked.2.world.trace ++ v ∧ l.outcome = Round.outcome l.worked.1 ∧
      l.worked.2.world.progresses[l.progress]? = some p ∧ l.returned = p.built := by
  obtain ⟨t, ht, -, hopened⟩ := l.opens
  obtain ⟨u, p, -, -, ⟨-, -, hp⟩, hpost, hrunning, hattended⟩ := l.works
  obtain ⟨v, hv, houtcome, hreturned, hcloses⟩ := l.closes hvalid hp hpost hattended
  exact ⟨t, v, _, ht, hrunning ▸ hv, hopened.trace, hcloses.trace, houtcome, hp, hreturned⟩

variable {l}

theorem compares (hengine : l.engine.IgnoresPolicy) :
    Compares l.progress (work l.host l.engine (l.setup.under true) l.order l.progress)
      (work l.host l.engine (l.setup.under false) l.order l.progress) (l.under true).entered
      (l.under false).entered := by
  obtain ⟨_, -, -, hopened⟩ := (l.under true).opens
  exact work_compares l.host l.setup l.order hengine l.progress l.entered_alike hopened.idle

theorem returned_agree (hengine : l.engine.IgnoresPolicy) (hvalid : l.setup.options.validate = .ok ()) :
    (l.under false).returned = (l.under true).returned ∧
      ((l.under false).outcome = .ok () ↔ (l.under true).outcome = .ok ()) := by
  obtain ⟨-, -, p, -, -, -, -, houtcome, hp, hreturned⟩ := (l.under true).ends hvalid
  obtain ⟨-, -, p', -, -, -, -, houtcome', hp', hreturned'⟩ := (l.under false).ends hvalid
  have hbuilt := (compares hengine).built_eq
  have hsucceeds := (compares hengine).succeeds_iff
  change (l.under false).worked.2.world.progresses[(l.under false).progress]?.map _ =
    (l.under true).worked.2.world.progresses[(l.under true).progress]?.map _ at hbuilt
  change (l.under true).worked.1 = _ ↔ (l.under false).worked.1 = _ at hsucceeds
  rw [hp, hp'] at hbuilt
  rw [hreturned, hreturned', houtcome, houtcome', outcome_eq_ok, outcome_eq_ok]
  exact ⟨Option.some.inj hbuilt, hsucceeds.symm⟩

/-- The calls have a beginning in common, and the first failure is where the fail-fast round detaches. -/
theorem records_agree (hengine : l.engine.IgnoresPolicy) (hvalid : l.setup.options.validate = .ok ()) :
    (∃ cs cs' : List Call, (l.under true).record.calls = cs ++ cs' ++ [.detach] ∧
      (l.under false).record.calls.map Call.neutral = cs.map Call.neutral ++ [.detach]) ∧
    (∀ result, (l.under true).record.failure? = some result →
      ∃ x, result.verdict false = .error x ∧ (l.under false).outcome = .error x) ∧
    ((l.under true).record.failure? = none → (l.under false).outcome = (l.under true).outcome) := by
  obtain ⟨t, v, -, ht, hv, hentered, htrace, houtcome, -⟩ := (l.under true).ends hvalid
  obtain ⟨-, v', -, -, hv', -, htrace', houtcome', -⟩ := (l.under false).ends hvalid
  obtain ⟨a, b, ha, ha', hfailed, hclean⟩ := (compares hengine).tells
  change (l.under true).worked.2.world.trace = _ at ha
  change (l.under false).worked.2.world.trace.map _ = _ at ha'
  have hrecord : (l.under true).record = t ++ (a ++ b) ++ v := by
    simp [record, htrace, ha, hentered]
  -- Of the fail-fast record only what is left without the policy can be compared.
  have hrecord' : (l.under false).record.map Occurrence.neutral = (t ++ a ++ v').map Occurrence.neutral := by
    rw [record, List.map_drop, htrace', List.map_append, ha', hentered]
    simp [under]
  have hfailure : (l.under true).record.failure? = (a ++ b).failure? := by
    rw [hrecord, Record.failure?_append, Record.failure?_append, Record.failure?_eq_none ht.idle,
      Record.failure?_eq_none hv.idle, Option.none_or, Option.or_none]
  refine ⟨⟨t.calls ++ a.calls, b.calls, ?_, ?_⟩, ?_, ?_⟩
  · simp [hrecord, hv.calls]
  · rw [← Record.calls_neutral, hrecord', Record.calls_neutral]
    simp [hv'.calls, Call.neutral]
  · intro result hresult
    obtain ⟨x, hx, hworked⟩ := hfailed result (hfailure ▸ hresult)
    exact ⟨x, hx, houtcome'.trans (congrArg Round.outcome hworked)⟩
  · intro hnone
    rw [houtcome, houtcome']
    exact congrArg Round.outcome (hclean (hfailure ▸ hnone))

/-- Two rounds with all else equal, one that keeps going and one that fails fast. The requests and the cycle reports
of the latter come first in the former; both give the same set back; either succeeds if the other does; and when the
one absorbs failures, the other ends with what the first of them means. -/
theorem policies_agree (l : Launch σ) (hengine : l.engine.IgnoresPolicy) :
    (l.under false).asked.map Request.neutral <+: (l.under true).asked.map Request.neutral ∧
    (l.under false).cyclesReported <+: (l.under true).cyclesReported ∧
    (l.under false).returned = (l.under true).returned ∧
    ((l.under false).outcome = .ok () ↔ (l.under true).outcome = .ok ()) ∧
    (∀ result, (l.under true).record.failure? = some result →
      ∃ x, result.verdict false = .error x ∧ (l.under false).outcome = .error x) ∧
    ((l.under true).record.failure? = none → (l.under false).outcome = (l.under true).outcome) := by
  cases hvalid : l.setup.options.validate with
  | error e =>
      obtain ⟨houtcome, hreturned, hnoise, -⟩ := (l.under true).of_invalid hvalid
      obtain ⟨houtcome', hreturned', hnoise', -⟩ := (l.under false).of_invalid hvalid
      have hcalls : (l.under false).record.calls = [] := hnoise'.plain.calls
      refine ⟨by simp [asked, hcalls], by simp [cyclesReported, hcalls], hreturned'.trans hreturned.symm, ?_, ?_,
        fun _ => houtcome'.trans houtcome.symm⟩
      · rw [houtcome, houtcome']
      · simp [hnoise.failure?]
  | ok _ =>
      obtain ⟨⟨cs, cs', hcalls, hcalls'⟩, hfailed, hclean⟩ := records_agree hengine hvalid
      obtain ⟨hreturned, hsucceeds⟩ := returned_agree hengine hvalid
      refine ⟨?_, ?_, hreturned, hsucceeds, hfailed, hclean⟩
      · exact Call.prefix_of_neutral (fun c => by cases c <;> rfl) rfl hcalls hcalls'
      · have hreports := Call.prefix_of_neutral (f := Call.cycleReport?) (g := id) (fun c => by cases c <;> rfl) rfl
          hcalls hcalls'
        simpa [cyclesReported] using hreports

/-- The main evaluation shows one artifact and fails on another; the exclusive one after it fails over a cycle. -/
def failedTwice : Launch Scripted :=
  scripted true
    [{ steps := [.notify (.evaluated (.artifact ⟨⟨"a"⟩, .derived⟩) .clean)],
       answer := some (.ok { errors := [{ key := .artifact ⟨⟨"b"⟩, .derived⟩, cause := some (.testFailed "b") }] }) },
     { answer := some (.ok { errors := [{ key := .artifact ⟨⟨"c"⟩, .derived⟩, cycles := [⟨[], []⟩] }] }) }]
    [⟨⟨"a"⟩, .derived⟩, ⟨⟨"b"⟩, .derived⟩] [⟨⟨"c"⟩, .derived⟩]

theorem policies_agree_failedTwice : failedTwice.engine.IgnoresPolicy ∧
    (failedTwice.under true).asked.length = 2 ∧ (failedTwice.under false).asked.length = 1 ∧
      (failedTwice.under true).returned.contains ⟨⟨"a"⟩, .derived⟩ = true ∧
      (failedTwice.under false).returned = (failedTwice.under true).returned ∧
      (failedTwice.under true).outcome ≠ .ok () ∧
      ∃ result x, (failedTwice.under true).record.failure? = some result ∧ result.verdict false = .error x ∧
        (failedTwice.under false).outcome = .error x := by
  obtain ⟨-, -, hreturned, hsucceeds, hfailed, -⟩ := policies_agree failedTwice Scripted.ignoresPolicy
  have hfailure : (failedTwice.under true).record.failure?.isSome = true := by decide +kernel
  obtain ⟨result, hresult⟩ := Option.isSome_iff_exists.mp hfailure
  obtain ⟨x, hx, houtcome⟩ := hfailed result hresult
  refine ⟨Scripted.ignoresPolicy, by decide +kernel, by decide +kernel, by decide +kernel, hreturned, ?_, result, x,
    hresult, hx, houtcome⟩
  simp [← hsucceeds, houtcome]

end Launch

end BuildRound
