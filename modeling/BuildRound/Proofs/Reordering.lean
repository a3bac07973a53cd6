import BuildRound.Proofs.Policies

/-!
# The order of exclusive artifacts

Two rounds with all else equal, whose exclusive artifacts come in different orders, with an engine whose answers to
exclusive evaluations depend on the artifact alone. As long as nobody cancels meanwhile, each exclusive evaluation
brings what it would bring by itself. So the rounds do the same until the main build is over, and after that the
verdict is one over the same answers.
-/

namespace BuildRound

open Round

variable {σ α β κ : Type}

/-! ## Calm worlds -/

/-- However the program goes, it does not cancel this token, and what it ends with satisfies this. -/
def Program.Spares (token : Token) (p : α → Prop) : Program α → Prop
  | .done a => p a
  | .issue c next => c ≠ .cancel token ∧ ∀ r, (next r).Spares token p

theorem Program.Spares.bind {token : Token} {p : α → Prop} {q : β → Prop} {program : Program α} {f : α → Program β}
    (h : program.Spares token p) (hf : ∀ a, p a → (f a).Spares token q) : (program.bind f).Spares token q := by
  induction program with
  | done a => exact hf a h
  | issue c next ih => exact ⟨h.1, fun r => ih r (h.2 r)⟩

namespace World

/-- The token is not cancelled, and nobody but the engine may cancel it from this turn on. -/
structure Calm (schedule : Schedule) (token : Token) (w : World) : Prop where
  clear : w.signals.isCancelled token = false
  alone : ∀ n, w.turns ≤ n → .cancel token ∉ schedule n

variable {schedule : Schedule} {token : Token} {w w' : World}

theorem Calm.of_eq (h : w.Calm schedule token) (hsignals : w'.signals = w.signals) (hturns : w'.turns = w.turns) :
    w'.Calm schedule token :=
  ⟨hsignals ▸ h.clear, hturns ▸ h.alone⟩

theorem isCancelled_moves {moves : List Move} (h : .cancel token ∉ moves) (w : World) :
    (moves.foldl move w).signals.isCancelled token = w.signals.isCancelled token := by
  induction moves generalizing w with
  | nil => rfl
  | cons m moves ih =>
      rw [List.mem_cons, not_or] at h
      rw [List.foldl_cons, ih h.2]
      cases m with
      | pass duration => rfl
      | watch => exact congrArg (·.isCancelled token) w.moveWatchdog_flow.signals
      | cancel other =>
          exact w.signals.isCancelled_cancel_of_ne fun hsame => h.1 (congrArg Move.cancel hsame.symm)

theorem Calm.turn (h : w.Calm schedule token) : (w.turn schedule).Calm schedule token where
  clear := (isCancelled_moves (h.alone _ (Nat.le_refl _)) w).trans h.clear
  alone n hn := h.alone n (Nat.le_of_succ_le hn)

theorem Calm.perform (h : w.Calm schedule token) (l : Option Nat) {c : Command} (hc : c ≠ .cancel token) :
    (w.perform l c).2.Calm schedule token := by
  cases c with
  | cancel other =>
      refine ⟨?_, h.alone⟩
      exact (w.signals.isCancelled_cancel_of_ne fun hsame => hc (congrArg Command.cancel hsame)).trans h.clear
  | notify n => cases l <;> exact h.of_eq rfl rfl
  | leave i => exact h.of_eq (signals_dismissBoard _ i) (turns_dismissBoard _ i)
  | _ => exact h.of_eq rfl rfl

theorem Calm.run (h : w.Calm schedule token) (l : Option Nat) {p : α → Prop} {program : Program α}
    (hprogram : program.Spares token p) :
    p (program.run schedule l w).1 ∧ (program.run schedule l w).2.Calm schedule token := by
  induction program generalizing w with
  | done a => exact ⟨hprogram, h⟩
  | issue c next ih => exact ih _ (h.turn.perform l hprogram.1) (hprogram.2 _)

end World

namespace Round

/-! ## Parts among calm surroundings -/

/-- While the token is not cancelled and nobody else cancels it, neither does the part, and its answer satisfies
this. -/
def Act.Calmly (host : Host) (token : Token) (p : α → Prop) (part : Act σ α) : Prop :=
  ∀ s : Stage σ, s.world.Calm host.schedule token →
    p (part.on s).1 ∧ (part.on s).2.world.Calm host.schedule token

variable {host : Host} {engine : Engine σ} {setup : Setup} {order : Order} {token : Token}

theorem Act.Calmly.of_leads {part : Act σ α} {p : α → Prop} (h : Act.Calmly host token p part) {s s' : Stage σ}
    {t : Record} {a : α} (k : part.Leads s t a s') (hs : s.world.Calm host.schedule token) :
    p a ∧ s'.world.Calm host.schedule token := by
  have hboth := h s hs
  rwa [k.eq] at hboth

theorem Act.Calmly.bind {part : Act σ α} {rest : α → Act σ β} {p : α → Prop} {q : β → Prop}
    (h : Act.Calmly host token p part) (k : ∀ a, p a → Act.Calmly host token q (rest a)) :
    Act.Calmly host token q (part >>= rest) := by
  intro s hs
  obtain ⟨hp, hcalm⟩ := h s hs
  exact k _ hp _ hcalm

theorem Act.Calmly.lift {part : Act σ α} {p : α → Prop} (h : Act.Calmly host token p part) :
    Act.Calmly host token (fun r => ∃ a, r = .ok a ∧ p a) (lift part).run :=
  fun s hs => ⟨⟨_, rfl, (h s hs).1⟩, (h s hs).2⟩

/-- What follows on a part that has answered. -/
theorem Attempt.calmly_bind {part : Attempt σ α} {rest : α → Attempt σ β} {p : α → Prop}
    {q : Except BuildError β → Prop} (h : Act.Calmly host token (fun r => ∃ a, r = .ok a ∧ p a) part.run)
    (k : ∀ a, p a → Act.Calmly host token q (rest a).run) : Act.Calmly host token q (part >>= rest).run := by
  intro s hs
  obtain ⟨⟨a, ha, hp⟩, hcalm⟩ := h s hs
  have hon : Act.on part.run s = (.ok a, (Act.on part.run s).2) := by rw [← ha]
  rw [Attempt.on_bind, hon]
  exact k a hp _ hcalm

theorem orFail_calmly (r : Except BuildError α) : Act.Calmly host token (· = r) (orFail r : Attempt σ α).run :=
  fun _ hs => ⟨rfl, hs⟩

theorem change_calmly {f : World → World} (hsignals : ∀ w, (f w).signals = w.signals)
    (hturns : ∀ w, (f w).turns = w.turns) : Act.Calmly host token (fun _ => True) (change host f : Act σ Unit) :=
  fun _ hs => ⟨trivial, hs.turn.of_eq (hsignals _) (hturns _)⟩

theorem say_calmly (entries : List Log.Entry) :
    Act.Calmly host token (fun _ => True) (say host entries : Act σ Unit) :=
  change_calmly (f := (·.say .caller entries)) (fun _ => rfl) (fun _ => rfl)

theorem note_calmly (o : Occurrence) : Act.Calmly host token (fun _ => True) (change host (·.note o) : Act σ Unit) :=
  change_calmly (f := (·.note o)) (fun _ => rfl) (fun _ => rfl)

theorem ask_calmly {p : α → Prop} (call : Call) {program : σ → Program (α × σ)}
    (h : ∀ x, (program x).Spares token (fun r => p r.1)) : Act.Calmly host token p (ask host call program) := by
  intro s hs
  have hnote : ((s.world.turn host.schedule).note (.called call)).Calm host.schedule token := hs.turn.of_eq rfl rfl
  exact hnote.run call.listener (h s.engine)

theorem tell_calmly (call : Call) {program : σ → Program σ} (h : ∀ x, (program x).Spares token (fun _ => True)) :
    Act.Calmly host token (fun _ => True) (tell host call program) :=
  ask_calmly call fun x => (h x).bind fun _ _ => trivial

theorem checkCancelled_calmly :
    Act.Calmly host order.context.cancellation (fun r => ∃ a, r = .ok a ∧ True)
      (checkCancelled host order : Attempt σ Unit).run := by
  refine Attempt.calmly_bind (p := (· = .ok ())) (Act.Calmly.lift fun s hs => ⟨?_, hs.turn.of_eq rfl rfl⟩) ?_
  · exact if_neg (Bool.eq_false_iff.mp hs.turn.clear)
  · rintro _ rfl s hs
    exact ⟨⟨(), rfl, trivial⟩, hs⟩

theorem judge_calmly {result : EvaluationResult}
    (hreports : ∀ report ∈ result.cycleReports, ∀ x, (engine.reportCycles report x).Spares token (fun _ => True)) :
    Act.Calmly host token (fun _ => True) (judge host engine setup result).run := by
  have hreport : Act.Calmly host token (fun _ => True) (reportCycles host engine result.cycleReports) := by
    generalize result.cycleReports = reports at hreports
    induction reports with
    | nil => exact fun s hs => ⟨trivial, hs⟩
    | cons report rest ih =>
        exact (tell_calmly _ (hreports report (by simp))).bind fun _ _ => ih fun r hr => hreports r (by simp [hr])
  refine Attempt.calmly_bind hreport.lift fun _ _ => ?_
  refine Attempt.calmly_bind (say_calmly _).lift fun _ _ => ?_
  exact fun s hs => ⟨trivial, hs⟩

/-! ## Exclusive evaluations -/

def isClean : Except BuildError EvaluationResult → Bool
  | .ok result => !result.hasError
  | .error _ => false

theorem reports_of_isClean {a : Except BuildError EvaluationResult} (h : isClean a = true) : reports a = [] := by
  cases a with
  | error e => rfl
  | ok result => simpa [isClean, EvaluationResult.hasError, reports, EvaluationResult.cycleReports] using h

theorem bind_verdict_eq_ok (a : Except BuildError EvaluationResult) (keepGoing : Bool) :
    a.bind (·.verdict keepGoing) = .ok true ↔ isClean a = true := by
  cases a with
  | error e => simp [isClean, Except.bind]
  | ok result =>
      show result.verdict keepGoing = .ok true ↔ _
      rw [EvaluationResult.verdict_eq_ok]
      cases h : result.hasError <;> simp [isClean, h]

/-- Exclusive evaluations spare the signal of the round, and what they answer depends on the artifact alone. -/
def Answers (engine : Engine σ) (setup : Setup) (order : Order)
    (answer : Artifact → Except BuildError EvaluationResult) : Prop :=
  ∀ artifact x, (engine.evaluate (request setup order (.ofList [artifact]) none) x).Spares order.context.cancellation
    (·.1 = answer artifact)

/-- Reporting the cycles of such an answer spares the signal as well. -/
def SparesReports (engine : Engine σ) (order : Order) (answer : Except BuildError EvaluationResult) : Prop :=
  ∀ report, .reportCycles report ∈ reports answer →
    ∀ x, (engine.reportCycles report x).Spares order.context.cancellation (fun _ => True)

variable {answer : Artifact → Except BuildError EvaluationResult}

theorem evaluateAlone_calmly (hanswers : Answers engine setup order answer) (artifact : Artifact) :
    Act.Calmly host order.context.cancellation (· = answer artifact)
      (evaluateAlone host engine setup order artifact).run := by
  refine Attempt.calmly_bind (say_calmly _).lift fun _ _ => ?_
  refine Attempt.calmly_bind (ask_calmly (p := (· = answer artifact)) _ (hanswers artifact)).lift fun a ha => ?_
  refine Attempt.calmly_bind (note_calmly _).lift fun _ _ => ?_
  exact ha ▸ orFail_calmly a

/-- What an exclusive artifact contributes to the calls. -/
def callsFor (setup : Setup) (order : Order) (answer : Artifact → Except BuildError EvaluationResult)
    (artifact : Artifact) : List Call :=
  .evaluate (request setup order (.ofList [artifact]) none) :: reports (answer artifact)

/-- Among calm surroundings an exclusive evaluation is made, and judged by its answer. -/
theorem episode_alone (hanswers : Answers engine setup order answer) (artifact : Artifact) {s : Stage σ}
    (hs : s.world.Calm host.schedule order.context.cancellation) : ∃ (t : Record) (s' : Stage σ),
      Attempt.Leads (episode host engine setup order (evaluateAlone host engine setup order artifact)) s t
        ((answer artifact).bind (·.verdict setup.options.keepGoing)) s' ∧
      .answered none (answer artifact) ∈ t ∧ t.calls = callsFor setup order answer artifact ∧
      (SparesReports engine order (answer artifact) → s'.world.Calm host.schedule order.context.cancellation) := by
  obtain ⟨n, s₁, hn, h₁⟩ := checkCancelled_leads host order s
  obtain ⟨⟨_, hpassed, -⟩, hs₁⟩ := checkCancelled_calmly.of_leads h₁ hs
  rw [hpassed] at h₁
  obtain ⟨t, m, a, s₂, ht, hm, h₂⟩ := evaluateAlone_evaluates host engine setup order artifact s₁
  obtain ⟨rfl, hs₂⟩ := (evaluateAlone_calmly hanswers artifact).of_leads h₂ hs₁
  obtain ⟨-, -, -, -, hcalls, -⟩ := ht.reads ⟨0⟩ {}
  have hmem : .answered none (answer artifact) ∈ t := by
    obtain ⟨-, -⟩ := ht
    simp
  cases hanswer : answer artifact with
  | error e =>
      rw [hanswer] at h₂ hmem
      refine ⟨_, s₂, h₁.bind h₂.bind_error, by simp [hmem], ?_, fun _ => hs₂⟩
      simp [hn.plain.calls, hm.plain.calls, hcalls, callsFor, hanswer, reports, Occurrence.call?]
  | ok result =>
      rw [hanswer] at h₂ hmem
      obtain ⟨v, s₃, hv, h₃⟩ := judge_leads host engine setup result s₂
      refine ⟨_, s₃, h₁.bind (h₂.bind h₃), by simp [hmem], ?_, fun hreports => ?_⟩
      · simp [hn.plain.calls, hm.plain.calls, hcalls, hv.calls, callsFor, hanswer, Occurrence.call?]
      · refine ((judge_calmly fun report hreport => hreports report ?_).of_leads h₃ hs₂).2
        simpa [reports] using hreport

/-- Among calm surroundings the exclusive builds go well just when each would by itself. -/
theorem buildExclusive_succeeds_iff (hanswers : Answers engine setup order answer) (artifacts : List Artifact)
    (success : Bool) {s : Stage σ} (hs : s.world.Calm host.schedule order.context.cancellation) :
    (Act.on (buildExclusive host engine setup order artifacts success).run s).1 = .ok true ↔
      success = true ∧ ∀ a ∈ artifacts, isClean (answer a) = true := by
  induction artifacts generalizing success s with
  | nil =>
      show Except.ok success = Except.ok true ↔ _
      simp
  | cons artifact rest ih =>
      obtain ⟨t, s', h, -, -, hcalm⟩ := episode_alone hanswers artifact hs
      rw [buildExclusive, Attempt.on_bind, h.eq]
      have hclean := bind_verdict_eq_ok (answer artifact) setup.options.keepGoing
      rcases hverdict : (answer artifact).bind (·.verdict setup.options.keepGoing) with e | _ | _
      · rw [hverdict] at hclean
        simp [← hclean]
      · rw [hverdict] at hclean
        obtain ⟨u, r, s'', k, -, hr⟩ := buildExclusive_vain host engine setup order rest 0 s'
        simp only [Bool.false_and, k.eq]
        simp [hr, ← hclean]
      · have hartifact := hclean.mp hverdict
        simp only [Bool.true_and]
        rw [ih success (hcalm fun _ hreport => by simp [reports_of_isClean hartifact] at hreport)]
        simp [hartifact]

/-- Among calm surroundings and with keep-going, all exclusive evaluations are made unless one of them answers with an
error. -/
theorem buildExclusive_sweeps (hanswers : Answers engine setup order answer)
    (hgo : setup.options.keepGoing = true)
    (hreports : ∀ a, SparesReports engine order (answer a))
    (artifacts : List Artifact) (success : Bool) {s : Stage σ}
    (hs : s.world.Calm host.schedule order.context.cancellation) :
    ∃ (u : Record) (r : Except BuildError Bool) (s' : Stage σ),
      Attempt.Leads (buildExclusive host engine setup order artifacts success) s u r s' ∧
      ((∃ x, .answered none (.error x) ∈ u) ∧ (∃ a ∈ artifacts, ∃ x, answer a = .error x) ∨
        (∀ a ∈ artifacts, ∃ result, answer a = .ok result) ∧
          r = .ok (success && artifacts.all (fun a => isClean (answer a))) ∧
          u.calls = artifacts.flatMap (callsFor setup order answer)) := by
  induction artifacts generalizing success s with
  | nil => exact ⟨[], _, s, .pure success s, .inr (by simp)⟩
  | cons artifact rest ih =>
      obtain ⟨t, s₁, h, hmem, hcalls, hcalm⟩ := episode_alone hanswers artifact hs
      unfold buildExclusive
      cases hanswer : answer artifact with
      | error e =>
          rw [hanswer] at h hmem
          exact ⟨t, _, s₁, h.bind_error, .inl ⟨⟨e, hmem⟩, artifact, by simp, e, hanswer⟩⟩
      | ok result =>
          have hverdict : (answer artifact).bind (·.verdict setup.options.keepGoing) =
              .ok (isClean (answer artifact)) := by
            rw [hanswer]
            exact EvaluationResult.verdict_eq_ok.mpr ⟨rfl, fun _ => hgo⟩
          rw [hverdict] at h
          obtain ⟨u, r, s₂, k, hrest⟩ := ih (isClean (answer artifact) && success)
            (hcalm (hreports artifact))
          refine ⟨t ++ u, r, s₂, h.bind k, ?_⟩
          rcases hrest with ⟨⟨x, hx⟩, a, ha, herror⟩ | ⟨hall, hr, hrest⟩
          · exact .inl ⟨⟨x, by simp [hx]⟩, a, by simp [ha], herror⟩
          · refine .inr ⟨by simpa [hanswer] using hall, ?_, by simp [hcalls, hrest]⟩
            rw [hr, List.all_cons, Bool.and_assoc, Bool.and_left_comm]

/-- Once the round is cancelled, no exclusive evaluation is made. -/
theorem buildExclusive_cancelled (host : Host) (engine : Engine σ) (setup : Setup) {order : Order}
    {artifacts : List Artifact} (hne : artifacts ≠ []) (success : Bool) {s : Stage σ}
    (hs : s.world.signals.isCancelled order.context.cancellation = true) : ∃ (u : Record) (s' : Stage σ),
      Attempt.Leads (buildExclusive host engine setup order artifacts success) s u (.error .cancelled) s' ∧
      u.calls = [] := by
  obtain ⟨artifact, rest, rfl⟩ := List.exists_cons_of_ne_nil hne
  obtain ⟨n, s', hn, h⟩ := checkCancelled_leads host order s
  have hlook : (s.world.signals.after n).check order.context.cancellation = .error .cancelled :=
    if_pos (Signals.isCancelled_after n hs)
  rw [hlook] at h
  exact ⟨_, s', h.bind_error.bind_error, by simp [hn.plain.calls, Occurrence.call?]⟩

end Round

/-! ## The main build -/

namespace Launch

variable (l : Launch σ)

/-- The same with these exclusive artifacts. -/
def reordered (artifacts : List Artifact) : Launch σ :=
  { l with order := { l.order with exclusive := artifacts } }

/-- What a round does up to the end of its main build. -/
def mainPart : Attempt σ Bool := do
  startWatchdog l.host
  survey l.host l.engine l.order
  buildMain l.host l.engine l.setup l.order l.progress

/-- What the work brings up to the end of the main build, and the stage after it. -/
def mainBuilt : Except BuildError Bool × Stage σ :=
  Act.on l.mainPart.run l.entered

/-- The stage on which the exclusive builds begin. -/
def secluded : Stage σ :=
  (Act.on (change l.host fun w => { w with watch := { w.watch with exclusive := true } }) l.mainBuilt.2).2

theorem entered_reordered {artifacts : List Artifact} (h : artifacts.length = l.order.exclusive.length) :
    (l.reordered artifacts).entered = l.entered := by
  have hspan : span l.setup (l.reordered artifacts).order = span l.setup l.order := by
    simp [span, reordered, h]
  unfold entered
  show (Act.on (say l.host [span l.setup (l.reordered artifacts).order] >>= fun _ =>
    enter l.host l.engine l.setup l.order l.built) l.stage).2 = _
  rw [hspan]

theorem mainBuilt_reordered {artifacts : List Artifact} (h : artifacts.length = l.order.exclusive.length) :
    (l.reordered artifacts).mainBuilt = l.mainBuilt := by
  unfold mainBuilt
  rw [l.entered_reordered h]
  rfl

/-- The work is the main build, and then the exclusive builds if there are any. -/
theorem worked_eq : l.worked =
    match l.mainBuilt with
    | (.error e, s) => (.error e, s)
    | (.ok success, s) =>
        if l.order.exclusive.isEmpty then (.ok success, s)
        else Act.on (buildExclusive l.host l.engine l.setup l.order l.order.exclusive success).run l.secluded := by
  have hassoc : l.worked = Act.on (l.mainPart >>= fun success =>
      if l.order.exclusive.isEmpty then pure success
      else lift (change l.host fun w => { w with watch := { w.watch with exclusive := true } }) >>= fun _ =>
        buildExclusive l.host l.engine l.setup l.order l.order.exclusive success).run l.entered := by
    simp only [worked, work, build, mainPart, Attempt.on_bind]
    rcases Act.on (startWatchdog l.host).run l.entered with ⟨_ | _, s⟩
    · rfl
    · rcases hsurvey : Act.on (survey l.host l.engine l.order).run s with ⟨_ | _, _⟩ <;> simp only [hsurvey]
  rw [hassoc, Attempt.on_bind, show Act.on l.mainPart.run l.entered = l.mainBuilt from rfl]
  rcases hmain : l.mainBuilt with ⟨_ | success, s⟩
  · rfl
  · cases l.order.exclusive.isEmpty with
    | true => rfl
    | false => simp only [secluded, hmain, Attempt.on_bind, on_lift, Bool.false_eq_true, ↓reduceIte]

theorem main_records : ∃ w : Record, l.entered.world.Records w l.mainBuilt.2.world := by
  obtain ⟨_, -, -, hopened⟩ := l.opens
  obtain ⟨n, s₁, -, h₁, e₁, -⟩ := startWatchdog_on l.host hopened.idle
  obtain ⟨t, r, s₂, -, h₂⟩ := survey_leads l.host l.engine l.order s₁
  obtain ⟨u, r', s₃, -, h₃⟩ := buildMain_leads l.host l.engine l.setup l.order l.progress s₂
  -- The main part ends where the watchdog is started, where conflicts are found, or where it has been built.
  have hon : l.mainBuilt.2 = s₁ ∨ l.mainBuilt.2 = s₂ ∨ l.mainBuilt.2 = s₃ := by
    simp only [mainBuilt, mainPart, Attempt.on_bind, e₁]
    rcases l.host.spawn.mapError unwatched with reason | _
    · exact .inl rfl
    · simp only [h₂.eq]
      cases r with
      | error e => exact .inr (.inl rfl)
      | ok a => exact .inr (.inr (congrArg (·.2) h₃.eq))
  rcases hon with hon | hon | hon <;> rw [hon]
  · exact ⟨_, h₁⟩
  · exact ⟨_, h₁.trans h₂.flow.toRecords⟩
  · exact ⟨_, h₁.trans (h₂.flow.toRecords.trans h₃.flow.toRecords)⟩

theorem secluded_flow : ∃ n : Record, n.Noise ∧ l.mainBuilt.2.world.Flow n l.secluded.world := by
  obtain ⟨n, _, s', hn, h⟩ := watchExclusive_quiet l.host l.mainBuilt.2
  have hsecluded : l.secluded = s' := congrArg (·.2) h.eq
  exact ⟨n, hn, hsecluded ▸ h.flow⟩

/-- What the exclusive builds record leaves the built set alone. -/
theorem worked_records : ∃ u : Record, l.mainBuilt.2.world.Records u l.worked.2.world ∧ ∀ i, Unheard i u := by
  have hnone : ∃ u : Record, l.mainBuilt.2.world.Records u l.mainBuilt.2.world ∧ ∀ i, Unheard i u :=
    ⟨[], (World.Flow.refl _).toRecords, fun _ _ => rfl⟩
  rw [worked_eq]
  rcases hmain : l.mainBuilt with ⟨_ | success, s⟩
  · rwa [hmain] at hnone
  · cases l.order.exclusive.isEmpty with
    | true => rwa [hmain] at hnone
    | false =>
        obtain ⟨n, hn, hflow⟩ := l.secluded_flow
        obtain ⟨u, r, s', hu, h⟩ :=
          buildExclusive_leads l.host l.engine l.setup l.order l.order.exclusive success l.secluded
        rw [hmain] at hflow
        simp only [Bool.false_eq_true, ↓reduceIte, h.eq]
        exact ⟨n ++ u, hflow.toRecords.trans h.flow.toRecords, fun i => (Unheard.of_plain hn.plain i).append
          (.of_course hu (fun q => listener_exclusiveRequests l.setup l.order) i)⟩

/-- The record of a round, by where its main build ends. -/
theorem record_eq (hvalid : l.setup.options.validate = .ok ()) {u : Record}
    (hu : l.worked.2.world.trace = l.mainBuilt.2.world.trace ++ u) : ∃ v : Record, v.Closing l.host.canSpawn ∧
      l.record = l.mainBuilt.2.world.trace.drop l.stage.world.trace.length ++ (u ++ v) := by
  obtain ⟨t, v, -, -, hv, hentered, htrace, -⟩ := l.ends hvalid
  obtain ⟨w, hw⟩ := l.main_records
  refine ⟨v, hv, ?_⟩
  rw [record, htrace, hu, hw.trace, hentered]
  simp

theorem returned_eq (hvalid : l.setup.options.validate = .ok ()) :
    l.mainBuilt.2.world.progresses[l.progress]?.map Progress.built = some l.returned := by
  obtain ⟨-, -, p, -, -, -, -, -, hp, hreturned⟩ := l.ends hvalid
  obtain ⟨u, hu, hunheard⟩ := l.worked_records
  rw [hu.progresses, Option.map_eq_some_iff] at hp
  obtain ⟨q, hq, rfl⟩ := hp
  rw [hq, hreturned, Option.map_some, hunheard]

/-! ## One round -/

/-- Exclusive evaluations answer by the artifact alone, and once the main build is over nobody cancels the round, be
it the engine in the course of such an evaluation or anyone else. -/
structure Steady (answer : Artifact → Except BuildError EvaluationResult) : Prop where
  answers : Answers l.engine l.setup l.order answer
  alone : ∀ n, l.mainBuilt.2.world.turns ≤ n → .cancel l.token ∉ l.host.schedule n

/-- Whether the round is cancelled by the end of its main build. -/
def stopped : Bool :=
  l.mainBuilt.2.world.signals.isCancelled l.token

/-- The exclusive artifacts that are to be evaluated after this main build. -/
def due : List Artifact :=
  match l.mainBuilt.1 with
  | .ok _ => if l.stopped then [] else l.order.exclusive
  | .error _ => []

/-- What the work comes to with keep-going if exclusive evaluations answer like this. -/
def foretold (answer : Artifact → Except BuildError EvaluationResult) : Except BuildError Bool :=
  l.mainBuilt.1.bind fun success =>
    if l.stopped && !l.order.exclusive.isEmpty then .error .cancelled
    else .ok (success && l.order.exclusive.all fun a => isClean (answer a))

variable {l} {answer : Artifact → Except BuildError EvaluationResult}

theorem Steady.secluded_calm (h : l.Steady answer) (hstopped : l.stopped = false) :
    l.secluded.world.Calm l.host.schedule l.token :=
  (change_calmly (f := fun w => { w with watch := { w.watch with exclusive := true } }) (fun _ => rfl) (fun _ => rfl)
    l.mainBuilt.2 ⟨hstopped, h.alone⟩).2

theorem secluded_cancelled (hstopped : l.stopped = true) : l.secluded.world.signals.isCancelled l.token = true := by
  obtain ⟨n, -, hflow⟩ := l.secluded_flow
  rw [hflow.signals]
  exact Signals.isCancelled_after n hstopped

/-- A round succeeds just when its main build does and each exclusive evaluation would by itself. -/
theorem Steady.succeeds_iff (h : l.Steady answer) (hvalid : l.setup.options.validate = .ok ()) :
    l.outcome = .ok () ↔
      l.mainBuilt.1 = .ok true ∧ ∀ a ∈ l.order.exclusive, l.stopped = false ∧ isClean (answer a) = true := by
  obtain ⟨-, -, -, -, -, -, -, houtcome, -⟩ := l.ends hvalid
  rw [houtcome, outcome_eq_ok, worked_eq]
  rcases hmain : l.mainBuilt with ⟨_ | success, s⟩
  · simp
  · cases hexclusive : l.order.exclusive with
    | nil => simp
    | cons artifact rest =>
        simp only [List.isEmpty_cons, Bool.false_eq_true, ↓reduceIte, Except.ok.injEq]
        cases hstopped : l.stopped with
        | true =>
            obtain ⟨u, s', hcancelled, -⟩ := buildExclusive_cancelled l.host l.engine l.setup
              (List.cons_ne_nil artifact rest) success (secluded_cancelled hstopped)
            rw [hcancelled.eq]
            exact iff_of_false nofun fun hall => nomatch (hall.2 artifact List.mem_cons_self).1
        | false =>
            rw [buildExclusive_succeeds_iff h.answers _ success (h.secluded_calm hstopped)]
            simp

/-- What the exclusive builds record with keep-going: all evaluations that are due, unless one of them answers with
an error. -/
theorem Steady.works (h : l.Steady answer) (hgo : l.setup.options.keepGoing = true)
    (hreports : ∀ a, SparesReports l.engine l.order (answer a)) :
    ∃ u : Record, l.worked.2.world.trace = l.mainBuilt.2.world.trace ++ u ∧
      ((∃ x, .answered none (.error x) ∈ u) ∧ (∃ a ∈ l.due, ∃ x, answer a = .error x) ∨
        (∀ a ∈ l.due, ∃ result, answer a = .ok result) ∧ l.worked.1 = l.foretold answer ∧
          u.calls = l.due.flatMap (callsFor l.setup l.order answer)) := by
  obtain ⟨n, hn, hflow⟩ := l.secluded_flow
  rw [worked_eq]
  rcases hmain : l.mainBuilt with ⟨_ | success, s⟩
  · exact ⟨[], by simp, .inr (by simp [due, foretold, hmain, Except.bind])⟩
  · cases hexclusive : l.order.exclusive with
    | nil => exact ⟨[], by simp, .inr (by simp [due, foretold, hmain, hexclusive, Except.bind])⟩
    | cons artifact rest =>
        rw [hmain] at hflow
        simp only [List.isEmpty_cons, Bool.false_eq_true, ↓reduceIte]
        cases hstopped : l.stopped with
        | true =>
            obtain ⟨u, s', hcancelled, hcalls⟩ := buildExclusive_cancelled l.host l.engine l.setup
              (List.cons_ne_nil artifact rest) success (secluded_cancelled hstopped)
            refine ⟨n ++ u, by rw [hcancelled.eq, hcancelled.flow.trace, hflow.trace, List.append_assoc], .inr ?_⟩
            simp [hcancelled.eq, hcalls, hn.plain.calls, due, foretold, hmain, hexclusive, hstopped, Except.bind]
        | false =>
            obtain ⟨u, r, s', hsweep, hall⟩ := buildExclusive_sweeps h.answers hgo hreports (artifact :: rest) success
              (h.secluded_calm hstopped)
            have hdue : l.due = artifact :: rest := by simp [due, hmain, hstopped, hexclusive]
            refine ⟨n ++ u, by rw [hsweep.eq, hsweep.flow.trace, hflow.trace, List.append_assoc], ?_⟩
            rw [hdue, hsweep.eq]
            rcases hall with ⟨⟨x, hx⟩, herror⟩ | ⟨hall, hr, hcalls⟩
            · exact .inl ⟨⟨x, by simp [hx]⟩, herror⟩
            · refine .inr ⟨hall, ?_, by simp [hcalls, hn.plain.calls]⟩
              simp [hr, foretold, hmain, hexclusive, hstopped, Except.bind]

variable (l) in
/-- The calls up to the end of the main build. -/
def mainCalls : List Call :=
  Record.calls (l.mainBuilt.2.world.trace.drop l.stage.world.trace.length)

theorem Steady.keeps_going (h : l.Steady answer) (hvalid : l.setup.options.validate = .ok ())
    (hgo : l.setup.options.keepGoing = true)
    (hreports : ∀ a, SparesReports l.engine l.order (answer a)) :
    (∃ x, .answered none (.error x) ∈ l.record) ∧ (∃ a ∈ l.due, ∃ x, answer a = .error x) ∨
      (∀ a ∈ l.due, ∃ result, answer a = .ok result) ∧ l.outcome = Round.outcome (l.foretold answer) ∧
        l.record.calls = l.mainCalls ++ l.due.flatMap (callsFor l.setup l.order answer) ++ [.detach] := by
  obtain ⟨-, -, -, -, -, -, -, houtcome, -⟩ := l.ends hvalid
  obtain ⟨u, hu, hall⟩ := h.works hgo hreports
  obtain ⟨v, hv, hrecord⟩ := l.record_eq hvalid hu
  rcases hall with ⟨⟨x, hx⟩, herror⟩ | ⟨hall, hworked, hcalls⟩
  · exact .inl ⟨⟨x, by simp [hrecord, hx]⟩, herror⟩
  · exact .inr ⟨hall, by rw [houtcome, hworked], by simp [hrecord, hv.calls, hcalls, mainCalls]⟩

/-! ## Two orders -/

variable {key : Artifact → κ}

section Orders

variable {artifacts : List Artifact} (hperm : (artifacts.map key).Perm (l.order.exclusive.map key))

include hperm

theorem length_of_perm : artifacts.length = l.order.exclusive.length := by
  simpa using hperm.length_eq

theorem stopped_reordered : (l.reordered artifacts).stopped = l.stopped := by
  rw [stopped, l.mainBuilt_reordered (length_of_perm hperm)]
  rfl

theorem due_reordered : ((l.reordered artifacts).due.map key).Perm (l.due.map key) := by
  unfold due
  rw [stopped_reordered hperm, l.mainBuilt_reordered (length_of_perm hperm)]
  cases l.mainBuilt.1 with
  | error e => exact .refl _
  | ok success =>
      cases l.stopped with
      | true => exact .refl _
      | false => exact hperm

theorem foretold_reordered (answer : κ → Except BuildError EvaluationResult) :
    (l.reordered artifacts).foretold (fun a => answer (key a)) = l.foretold (fun a => answer (key a)) := by
  have hempty : artifacts.isEmpty = l.order.exclusive.isEmpty := by
    simpa using hperm.isEmpty_eq
  have hall : artifacts.all (fun a => isClean (answer (key a))) =
      l.order.exclusive.all (fun a => isClean (answer (key a))) := by
    simpa [Function.comp_def] using hperm.all_eq (f := fun k => isClean (answer k))
  unfold foretold
  rw [stopped_reordered hperm, l.mainBuilt_reordered (length_of_perm hperm)]
  simp only [Launch.reordered, hempty, hall]

theorem Steady.reordered (h : l.Steady answer) : (l.reordered artifacts).Steady answer where
  answers := h.answers
  alone := by
    rw [l.mainBuilt_reordered (length_of_perm hperm)]
    exact h.alone

theorem mainCalls_reordered : (l.reordered artifacts).mainCalls = l.mainCalls := by
  rw [mainCalls, l.mainBuilt_reordered (length_of_perm hperm)]
  rfl

end Orders

end Launch

/-- The artifact that a call has evaluated alone. -/
def Call.alone? : Call → Option Artifact
  | .evaluate q => if q.listener.isNone then q.artifacts.toList.head? else none
  | _ => none

theorem Round.filterMap_callsFor (f : Call → Option β) (setup : Setup) (order : Order)
    (answer : Artifact → Except BuildError EvaluationResult) (artifacts : List Artifact) :
    (artifacts.flatMap (callsFor setup order answer)).filterMap f =
      artifacts.flatMap fun a => (f (.evaluate (request setup order (.ofList [a]) none))).toList ++
        (reports (answer a)).filterMap f := by
  induction artifacts with
  | nil => rfl
  | cons artifact rest ih =>
      rw [List.flatMap_cons, List.filterMap_append, ih, List.flatMap_cons, callsFor]
      cases hf : f (.evaluate (request setup order (.ofList [artifact]) none)) <;> simp [hf]

namespace Launch

variable {l : Launch σ}

/-- The artifacts that were evaluated alone, one for each time. -/
def evaluatedAlone (l : Launch σ) : List Artifact :=
  l.record.calls.filterMap Call.alone?

theorem evaluatedAlone_eq {cs : List Call} {answer : Artifact → Except BuildError EvaluationResult}
    (h : l.record.calls = cs ++ l.due.flatMap (callsFor l.setup l.order answer) ++ [.detach]) :
    l.evaluatedAlone = cs.filterMap Call.alone? ++ l.due := by
  have hreports : ∀ a, (reports (answer a)).filterMap Call.alone? = [] := by
    intro a
    cases answer a <;> simp [reports, Call.alone?]
  have halone : ∀ a : Artifact, Call.alone? (.evaluate (request l.setup l.order (.ofList [a]) none)) = some a :=
    fun _ => rfl
  have hdetach : [Call.detach].filterMap Call.alone? = [] := rfl
  rw [evaluatedAlone, h, List.filterMap_append, List.filterMap_append, filterMap_callsFor, hdetach]
  simp [hreports, halone]

theorem cyclesReported_eq {cs : List Call} {answer : Artifact → Except BuildError EvaluationResult}
    (h : l.record.calls = cs ++ l.due.flatMap (callsFor l.setup l.order answer) ++ [.detach]) :
    l.cyclesReported = cs.filterMap Call.cycleReport? ++
      l.due.flatMap fun a => (reports (answer a)).filterMap Call.cycleReport? := by
  rw [cyclesReported, h, List.filterMap_append, List.filterMap_append, filterMap_callsFor]
  simp [Call.cycleReport?]

/-- Two rounds with all else equal whose exclusive artifacts come in different orders; `key` is what counts of an
artifact. One succeeds if the other does, and both give the same set back. When they keep going and no exclusive
evaluation of one of them fails as such, they end the same, report the same cycles and make the same evaluations,
each as often. -/
theorem orders_agree (l : Launch σ) {key : Artifact → κ} {answer : κ → Except BuildError EvaluationResult}
    {artifacts : List Artifact} (hsteady : l.Steady fun a => answer (key a))
    (hperm : (artifacts.map key).Perm (l.order.exclusive.map key)) :
    ((l.reordered artifacts).outcome = .ok () ↔ l.outcome = .ok ()) ∧
    (l.reordered artifacts).returned = l.returned ∧
    (l.setup.options.keepGoing = true →
      (∀ a, SparesReports l.engine l.order (answer (key a))) →
      (∀ x, .answered none (.error x) ∉ l.record) →
        (l.reordered artifacts).outcome = l.outcome ∧
        (l.reordered artifacts).cyclesReported.Perm l.cyclesReported ∧
        ((l.reordered artifacts).evaluatedAlone.map key).Perm (l.evaluatedAlone.map key)) := by
  have hsteady' := hsteady.reordered hperm
  cases hvalid : l.setup.options.validate with
  | error e =>
      obtain ⟨houtcome, hreturned, hnoise, -⟩ := l.of_invalid hvalid
      obtain ⟨houtcome', hreturned', hnoise', -⟩ := (l.reordered artifacts).of_invalid hvalid
      refine ⟨by rw [houtcome, houtcome'], hreturned'.trans hreturned.symm, fun _ _ _ => ⟨?_, ?_, ?_⟩⟩
      · rw [houtcome, houtcome']
      · simp [cyclesReported, hnoise.plain.calls, hnoise'.plain.calls]
      · simp [evaluatedAlone, hnoise.plain.calls, hnoise'.plain.calls]
  | ok _ =>
      have hmain := l.mainBuilt_reordered (length_of_perm hperm)
      refine ⟨?_, ?_, fun hgo hreports hnone => ?_⟩
      · have hkeys : ∀ as : List Artifact, (∀ a ∈ as, l.stopped = false ∧ isClean (answer (key a)) = true) ↔
            ∀ k ∈ as.map key, l.stopped = false ∧ isClean (answer k) = true := by simp
        rw [hsteady.succeeds_iff hvalid, hsteady'.succeeds_iff hvalid, hmain, stopped_reordered hperm, hkeys,
          hkeys l.order.exclusive]
        exact and_congr_right fun _ => forall_congr' fun k => imp_congr_left hperm.mem_iff
      · have hreturned := (l.reordered artifacts).returned_eq hvalid
        rw [hmain] at hreturned
        exact Option.some.inj (hreturned.symm.trans (l.returned_eq hvalid))
      · rcases hsteady.keeps_going hvalid hgo hreports with ⟨⟨x, hx⟩, -⟩ | ⟨hall, houtcome, hcalls⟩
        · exact absurd hx (hnone x)
        · have hdue := due_reordered (l := l) hperm
          rcases hsteady'.keeps_going hvalid hgo hreports with ⟨-, a, ha, x, hx⟩ | ⟨-, houtcome', hcalls'⟩
          · -- The answer that is an error would have been one in the other round too.
            obtain ⟨b, hb, hkey⟩ := List.mem_map.mp (hdue.mem_iff.mp (List.mem_map_of_mem ha))
            obtain ⟨result, hresult⟩ := hall b hb
            rw [hkey, hx] at hresult
            cases hresult
          · rw [mainCalls_reordered hperm] at hcalls'
            refine ⟨?_, ?_, ?_⟩
            · rw [houtcome, houtcome', foretold_reordered hperm]
            · rw [cyclesReported_eq hcalls, cyclesReported_eq hcalls']
              have hreported := hdue.flatMap_right fun k => (reports (answer k)).filterMap Call.cycleReport?
              simp only [List.flatMap_map] at hreported
              exact hreported.append_left _
            · rw [evaluatedAlone_eq hcalls, evaluatedAlone_eq hcalls', List.map_append, List.map_append]
              exact hdue.append_left _

/-- An engine that answers exclusive evaluations by the artifact. -/
def answering (answer : Artifact.Identity → Except BuildError EvaluationResult) : Engine Unit where
  prepare := .done
  setFileCache _ := .done
  attach _ := .done
  findConflicts s := .done (.ok (), s)
  informModified _ := .done
  evaluate q s :=
    .done (if q.listener.isSome then .ok {}
      else q.artifacts.toList.head?.elim (.ok {}) (fun a => answer a.identity), s)
  reportCycles _ := .done

/-- What lies on the top comes out well, what lies below it fails over a cycle, and what lies deeper by itself. -/
def byDepth (i : Artifact.Identity) : Except BuildError EvaluationResult :=
  match i.components with
  | [] | [_] => .ok {}
  | [_, _] => .ok { errors := [{ key := .artifact ⟨⟨"b"⟩, .derived⟩, cycles := [⟨[], []⟩] }] }
  | _ => .ok { errors := [{ key := .artifact ⟨⟨"c"⟩, .derived⟩, cause := some (.testFailed "c") }] }

/-- Exclusive artifacts of all kinds, one of them twice, in a round that keeps going. -/
def assorted : Launch Unit where
  host := { schedule := fun _ => [] }
  engine := answering byDepth
  setup := { options := ⟨true, 1, 1⟩, needsExecution := fun _ => true, fileCache := fun _ => none }
  order :=
    { requested := .empty, exclusive := [⟨⟨"a"⟩, .derived⟩, ⟨⟨"a/b"⟩, .derived⟩, ⟨⟨"a/b/c"⟩, .derived⟩,
        ⟨⟨"a/b"⟩, .derived⟩], context := ⟨⟨0⟩⟩, modified := .everything }
  built := .empty
  stage := { world := { signals := ⟨[false]⟩ }, engine := () }
  numbered := Bus.numbered_empty

theorem orders_agree_assorted :
    let artifacts : List Artifact :=
      [⟨⟨"a/b//c"⟩, .derived⟩, ⟨⟨"a/b"⟩, .derived⟩, ⟨⟨"a//b"⟩, .derived⟩, ⟨⟨"a"⟩, .derived⟩]
    (assorted.Steady fun a => byDepth a.identity) ∧
      (artifacts.map Artifact.identity).Perm (assorted.order.exclusive.map Artifact.identity) ∧
      assorted.outcome.toOption = none ∧ (assorted.reordered artifacts).outcome = assorted.outcome ∧
      assorted.cyclesReported.length = 3 ∧
      (assorted.reordered artifacts).cyclesReported.Perm assorted.cyclesReported := by
  intro artifacts
  have hsteady : assorted.Steady fun a => byDepth a.identity :=
    ⟨fun _ _ => rfl, fun _ _ => List.not_mem_nil⟩
  have hperm : (artifacts.map Artifact.identity).Perm (assorted.order.exclusive.map Artifact.identity) := by
    decide +kernel
  have hall : assorted.record.all (fun o => o.answer?.all Except.isOk) = true := by
    decide +kernel
  have hnone : ∀ x, .answered none (.error x) ∉ assorted.record :=
    fun x hx => nomatch List.all_eq_true.mp hall _ hx
  obtain ⟨-, -, hgoing⟩ := orders_agree assorted hsteady hperm
  obtain ⟨houtcome, hcycles, -⟩ := hgoing rfl (fun _ _ _ _ => trivial) hnone
  exact ⟨hsteady, hperm, by decide +kernel, houtcome, by decide +kernel, hcycles⟩

end Launch

end BuildRound
