import BuildRound.Proofs.Course

/-!
# The parts of a round

Each part of a round leads from one stage to the next by what it records. One lemma for each part says which
record that is and what the part answers; parts in sequence compose by `Act.Leads.bind` and
`Attempt.Leads.bind`.
-/

namespace BuildRound.Round

variable {σ α β : Type}

/-! ## Doing a part -/

/-- Do a part of a round on a stage. -/
def Act.on (part : Act σ α) (s : Stage σ) : α × Stage σ :=
  part s

theorem Attempt.on_bind (part : Attempt σ α) (rest : α → Attempt σ β) (s : Stage σ) :
    Act.on (part >>= rest).run s =
      match Act.on part.run s with
      | (.ok a, s') => Act.on (rest a).run s'
      | (.error e, s') => (.error e, s') := by
  have h : Act.on (part >>= rest).run s =
      Act.on (ExceptT.bindCont rest (Act.on part.run s).1) (Act.on part.run s).2 := rfl
  rw [h]
  rcases Act.on part.run s with ⟨_ | _, _⟩ <;> rfl

theorem on_lift (part : Act σ α) (s : Stage σ) :
    Act.on (lift part).run s = (.ok (part.on s).1, (part.on s).2) := rfl

theorem on_orFail (r : Except BuildError α) (s : Stage σ) : Act.on (orFail r).run s = (r, s) := rfl

/-- Doing this part on stage `s` records `t`, answers `a` and leads to stage `s'`. -/
structure Act.Leads (part : Act σ α) (s : Stage σ) (t : Record) (a : α) (s' : Stage σ) : Prop where
  eq : part.on s = (a, s')
  flow : s.world.Flow t s'.world

def Attempt.Leads (part : Attempt σ α) (s : Stage σ) (t : Record) (r : Except BuildError α)
    (s' : Stage σ) : Prop :=
  Act.Leads part.run s t r s'

theorem Act.Leads.bind {part : Act σ α} {rest : α → Act σ β} {s s' s'' : Stage σ} {t u : Record} {a : α}
    {b : β} (h : part.Leads s t a s') (k : (rest a).Leads s' u b s'') :
    (part >>= rest).Leads s (t ++ u) b s'' := by
  refine ⟨?_, h.flow.trans k.flow⟩
  have hrun : (part >>= rest).on s = (rest (part.on s).1).on (part.on s).2 := rfl
  rw [hrun, h.eq, k.eq]

theorem Act.Leads.pure (a : α) (s : Stage σ) : (Pure.pure a : Act σ α).Leads s [] a s :=
  ⟨rfl, .refl _⟩

theorem Attempt.Leads.bind {part : Attempt σ α} {rest : α → Attempt σ β} {s s' s'' : Stage σ}
    {t u : Record} {a : α} {r : Except BuildError β} (h : Attempt.Leads part s t (.ok a) s')
    (k : Attempt.Leads (rest a) s' u r s'') : Attempt.Leads (part >>= rest) s (t ++ u) r s'' := by
  show Act.Leads (part.run >>= ExceptT.bindCont rest) s (t ++ u) r s''
  exact Act.Leads.bind h k

theorem Attempt.Leads.bind_error {part : Attempt σ α} {rest : α → Attempt σ β} {s s' : Stage σ}
    {t : Record} {e : BuildError} (h : Attempt.Leads part s t (.error e) s') :
    Attempt.Leads (part >>= rest) s t (.error e) s' := by
  have k : Act.Leads (part.run >>= ExceptT.bindCont rest) s (t ++ []) (.error e) s' :=
    Act.Leads.bind h (.pure _ s')
  rwa [List.append_nil] at k

theorem Attempt.Leads.cast {part : Attempt σ α} {s s' : Stage σ} {t u : Record} {r : Except BuildError α}
    (h : Attempt.Leads part s t r s') (htu : t = u) : Attempt.Leads part s u r s' :=
  htu ▸ h

theorem Attempt.Leads.pure (a : α) (s : Stage σ) :
    Attempt.Leads (Pure.pure a : Attempt σ α) s [] (.ok a) s :=
  Act.Leads.pure _ _

theorem Act.Leads.lift {part : Act σ α} {s s' : Stage σ} {t : Record} {a : α} (h : part.Leads s t a s') :
    Attempt.Leads (lift part) s t (.ok a) s' := by
  have k : Act.Leads (part >>= fun a => (Pure.pure (Except.ok a) : Act σ (Except BuildError α))) s
      (t ++ []) (.ok a) s' := Act.Leads.bind h (Act.Leads.pure (Except.ok a) s')
  rwa [List.append_nil] at k

theorem orFail_leads (r : Except BuildError α) (s : Stage σ) : Attempt.Leads (orFail r) s [] r s :=
  Act.Leads.pure _ _

/-! ## Steps and calls -/

abbrev Stage.inWorld (s : Stage σ) (w : World) : Stage σ :=
  { s with world := w }

theorem act_on (host : Host) (f : World → α × World) (s : Stage σ) :
    ∃ (n : Record) (w : World), n.Noise ∧ s.world.Flow n w ∧
      (act host f).on s = ((f w).1, s.inWorld (f w).2) := by
  obtain ⟨n, hn, h⟩ := World.turn_flow host.schedule s.world
  exact ⟨n, _, hn, h, rfl⟩

theorem act_leads (host : Host) (f : World → α) (s : Stage σ) :
    ∃ (n : Record) (w : World), n.Noise ∧
      (act host (fun w => (f w, w))).Leads s n (f w) (s.inWorld w) := by
  obtain ⟨n, w, hn, h, heq⟩ := act_on host (fun w => (f w, w)) s
  exact ⟨n, w, hn, heq, h⟩

/-- A step that changes nothing the trace tells of. -/
theorem change_leads (host : Host) {f : World → World} (hf : ∀ w : World, w.Flow [] (f w)) (s : Stage σ) :
    ∃ (n : Record) (s' : Stage σ), n.Noise ∧ (change host f).Leads s n () s' := by
  obtain ⟨n, w, hn, h, heq⟩ := act_on host (fun w => ((), f w)) s
  exact ⟨n, _, hn, heq, by simpa using h.trans (hf w)⟩

theorem say_leads (host : Host) (entries : List Log.Entry) (s : Stage σ) :
    ∃ (n : Record) (s' : Stage σ), n.Noise ∧ (say host entries).Leads s n () s' :=
  change_leads host (f := (·.say .caller entries)) (fun _ => .of_eq rfl rfl rfl rfl rfl (.refl _)) s

theorem note_leads (host : Host) {o : Occurrence} (ho : o.IsInert) (a : World → α) (s : Stage σ) :
    ∃ (n : Record) (w : World), n.Noise ∧ s.world.Flow n w ∧
      (act host (fun w => (a w, w.note o))).Leads s (n ++ [o]) (a w) (s.inWorld (w.note o)) := by
  obtain ⟨n, w, hn, h, heq⟩ := act_on host (fun w => (a w, w.note o)) s
  exact ⟨n, w, hn, h, heq, h.trans (.note ho w)⟩

theorem ask_leads (host : Host) (call : Call) (program : σ → Program (α × σ)) (s : Stage σ) :
    ∃ (n u : Record) (a : α) (s' : Stage σ), n.Noise ∧ u.Beside call.listener ∧
      (ask host call program).Leads s (n ++ .called call :: u) a s' := by
  obtain ⟨n, hn, h⟩ := World.turn_flow host.schedule s.world
  obtain ⟨u, hu, k⟩ := (program s.engine).run_flow host.schedule call.listener
    ((s.world.turn host.schedule).note (.called call))
  have hnote := World.Flow.note (o := .called call) trivial (s.world.turn host.schedule)
  exact ⟨n, u, _, _, hn, hu, rfl, h.trans (hnote.trans k)⟩

theorem ask_calls (host : Host) (call : Call) (hc : (Occurrence.called call).IsPlain)
    (program : σ → Program (α × σ)) (s : Stage σ) :
    ∃ (t : Record) (a : α) (s' : Stage σ), t.Calls call ∧ (ask host call program).Leads s t a s' := by
  obtain ⟨n, u, a, s', hn, hu, h⟩ := ask_leads host call program s
  have hl : call.listener = none := by
    cases call <;> first | rfl | exact hc.elim
  exact ⟨_, a, s', .intro hn (hl ▸ hu), h⟩

theorem ask_plain (host : Host) (call : Call) (hc : (Occurrence.called call).IsPlain)
    (program : σ → Program (α × σ)) (s : Stage σ) :
    ∃ (t : Record) (a : α) (s' : Stage σ), t.Plain [.called call] ∧
      (ask host call program).Leads s t a s' := by
  obtain ⟨t, a, s', ht, h⟩ := ask_calls host call hc program s
  exact ⟨t, a, s', ht.plain hc, h⟩

theorem tell_calls (host : Host) (call : Call) (hc : (Occurrence.called call).IsPlain)
    (program : σ → Program σ) (s : Stage σ) :
    ∃ (t : Record) (s' : Stage σ), t.Calls call ∧ (tell host call program).Leads s t () s' := by
  obtain ⟨t, _, s', ht, h⟩ := ask_calls host call hc _ s
  exact ⟨t, s', ht, h⟩

theorem tell_plain (host : Host) (call : Call) (hc : (Occurrence.called call).IsPlain)
    (program : σ → Program σ) (s : Stage σ) :
    ∃ (t : Record) (s' : Stage σ), t.Plain [.called call] ∧ (tell host call program).Leads s t () s' := by
  obtain ⟨t, s', ht, h⟩ := tell_calls host call hc program s
  exact ⟨t, s', ht.plain hc, h⟩

/-! ## One evaluation -/

theorem checkCancelled_leads (host : Host) (order : Order) (s : Stage σ) :
    ∃ (n : Record) (s' : Stage σ), n.Noise ∧
      Attempt.Leads (checkCancelled host order) s (n ++ [.checked])
        ((s.world.signals.after n).check order.context.cancellation) s' := by
  obtain ⟨n, w, hn, hw, h⟩ := note_leads host (o := .checked) trivial
    (fun w => w.signals.check order.context.cancellation) s
  have k := Attempt.Leads.bind h.lift (orFail_leads _ _)
  rw [List.append_nil, hw.signals] at k
  exact ⟨n, _, hn, k⟩

@[simp] theorem request_listener (setup : Setup) (order : Order) (artifacts : ArtifactSet)
    (l : Option Nat) : (request setup order artifacts l).listener = l := rfl

/-- The answer of an evaluation is noted in a world of its own, before anybody acts on it. -/
theorem evaluate_on (host : Host) (engine : Engine σ) (q : Request) (s : Stage σ) :
    ∃ (t u : Record) (w : World) (a : Except BuildError EvaluationResult) (s' : Stage σ),
      t.Noise ∧ u.Beside q.listener ∧ s.world.Flow (t ++ .called (.evaluate q) :: u) w ∧
      s'.world = w.note (.answered q.listener a) ∧ Act.on (evaluate host engine q).run s = (a, s') := by
  obtain ⟨t, u, a, s₁, ht, hu, h⟩ := ask_leads host (.evaluate q) (engine.evaluate q) s
  obtain ⟨n, w, hn, hw, hon⟩ := act_on host (fun w => ((), w.note (.answered q.listener a))) s₁
  refine ⟨t, u ++ n, w, a, s₁.inWorld (w.note (.answered q.listener a)), ht, hu.append (hn.beside _), ?_, rfl, ?_⟩
  · simpa using h.flow.trans hw
  · simp only [evaluate, change, Attempt.on_bind, on_lift, on_orFail, h.eq, hon]

/-- A part that makes just this evaluation. -/
def Evaluates (part : Attempt σ EvaluationResult) (q : Request) : Prop :=
  ∀ s : Stage σ, ∃ (t n : Record) (a : Except BuildError EvaluationResult) (s' : Stage σ),
    t.Asks q a ∧ n.Noise ∧ Attempt.Leads part s (t ++ n) a s'

theorem evaluateMain_evaluates (host : Host) (engine : Engine σ) (setup : Setup) (order : Order)
    (progress : Nat) : Evaluates (evaluateMain host engine setup order progress)
      (request setup order order.requested (some progress)) := by
  intro s
  obtain ⟨t, u, w, a, s₁, ht, hu, hw, hnote, hon⟩ :=
    evaluate_on host engine (request setup order order.requested (some progress)) s
  cases a with
  | error e =>
      refine ⟨_, [], .error e, s₁, .intro ht hu, by simp [Record.Noise], ?_, ?_⟩
      · simp only [evaluateMain, Attempt.on_bind, hon]
      · rw [hnote]
        simpa using hw.trans (.note (o := .answered (some progress) (.error e)) trivial w)
  | ok result =>
      obtain ⟨n, w', hn, hw', hon'⟩ := act_on host (fun w => ((), w.onProgress progress
        (fun p => { p with built := p.built.extend result.values }))) s₁
      refine ⟨_, n, .ok result, s₁.inWorld (w'.onProgress progress
        (fun p => { p with built := p.built.extend result.values })), .intro ht hu, hn, ?_, ?_⟩
      · simp only [evaluateMain, change, Attempt.on_bind, hon, on_lift, hon']
        rfl
      · have k := hw.takeIn hn (hnote ▸ hw')
        simpa using k

theorem evaluateAlone_evaluates (host : Host) (engine : Engine σ) (setup : Setup) (order : Order)
    (artifact : Artifact) : Evaluates (evaluateAlone host engine setup order artifact)
      (request setup order (.ofList [artifact]) none) := by
  intro s
  obtain ⟨n, s₀, hn, h₀⟩ := say_leads host
    [.event .info "building exclusively" [("artifact", artifact.text)]] s
  obtain ⟨t, u, w, a, s₁, ht, hu, hw, hnote, hon⟩ :=
    evaluate_on host engine (request setup order (.ofList [artifact]) none) s₀
  refine ⟨_, [], a, s₁, Record.Asks.after_noise hn (.intro ht hu), by simp [Record.Noise], ?_, ?_⟩
  · simp only [evaluateAlone, Attempt.on_bind, on_lift, h₀.eq, hon]
  · have k := hw.trans (.note (o := .answered none a) trivial w)
    rw [hnote]
    simpa using h₀.flow.trans k

/-! ## Judging -/

theorem reportCycles_leads (host : Host) (engine : Engine σ) (reports : List EvaluationResult.CycleReport)
    (s : Stage σ) : ∃ (t : Record) (s' : Stage σ), t.Plain (reports.map (.called <| .reportCycles ·)) ∧
      (reportCycles host engine reports).Leads s t () s' := by
  induction reports generalizing s with
  | nil => exact ⟨[], s, .nil, .pure () s⟩
  | cons report rest ih =>
      obtain ⟨t, s₁, ht, h⟩ := tell_plain host (.reportCycles report) trivial
        (engine.reportCycles report) s
      obtain ⟨u, s₂, hu, k⟩ := ih s₁
      exact ⟨t ++ u, s₂, ht.append hu, h.bind k⟩

theorem judge_leads (host : Host) (engine : Engine σ) (setup : Setup) (result : EvaluationResult)
    (s : Stage σ) : ∃ (t : Record) (s' : Stage σ),
      t.Plain ((reports (.ok result)).map .called) ∧
      Attempt.Leads (judge host engine setup result) s t (result.verdict setup.options.keepGoing) s' := by
  obtain ⟨t, s₁, ht, h⟩ := reportCycles_leads host engine result.cycleReports s
  obtain ⟨n, s₂, hn, k⟩ := say_leads host (result.verdictLog setup.options.keepGoing) s₁
  refine ⟨t ++ (n ++ []), s₂, ?_, h.lift.bind (k.lift.bind (orFail_leads _ _))⟩
  simpa [reports, Function.comp_def] using ht.append hn.plain

/-! ## Evaluations one after another -/

theorem episode_leads {host : Host} {engine : Engine σ} {setup : Setup} {order : Order}
    {part : Attempt σ EvaluationResult} {q : Request} (hpart : Evaluates part q) (s : Stage σ) :
    ∃ (t : Record) (r : Except BuildError Bool) (s' : Stage σ),
      Episode setup.options.keepGoing order.context.cancellation s.world.signals q t r ∧
      Attempt.Leads (episode host engine setup order part) s t r s' := by
  unfold episode
  obtain ⟨n, s₁, hn, h₁⟩ := checkCancelled_leads host order s
  cases hc : (s.world.signals.after n).isCancelled order.context.cancellation with
  | true =>
      simp only [Signals.check, hc, ↓reduceIte] at h₁
      exact ⟨_, _, s₁, .stopped hn hc, h₁.bind_error⟩
  | false =>
      simp only [Signals.check, hc, Bool.false_eq_true, ↓reduceIte] at h₁
      obtain ⟨t, m, a, s₂, ht, hm, h₂⟩ := hpart s₁
      cases a with
      | error e =>
          refine ⟨_, _, s₂, .answered (v := m) hn hc ht hm.plain rfl, ?_⟩
          exact .cast (h₁.bind h₂.bind_error) (by simp)
      | ok result =>
          obtain ⟨v, s₃, hv, h₃⟩ := judge_leads host engine setup result s₂
          refine ⟨_, _, s₃, .answered (v := m ++ v) hn hc ht ?_ rfl, ?_⟩
          · simpa using hm.plain.append hv
          · exact .cast (h₁.bind (h₂.bind h₃)) (by simp)

theorem buildMain_leads (host : Host) (engine : Engine σ) (setup : Setup) (order : Order) (progress : Nat)
    (s : Stage σ) : ∃ (t : Record) (r : Except BuildError Bool) (s' : Stage σ),
      Episode setup.options.keepGoing order.context.cancellation s.world.signals
        (request setup order order.requested (some progress)) t r ∧
      Attempt.Leads (buildMain host engine setup order progress) s t r s' := by
  unfold buildMain
  obtain ⟨t, r, s₁, ht, h⟩ := episode_leads (evaluateMain_evaluates host engine setup order progress) s
  cases r with
  | error e => exact ⟨t, _, s₁, ht, h.bind_error⟩
  | ok success =>
      obtain ⟨m, w, hm, h₁⟩ := act_leads host (·.readProgress progress (·.completedCount) 0) s₁
      obtain ⟨n, w', hn, h₂⟩ := act_leads host (·.readProgress progress (·.enqueuedCount) 0) (s₁.inWorld w)
      obtain ⟨o, s₄, ho, h₃⟩ := say_leads host _ (s₁.inWorld w')
      refine ⟨_, _, s₄, ht.append_noise (hm.append (hn.append ho)), ?_⟩
      exact .cast (h.bind (h₁.lift.bind (h₂.lift.bind (h₃.lift.bind (.pure success s₄))))) (by simp)

def exclusiveRequests (setup : Setup) (order : Order) (artifacts : List Artifact) : List Request :=
  artifacts.map (fun a => request setup order (.ofList [a]) none)

/-- What a round asks for if nothing ends it early. -/
def requests (setup : Setup) (order : Order) (progress : Nat) : List Request :=
  request setup order order.requested (some progress) :: exclusiveRequests setup order order.exclusive

/-- The loop over the exclusive artifacts takes their course; `success` is what came before. -/
theorem buildExclusive_leads (host : Host) (engine : Engine σ) (setup : Setup) (order : Order)
    (artifacts : List Artifact) (success : Bool) (s : Stage σ) :
    ∃ (t : Record) (r : Except BuildError Bool) (s' : Stage σ),
      Course setup.options.keepGoing order.context.cancellation s.world.signals
        (exclusiveRequests setup order artifacts) t r ∧
      Attempt.Leads (buildExclusive host engine setup order artifacts success) s t (r.map (· && success)) s' := by
  induction artifacts generalizing success s with
  | nil => exact ⟨[], _, s, .finished (by simp [Record.Noise]), .pure success s⟩
  | cons artifact rest ih =>
      unfold buildExclusive
      obtain ⟨t, r, s₁, ht, h⟩ := episode_leads (evaluateAlone_evaluates host engine setup order artifact) s
      cases r with
      | error e => exact ⟨t, _, s₁, .ended ht, h.bind_error⟩
      | ok fine =>
          obtain ⟨u, r', s₂, hu, k⟩ := ih (fine && success) s₁
          rw [h.flow.signals] at hu
          refine ⟨t ++ u, _, s₂, .passed ht hu, ?_⟩
          have hr : (r'.map (fine && ·)).map (· && success) = r'.map (· && (fine && success)) := by
            cases r' <;> simp [Except.map, Bool.and_assoc, Bool.and_left_comm]
          exact hr ▸ h.bind k

/-! ## Building -/

theorem survey_leads (host : Host) (engine : Engine σ) (order : Order) (s : Stage σ) :
    ∃ (t : Record) (r : Except BuildError Unit) (s' : Stage σ),
      t.Plain (.called .findConflicts :: .examined r ::
        r.toOption.toList.map (fun _ => .called (.informModified order.modified))) ∧
      Attempt.Leads (survey host engine order) s t r s' := by
  unfold survey
  obtain ⟨t, r, s₁, ht, h₁⟩ := ask_plain host .findConflicts trivial engine.findConflicts s
  obtain ⟨n, w, hn, -, h₂⟩ := note_leads host (o := .examined r) trivial (fun _ => ()) s₁
  have hexamined := ht.append (hn.plain.append (Record.Plain.single (o := .examined r) trivial rfl))
  cases r with
  | error e =>
      refine ⟨_, .error e, s₁.inWorld (w.note (.examined (.error e))), hexamined, ?_⟩
      exact .cast (h₁.lift.bind (h₂.lift.bind (orFail_leads (.error e) _).bind_error)) (by simp)
  | ok a =>
      obtain ⟨u, s₃, hu, h₃⟩ := tell_plain host (.informModified order.modified) trivial
        (engine.informModified order.modified) (s₁.inWorld (w.note (.examined (.ok a))))
      refine ⟨_, .ok a, s₃, hexamined.append hu, ?_⟩
      exact .cast (h₁.lift.bind (h₂.lift.bind ((orFail_leads (.ok a) _).bind h₃.lift))) (by simp)

theorem build_leads (host : Host) (engine : Engine σ) (setup : Setup) (order : Order) (progress : Nat)
    (s : Stage σ) : ∃ (t : Record) (r : Except BuildError Bool) (s' : Stage σ),
      Work (.ok ()) setup.options.keepGoing order.context.cancellation order.modified s.world.signals
        (requests setup order progress) t r ∧
      Attempt.Leads (build host engine setup order progress) s t r s' := by
  unfold build
  obtain ⟨t, r, s₁, ht, h₁⟩ := survey_leads host engine order s
  cases r with
  | error e => exact ⟨t, _, s₁, .conflict rfl ht, h₁.bind_error⟩
  | ok a =>
      obtain ⟨u, r, s₂, hu, h₂⟩ := buildMain_leads host engine setup order progress s₁
      rw [h₁.flow.signals] at hu
      cases r with
      | error e => exact ⟨t ++ u, _, s₂, .evaluated rfl ht (.ended hu), h₁.bind h₂.bind_error⟩
      | ok success =>
          cases hexclusive : order.exclusive with
          | nil =>
              have hcourse := Course.passed hu (.finished (t := []) (by simp [Record.Noise]))
              refine ⟨t ++ (u ++ []), .ok success, s₂, .evaluated rfl ht ?_, ?_⟩
              · simpa [requests, exclusiveRequests, hexclusive, Except.map] using hcourse
              · exact h₁.bind (h₂.bind (.pure success s₂))
          | cons artifact rest =>
              obtain ⟨n, s₃, hn, h₃⟩ := change_leads host
                (f := fun w => { w with watch := { w.watch with exclusive := true } })
                (fun _ => .of_eq rfl rfl rfl rfl rfl ⟨rfl, rfl, rfl, rfl, id⟩) s₂
              obtain ⟨v, r, s₄, hv, h₄⟩ := buildExclusive_leads host engine setup order (artifact :: rest)
                success s₃
              rw [h₃.flow.signals, h₂.flow.signals, h₁.flow.signals] at hv
              have hr : r.map (success && ·) = r.map (· && success) := by
                cases r <;> simp [Except.map, Bool.and_comm]
              rw [← hexclusive] at hv
              refine ⟨_, _, s₄, .evaluated rfl ht (.passed hu (hv.after_noise hn)), ?_⟩
              exact hr ▸ h₁.bind (h₂.bind (h₃.lift.bind h₄))

end BuildRound.Round
