import BuildRound.Proofs.Course

/-!
# Reading a record

What the stretches of a round contribute to its calls, its evaluations and its looks at the signal. The schedule
of a course follows by induction on the course.
-/

namespace BuildRound

/-! ## Verdicts -/

theorem EvaluationResult.verdict_eq_ok {r : EvaluationResult} {keepGoing fine : Bool} :
    r.verdict keepGoing = .ok fine ↔ fine = !r.hasError ∧ (r.hasError = true → keepGoing = true) := by
  unfold verdict hasError
  cases hr : r.errors with
  | nil => simp [eq_comm]
  | cons first rest =>
      cases keepGoing with
      | true => simp [eq_comm]
      | false =>
          simp only [Bool.false_eq_true, ↓reduceIte]
          split
          · simp
          · split <;> simp

theorem EvaluationResult.verdict_ne_cancelled (r : EvaluationResult) (keepGoing : Bool) :
    r.verdict keepGoing ≠ .error .cancelled := by
  unfold verdict
  cases r.errors with
  | nil => simp
  | cons first rest =>
      simp only
      split
      · simp
      · split
        · simp
        · split
          · rename_i cause _
            cases cause <;> simp [Cause.toBuildError]
          · simp [unexplained]

/-- What an evaluation means for the round. -/
def Exchange.verdict (keepGoing : Bool) (e : Exchange) : Except BuildError Bool :=
  e.answer.bind (·.verdict keepGoing)

/-- Whether the round goes on after an evaluation. -/
def Exchange.Passes (keepGoing : Bool) (e : Exchange) : Prop :=
  ∃ r, e.answer = .ok r ∧ (r.hasError = true → keepGoing = true)

theorem Exchange.verdict_eq_ok {keepGoing fine : Bool} {e : Exchange} :
    e.verdict keepGoing = .ok fine ↔
      ∃ r, e.answer = .ok r ∧ fine = !r.hasError ∧ (r.hasError = true → keepGoing = true) := by
  unfold verdict
  cases e.answer with
  | error x => simp [Except.bind]
  | ok r => simp [Except.bind, EvaluationResult.verdict_eq_ok]

theorem Exchange.passes_iff {keepGoing : Bool} {e : Exchange} :
    e.Passes keepGoing ↔ ∃ fine, e.verdict keepGoing = .ok fine := by
  constructor
  · rintro ⟨r, hr, h⟩
    exact ⟨!r.hasError, verdict_eq_ok.mpr ⟨r, hr, rfl, h⟩⟩
  · rintro ⟨fine, h⟩
    obtain ⟨r, hr, -, hgo⟩ := verdict_eq_ok.mp h
    exact ⟨r, hr, hgo⟩

/-! ## Outside the evaluations -/

structure Occurrence.IsIdle (o : Occurrence) : Prop where
  not_asked : o.request? = none
  not_answered : o.answer? = none
  not_looked : o ≠ .checked

namespace Record

@[simp] theorem calls_steps (t : Record) : calls (steps t) = calls t := by
  induction t with
  | nil => rfl
  | cons o t ih =>
      cases ho : o.isStep with
      | true => simp [steps, ho] at ih ⊢; rw [ih]
      | false =>
          have hcall : o.call? = none := by cases o <;> first | rfl | simp [Occurrence.isStep] at ho
          simp [steps, ho, hcall] at ih ⊢
          rw [ih]

theorem Plain.calls {t ms : Record} (h : t.Plain ms) : Record.calls t = Record.calls ms := by
  rw [← calls_steps t, h.steps]

theorem Plain.idle {t ms : Record} (h : t.Plain ms) : ∀ o ∈ t, o.IsIdle := by
  intro o ho
  have hplain := h.plain o ho
  cases o with
  | called call => cases call <;> first | exact hplain.elim | exact ⟨rfl, rfl, by simp⟩
  | checked | answered l a => exact hplain.elim
  | _ => exact ⟨rfl, rfl, by simp⟩

theorem Plain.exchanges_append {t ms : Record} (h : t.Plain ms) (u : Record) :
    exchanges (t ++ u) = exchanges u :=
  Record.exchanges_append (fun o ho => (h.idle o ho).not_asked) u

theorem Plain.exchanges {t ms : Record} (h : t.Plain ms) : Record.exchanges t = [] := by
  simpa using h.exchanges_append []

theorem Plain.looks {t ms : Record} (h : t.Plain ms) (token : Token) (s : Signals) :
    Record.looks token s t = [] :=
  looks_eq_nil (fun o ho => (h.idle o ho).not_looked) token s

theorem Beside.idle {l : Option Nat} {t : Record} (h : t.Beside l) : ∀ o ∈ t, o.IsIdle := by
  intro o ho
  have hbeside := h o ho
  cases o <;> first | exact hbeside.elim | exact ⟨rfl, rfl, by simp⟩

/-! ## One evaluation -/

theorem exchanges_asks {q : Request} {t u : Record} (ht : t.Noise) (hu : u.Beside q.listener)
    (a : Except BuildError EvaluationResult) (v : Record) :
    exchanges (t ++ .called (.evaluate q) :: (u ++ [.answered q.listener a]) ++ v) =
      ⟨q, u.filterMap Occurrence.heard?, a⟩ :: exchanges v := by
  rw [List.append_assoc, ht.plain.exchanges_append]
  simpa using exchanges_asked (fun o ho => ⟨(hu.idle o ho).not_asked, (hu.idle o ho).not_answered⟩) q
    q.listener a v

/-- An evaluation is one exchange, and the round does not look at its signal meanwhile. -/
theorem Asks.reads {q : Request} {a : Except BuildError EvaluationResult} {t : Record} (h : t.Asks q a)
    (token : Token) (s : Signals) :
    ∃ e : Exchange, e.request = q ∧ e.answer = a ∧ (∀ u, exchanges (t ++ u) = e :: exchanges u) ∧
      Record.calls t = [.evaluate q] ∧ Record.looks token s t = [] := by
  obtain ⟨ht, hu⟩ := h
  rename_i t u
  have hcalls : ∀ {l : Option Nat} {v : Record}, v.Beside l → Record.calls v = [] := by
    intro l v hv
    rw [← calls_steps, hv.steps]
    rfl
  refine ⟨⟨q, u.filterMap Occurrence.heard?, a⟩, rfl, rfl, exchanges_asks ht hu a, ?_, ?_⟩
  · simp [hcalls (ht.beside none), hcalls hu, Occurrence.call?]
  · refine looks_eq_nil (fun o ho => ?_) token s
    simp only [List.mem_append, List.mem_cons] at ho
    rcases ho with ho | rfl | ho | rfl | ho
    · exact (ht.plain.idle o ho).not_looked
    · simp
    · exact (hu.idle o ho).not_looked
    · simp
    · simp at ho

theorem Asks.exchanges_between {q : Request} {a : Except BuildError EvaluationResult} {n t v ms : Record}
    (h : t.Asks q a) (hn : n.Noise) (hv : v.Plain ms) :
    exchanges (n ++ .checked :: (t ++ v)) = exchanges t := by
  obtain ⟨e, -, -, hexchanges, -⟩ := h.reads ⟨0⟩ {}
  have hone := hexchanges []
  rw [List.append_nil] at hone
  rw [hn.plain.exchanges_append, hone]
  exact (hexchanges v).trans (congrArg (e :: ·) hv.exchanges)

end Record

variable {spawn : Except ErrorChain Unit} {keepGoing : Bool} {token : Token} {modified : ModifiedFiles} {s : Signals}
  {q : Request} {qs : List Request} {r : Except BuildError Bool}

theorem Episode.exchanges_append {t : Record} (h : Episode keepGoing token s q t r) (u : Record) :
    Record.exchanges (t ++ u) = t.exchanges ++ u.exchanges := by
  cases h with
  | stopped ht h =>
      rw [List.append_assoc, ht.plain.exchanges_append, ht.plain.exchanges_append]
      rfl
  | answered ht h hu hv hr =>
      rename_i n t v a
      obtain ⟨e, -, -, hexchanges, -⟩ := hu.reads token s
      have hone : ∀ w, Record.exchanges (n ++ .checked :: (t ++ (v ++ w))) = e :: w.exchanges := by
        intro w
        rw [ht.plain.exchanges_append, ← hv.exchanges_append w]
        exact hexchanges (v ++ w)
      have hwhole := hone []
      rw [List.append_nil] at hwhole
      rw [hwhole, List.append_assoc, List.cons_append, List.append_assoc, hone]
      rfl

/-- What one evaluation of a round contributes, by whether the signal stopped it. -/
theorem Episode.reads {t : Record} (h : Episode keepGoing token s q t r) :
    (r = .error .cancelled ∧ t.exchanges = [] ∧ t.calls = [] ∧ t.looks token s = [true]) ∨
      ∃ e : Exchange, e.request = q ∧ e.verdict keepGoing = r ∧ t.exchanges = [e] ∧ t.calls = e.calls ∧
        t.looks token s = [false] := by
  cases h with
  | stopped ht h =>
      refine .inl ⟨rfl, ?_, ?_, ?_⟩
      · rw [ht.plain.exchanges_append]
        rfl
      · simp [ht.plain.calls, Occurrence.call?]
      · simp [Record.looks_append, ht.plain.looks, Record.looks, h]
  | answered ht h hu hv hr =>
      rename_i n t v a
      obtain ⟨e, hq, ha, hexchanges, hcalls, hlooks⟩ := hu.reads token (s.after n)
      refine .inr ⟨e, hq, ?_, ?_, ?_, ?_⟩
      · rw [Exchange.verdict, ha, hr]
      · rw [hu.exchanges_between ht hv]
        simpa using hexchanges []
      · simp [ht.plain.calls, hcalls, hv.calls, Exchange.calls, hq, ha, Occurrence.call?]
      · simp [Record.looks_append, ht.plain.looks, Record.looks, h, hlooks, hv.looks]

/-! ## The schedule -/

/-- How evaluations were scheduled: which of the requests became exchanges, what the signal showed before each,
and what came of it. -/
inductive Schedule (keepGoing : Bool) :
    List Request → List Exchange → List Bool → Except BuildError Bool → Prop
  | finished : Schedule keepGoing [] [] [] (.ok true)
  | stopped {q : Request} {qs : List Request} : Schedule keepGoing (q :: qs) [] [true] (.error .cancelled)
  | ended {e : Exchange} {qs : List Request} {x : BuildError} (h : e.verdict keepGoing = .error x) :
      Schedule keepGoing (e.request :: qs) [e] [false] (.error x)
  | passed {e : Exchange} {qs : List Request} {es : List Exchange} {looks : List Bool} {fine : Bool}
      {r : Except BuildError Bool} (h : e.verdict keepGoing = .ok fine)
      (hs : Schedule keepGoing qs es looks r) :
      Schedule keepGoing (e.request :: qs) (e :: es) (false :: looks) (r.map (fine && ·))

theorem Course.exchanges_append {t : Record} (h : Course keepGoing token s qs t r) (u : Record) :
    Record.exchanges (t ++ u) = t.exchanges ++ u.exchanges := by
  induction h with
  | finished ht => rw [ht.plain.exchanges_append, ht.plain.exchanges, List.nil_append]
  | ended h => exact h.exchanges_append u
  | passed h hs ih =>
      rw [List.append_assoc, h.exchanges_append, ih, h.exchanges_append, List.append_assoc]

theorem Course.schedule {t : Record} (h : Course keepGoing token s qs t r) :
    Schedule keepGoing qs t.exchanges (t.looks token s) r ∧ t.calls = t.exchanges.flatMap Exchange.calls := by
  induction h with
  | finished ht =>
      rw [ht.plain.exchanges, ht.plain.looks, ht.plain.calls]
      exact ⟨.finished, rfl⟩
  | ended h =>
      rcases h.reads with ⟨hr, hexchanges, hcalls, hlooks⟩ | ⟨e, rfl, hr, hexchanges, hcalls, hlooks⟩
      · rw [hexchanges, hcalls, hlooks, hr]
        exact ⟨.stopped, rfl⟩
      · rw [hexchanges, hcalls, hlooks]
        exact ⟨.ended hr, by simp⟩
  | passed h hs ih =>
      rcases h.reads with ⟨hr, -⟩ | ⟨e, rfl, hr, hexchanges, hcalls, hlooks⟩
      · cases hr
      · rw [h.exchanges_append, hexchanges, Record.looks_append, hlooks, Record.calls_append, hcalls, ih.2]
        exact ⟨.passed hr ih.1, rfl⟩

theorem Work.exchanges_append {t : Record} (h : Work spawn keepGoing token modified s qs t r)
    (u : Record) : Record.exchanges (t ++ u) = t.exchanges ++ u.exchanges := by
  cases h with
  | unwatched hspawn ht => rw [ht.plain.exchanges_append, ht.plain.exchanges, List.nil_append]
  | conflict hspawn ht => rw [ht.exchanges_append, ht.exchanges, List.nil_append]
  | evaluated hspawn ht hu =>
      rw [List.append_assoc, ht.exchanges_append, hu.exchanges_append, ht.exchanges_append]

namespace Schedule

variable {es : List Exchange} {looks : List Bool}

theorem requests_ordered (h : Schedule keepGoing qs es looks r) : es.map (·.request) <+: qs := by
  induction h with
  | finished => exact List.prefix_rfl
  | stopped => exact List.nil_prefix
  | ended h => exact ⟨_, rfl⟩
  | passed h hs ih => exact List.cons_prefix_cons.mpr ⟨rfl, ih⟩

/-- A request is made just when all before it were made and passed, and the signal is not cancelled. -/
theorem made_iff (h : Schedule keepGoing qs es looks r) {k : Nat} (hk : k < qs.length) :
    k < es.length ↔
      (∀ j < k, ∃ e, es[j]? = some e ∧ e.Passes keepGoing) ∧ looks[k]? = some false := by
  induction h generalizing k with
  | finished => simp at hk
  | stopped =>
      cases k with
      | zero => simp
      | succ k => simp
  | ended h =>
      cases k with
      | zero => simp
      | succ k => simp
  | passed h hs ih =>
      cases k with
      | zero => simp
      | succ k =>
          have hk' := Nat.lt_of_succ_lt_succ hk
          constructor
          · intro hlt
            obtain ⟨hall, hlook⟩ := (ih hk').mp (Nat.lt_of_succ_lt_succ hlt)
            refine ⟨fun j hj => ?_, hlook⟩
            cases j with
            | zero => exact ⟨_, rfl, Exchange.passes_iff.mpr ⟨_, h⟩⟩
            | succ j => exact hall j (Nat.lt_of_succ_lt_succ hj)
          · rintro ⟨hall, hlook⟩
            exact Nat.succ_lt_succ ((ih hk').mpr ⟨fun j hj => hall (j + 1) (Nat.succ_lt_succ hj), hlook⟩)

theorem looked (h : Schedule keepGoing qs es looks r) {k : Nat} (hk : k < qs.length)
    (hes : ∀ j < k, ∃ e, es[j]? = some e ∧ e.Passes keepGoing) : looks[k]?.isSome = true := by
  induction h generalizing k with
  | finished => simp at hk
  | stopped =>
      cases k with
      | zero => rfl
      | succ k =>
          obtain ⟨e, he, -⟩ := hes 0 (Nat.succ_pos k)
          simp at he
  | ended h =>
      cases k with
      | zero => rfl
      | succ k =>
          obtain ⟨e, he, hpass⟩ := hes 0 (Nat.succ_pos k)
          obtain ⟨fine, hfine⟩ := Exchange.passes_iff.mp hpass
          cases he
          rw [hfine] at h
          cases h
  | passed h hs ih =>
      cases k with
      | zero => rfl
      | succ k =>
          exact ih (Nat.lt_of_succ_lt_succ hk) (fun j hj => hes (j + 1) (Nat.succ_lt_succ hj))

theorem cancelled_of_look (h : Schedule keepGoing qs es looks r) (hl : true ∈ looks) :
    r = .error .cancelled := by
  induction h with
  | finished => simp at hl
  | stopped => rfl
  | ended h => simp at hl
  | passed h hs ih => rw [ih (by simpa using hl)]; rfl

theorem error_of_verdict (h : Schedule keepGoing qs es looks r) {e : Exchange} (he : e ∈ es)
    {x : BuildError} (hx : e.verdict keepGoing = .error x) : r = .error x := by
  induction h with
  | finished => simp at he
  | stopped => simp at he
  | ended h =>
      rw [List.mem_singleton.mp he, h] at hx
      exact hx
  | passed h hs ih =>
      rcases List.mem_cons.mp he with rfl | he
      · rw [h] at hx
        cases hx
      · rw [ih he]
        rfl

theorem result_of_passes (h : Schedule keepGoing qs es looks r) (hl : true ∉ looks)
    (hes : ∀ e ∈ es, e.Passes keepGoing) : es.map (·.request) = qs ∧
      ∃ fine, r = .ok fine ∧ (fine = true ↔ ∀ e ∈ es, ∀ x, e.answer = .ok x → x.hasError = false) := by
  induction h with
  | finished => exact ⟨rfl, true, rfl, by simp⟩
  | stopped => simp at hl
  | ended h =>
      obtain ⟨fine, hfine⟩ := Exchange.passes_iff.mp (hes _ (List.mem_singleton_self _))
      rw [hfine] at h
      cases h
  | passed h hs ih =>
      rename_i e qs es looks fine r
      obtain ⟨hqs, fine', hr, hfine'⟩ := ih (fun hmem => hl (by simp [hmem])) (fun d hd => hes d (by simp [hd]))
      obtain ⟨x, hx, hfine, -⟩ := Exchange.verdict_eq_ok.mp h
      refine ⟨by simp [hqs], fine && fine', by rw [hr]; rfl, ?_⟩
      simp [hfine', hfine, hx]

end Schedule

theorem Work.requests_ordered {t : Record} (h : Work spawn keepGoing token modified s qs t r) :
    t.exchanges.map (·.request) <+: qs := by
  cases h with
  | unwatched hspawn ht => simp [ht.plain.exchanges]
  | conflict hspawn ht => simp [ht.exchanges]
  | evaluated hspawn ht hu =>
      rw [ht.exchanges_append]
      exact hu.schedule.1.requests_ordered

end BuildRound
