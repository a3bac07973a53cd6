import BuildRound.Proofs.Evaluations

/-!
# Cancelled rounds

Once the signal of a round is cancelled, the evaluation that is being made is the last one. The round then ends as
cancelled just when that evaluation itself says so or when another one would have followed: the signal is looked
at before evaluations and never after the last.
-/

namespace BuildRound

/-! ## Splitting at an answer -/

namespace Record

variable {t u before after : Record} {l : Option Nat} {a : Except BuildError EvaluationResult}

theorem split_right (h : t ++ u = before ++ .answered l a :: after) (ht : ∀ o ∈ t, o.answer? = none) :
    ∃ before', before = t ++ before' ∧ u = before' ++ .answered l a :: after := by
  rcases append_split h with ⟨rest, hrest, -⟩ | hright
  · cases ht (.answered l a) (by simp [hrest])
  · exact hright

theorem split_left (h : t ++ u = before ++ .answered l a :: after) (hu : ∀ o ∈ u, o.answer? = none) :
    ∃ after', t = before ++ .answered l a :: after' ∧ after = after' ++ u := by
  rcases append_split h with hleft | ⟨rest, -, hrest⟩
  · exact hleft
  · cases hu (.answered l a) (by simp [hrest])

/-- The split at the answer with this number in the record. -/
theorem exists_split {t : Record} {k : Nat} {p : Except BuildError EvaluationResult → Bool}
    (h : (t[k]?.bind Occurrence.answer?).any p = true) :
    ∃ l a, p a = true ∧ t = t.take k ++ .answered l a :: t.drop (k + 1) := by
  cases hk : t[k]? with
  | none => simp [hk] at h
  | some o =>
      cases o with
      | answered l a => exact ⟨l, a, by simpa [hk, Occurrence.answer?] using h, eq_take_cons_drop hk⟩
      | _ => simp [hk, Occurrence.answer?] at h

end Record

/-! ## One evaluation -/

variable {spawn : Except ErrorChain Unit} {keepGoing : Bool} {token : Token} {modified : ModifiedFiles} {s : Signals}
  {q : Request} {qs : List Request} {r : Except BuildError Bool}

/-- The answer of an evaluation is what the round judges, and nothing is asked for after it. -/
theorem Episode.answer_of_split {before after : Record} {l : Option Nat}
    {a : Except BuildError EvaluationResult}
    (h : Episode keepGoing token s q (before ++ .answered l a :: after) r) :
    a.bind (·.verdict keepGoing) = r ∧ ∀ o ∈ after, o.request? = none := by
  generalize hsplit : before ++ .answered l a :: after = t at h
  have hmem : .answered l a ∈ t := by simp [← hsplit]
  cases h with
  | stopped ht h =>
      rcases List.mem_append.mp hmem with hmem | hmem
      · exact (ht.plain.plain _ hmem).elim
      · simp at hmem
  | answered ht h hu hv hr =>
      obtain ⟨hn, hbeside⟩ := hu
      rename_i n v answer m w
      have hwhole : (n ++ .checked :: m ++ .called (.evaluate q) :: w) ++ (.answered q.listener answer :: v) =
          before ++ .answered l a :: after := by
        simp [hsplit]
      obtain ⟨before', -, hrest⟩ := Record.split_right hwhole (fun o ho => by
        simp only [List.mem_append, List.mem_cons] at ho
        rcases ho with (ho | rfl | ho) | rfl | ho
        · exact (ht.plain.idle o ho).not_answered
        · rfl
        · exact (hn.plain.idle o ho).not_answered
        · rfl
        · exact (hbeside.idle o ho).not_answered)
      cases before' with
      | nil =>
          obtain ⟨hanswer, hafter⟩ := List.cons.inj hrest
          cases hanswer
          exact ⟨hr, fun o ho => (hv.idle o (hafter ▸ ho)).not_asked⟩
      | cons o before' =>
          obtain ⟨-, hv'⟩ := List.cons.inj hrest
          exact (hv.plain (.answered l a) (by simp [hv'])).elim

/-! ## Courses -/

theorem Course.of_cancelled {t : Record} (h : Course keepGoing token s qs t r)
    (hs : s.isCancelled token = true) :
    (∀ o ∈ t, o.request? = none) ∧ t.exchanges = [] ∧
      r = if qs = [] then .ok true else .error .cancelled := by
  have hepisode : ∀ {q t r}, Episode keepGoing token s q t r →
      (∀ o ∈ t, o.request? = none) ∧ t.exchanges = [] ∧ r = .error .cancelled := by
    intro q t r h
    cases h with
    | stopped ht h =>
        refine ⟨fun o ho => ?_, ?_, rfl⟩
        · rcases List.mem_append.mp ho with ho | ho
          · exact (ht.plain.idle o ho).not_asked
          · rw [List.mem_singleton.mp ho]
            rfl
        · rw [ht.plain.exchanges_append]
          rfl
    | answered ht h hu hv hr => simp [Signals.isCancelled_after _ hs] at h
  cases h with
  | finished ht => exact ⟨fun o ho => (ht.plain.idle o ho).not_asked, ht.plain.exchanges, rfl⟩
  | ended h =>
      obtain ⟨hnone, hexchanges, hr⟩ := hepisode h
      exact ⟨hnone, hexchanges, hr⟩
  | passed h hs' =>
      obtain ⟨-, -, hr⟩ := hepisode h
      cases hr

/-- Once the signal is cancelled, the evaluation that is being made is the last one, and its answer and whether
another would have followed decide whether the course ends as cancelled. -/
theorem Course.cancelled_iff {t before after : Record} {l : Option Nat}
    {a : Except BuildError EvaluationResult} (h : Course keepGoing token s qs t r)
    (hsplit : t = before ++ .answered l a :: after) (hcancelled : (s.after before).isCancelled token = true) :
    (∀ o ∈ after, o.request? = none) ∧
      (r = .error .cancelled ↔ a = .error .cancelled ∨
        t.exchanges.length < qs.length ∧ ∃ x, a = .ok x ∧ (x.hasError = true → keepGoing = true)) := by
  induction h generalizing before after with
  | finished ht => exact (ht.plain.plain (.answered l a) (by simp [hsplit])).elim
  | ended h =>
      subst hsplit
      obtain ⟨ha, hafter⟩ := h.answer_of_split
      refine ⟨hafter, ?_⟩
      cases a with
      | error x =>
          cases ha
          simp
      | ok x =>
          have hx : x.verdict keepGoing = .error _ := ha
          constructor
          · intro hr
            rw [hr] at hx
            exact absurd hx (x.verdict_ne_cancelled keepGoing)
          · rintro (hr | ⟨-, y, hy, hgo⟩)
            · cases hr
            · cases hy
              rw [EvaluationResult.verdict_eq_ok.mpr ⟨rfl, hgo⟩] at hx
              cases hx
  | passed h hs ih =>
      rename_i s q qs t u fine r
      have hlength : (Record.exchanges (t ++ u)).length = u.exchanges.length + 1 := by
        rcases h.reads with ⟨hr, -⟩ | ⟨e, -, -, he, -⟩
        · cases hr
        · simp [h.exchanges_append, he, Nat.add_comm]
      have hmap : r.map (fine && ·) = .error .cancelled ↔ r = .error .cancelled := by
        cases r <;> simp [Except.map]
      rw [hlength, hmap, List.length_cons, Nat.add_lt_add_iff_right]
      rcases List.append_eq_append_iff.mp hsplit with ⟨before', rfl, hu⟩ | ⟨rest, hrest, hafter⟩
      -- The answer is that of a later evaluation.
      · exact ih hu (by rwa [← Signals.after_append])
      · cases rest with
        | nil =>
            rw [List.append_nil] at hrest
            subst hrest
            exact @ih [] after hafter.symm hcancelled
        | cons o rest =>
            -- The answer is that of this evaluation, so the rest of the course begins cancelled.
            obtain ⟨rfl, htail⟩ := List.cons.inj hafter
            subst hrest
            obtain ⟨ha, hnone⟩ := h.answer_of_split
            have hcancelled' : (s.after (before ++ .answered l a :: rest)).isCancelled token = true := by
              rw [Signals.after_append]
              exact Signals.isCancelled_after _ hcancelled
            obtain ⟨hnone', hexchanges, hr⟩ := hs.of_cancelled hcancelled'
            refine ⟨fun o ho => ?_, ?_⟩
            · rw [htail] at ho
              exact (List.mem_append.mp ho).elim (hnone o) (hnone' o)
            · cases a with
              | error x => cases ha
              | ok x =>
                  obtain ⟨-, hgo⟩ := EvaluationResult.verdict_eq_ok.mp ha
                  rw [hr, hexchanges]
                  cases qs with
                  | nil => simp
                  | cons q qs => simpa using hgo

theorem Work.cancelled_iff {t before after : Record} {l : Option Nat}
    {a : Except BuildError EvaluationResult} (h : Work spawn keepGoing token modified s qs t r)
    (hsplit : t = before ++ .answered l a :: after) (hcancelled : (s.after before).isCancelled token = true) :
    (∀ o ∈ after, o.request? = none) ∧
      (r = .error .cancelled ↔ a = .error .cancelled ∨
        t.exchanges.length < qs.length ∧ ∃ x, a = .ok x ∧ (x.hasError = true → keepGoing = true)) := by
  have hmem : .answered l a ∈ t := by simp [hsplit]
  cases h with
  | unwatched hspawn ht => exact (ht.plain.plain _ hmem).elim
  | conflict hspawn ht => exact (ht.plain _ hmem).elim
  | evaluated hspawn ht hu =>
      obtain ⟨before', rfl, hsplit'⟩ := Record.split_right hsplit (fun o ho => (ht.idle o ho).not_answered)
      rw [ht.exchanges_append]
      exact hu.cancelled_iff hsplit' (by rwa [← Signals.after_append])

/-! ## The round -/

namespace Launch

variable {σ : Type}

theorem outcome_eq_cancelled : Round.outcome r = .error .cancelled ↔ r = .error .cancelled := by
  cases r with
  | error e => simp [Round.outcome]
  | ok fine => cases fine <;> simp [Round.outcome]

/-- When the signal of a round was cancelled by the time an evaluation answered, that evaluation was the last one,
and the round has cleaned up after it. It ends as cancelled just when the answer was that error itself, or the
round was to go on and another evaluation would have followed. -/
theorem cancelled_iff_of_answered (l : Launch σ) {before after : Record} {listener : Option Nat}
    {a : Except BuildError EvaluationResult} (hsplit : l.record = before ++ .answered listener a :: after)
    (hcancelled : (l.stage.world.signals.after before).isCancelled l.token = true) :
    (l.outcome = .error .cancelled ↔ a = .error .cancelled ∨
      l.evaluations.length < l.requests.length ∧
        ∃ result, a = .ok result ∧ (result.hasError = true → l.setup.options.keepGoing = true)) ∧
    (∀ o ∈ after, o.request? = none) ∧
    .called .detach ∈ after ∧ .released ∈ after ∧ l.world.watch.dog.isRunning = false := by
  cases hvalidate : l.setup.options.validate with
  | error e =>
      obtain ⟨-, -, hnoise, -⟩ := l.of_invalid hvalidate
      obtain ⟨token, htoken⟩ := hnoise (.answered listener a) (by simp [hsplit])
      cases htoken
  | ok valid =>
      obtain ⟨t, u, v, r, h⟩ := l.passage hvalidate
      rw [h.record] at hsplit
      obtain ⟨before, rfl, hrest⟩ :=
        Record.split_right hsplit (fun o ho => (h.opening.idle o ho).not_answered)
      obtain ⟨after, hu, rfl⟩ :=
        Record.split_left hrest (fun o ho => (h.closing.idle o ho).not_answered)
      obtain ⟨hnone, hiff⟩ := h.work.cancelled_iff hu (by rwa [← Signals.after_append])
      have hsteps := h.closing.steps
      have hdetach : .called .detach ∈ v.steps := by simp [hsteps]
      have hreleased : .released ∈ v.steps := by simp [hsteps]
      refine ⟨?_, fun o ho => ?_, ?_, ?_, h.stopped⟩
      · rw [h.outcome, outcome_eq_cancelled, h.evaluations]
        exact hiff
      · exact (List.mem_append.mp ho).elim (hnone o) (fun ho => (h.closing.idle o ho).not_asked)
      · simp [(List.mem_filter.mp hdetach).1]
      · simp [(List.mem_filter.mp hreleased).1]

theorem cancelled_iff_of_answered_cancelledBetween : ∃ before after listener a,
    cancelledBetween.record = before ++ .answered listener a :: after ∧
      (cancelledBetween.stage.world.signals.after before).isCancelled cancelledBetween.token = true ∧
      cancelledBetween.outcome = .error .cancelled := by
  obtain ⟨listener, a, ha, hsplit⟩ := Record.exists_split (t := cancelledBetween.record) (k := 9)
    (p := fun a => a.toOption.any (fun result => !result.hasError)) (by decide +kernel)
  have hcancelled : (cancelledBetween.stage.world.signals.after
      (cancelledBetween.record.take 9)).isCancelled cancelledBetween.token = true := by
    decide +kernel
  have hlength : cancelledBetween.evaluations.length < cancelledBetween.requests.length := by
    decide +kernel
  refine ⟨_, _, listener, a, hsplit, hcancelled, ?_⟩
  refine (cancelled_iff_of_answered cancelledBetween hsplit hcancelled).1.mpr (.inr ⟨hlength, ?_⟩)
  cases a with
  | error x => simp [Except.toOption] at ha
  | ok result => exact ⟨result, rfl, fun herror => by simp [Except.toOption, herror] at ha⟩

/-- A round that is cancelled during its only evaluation. -/
def cancelledLast : Launch Scripted :=
  scripted false [{ steps := [.cancel], answer := some (.ok {}) }] [] []

/-- Nobody looks at the signal after the last evaluation: the round succeeds although it was cancelled. -/
theorem succeeds_cancelledLast : ∃ before after listener a,
    cancelledLast.record = before ++ .answered listener a :: after ∧
      (cancelledLast.stage.world.signals.after before).isCancelled cancelledLast.token = true ∧
      cancelledLast.outcome = .ok () := by
  obtain ⟨listener, a, -, hsplit⟩ := Record.exists_split (t := cancelledLast.record) (k := 9)
    (p := fun _ => true) (by decide +kernel)
  have hcancelled : (cancelledLast.stage.world.signals.after
      (cancelledLast.record.take 9)).isCancelled cancelledLast.token = true := by
    decide +kernel
  refine ⟨_, _, listener, a, hsplit, hcancelled, ?_⟩
  have hok : cancelledLast.outcome.toBool = true := by decide +kernel
  cases houtcome : cancelledLast.outcome with
  | error e => simp [houtcome, Except.toBool] at hok
  | ok done => rfl

end Launch

end BuildRound
