import BuildRound.Proofs.Flow

/-!
# The course of the evaluations

What the record of a round looks like while it makes its evaluations one after another, and what comes of it:
before each of them it looks at its signal, after each it reports the failed nodes and judges. A `Course`
speaks of records only, so that the schedule of requests, the outcome and the calls are read off by induction
on it.
-/

namespace BuildRound

/-! ## Stretches without an evaluation -/

/-- Whether the round itself did this. -/
def Occurrence.isStep : Occurrence → Bool
  | .issued .. | .cancelled _ => false
  | _ => true

/-- An occurrence outside any evaluation. -/
def Occurrence.IsPlain : Occurrence → Prop
  | .called (.evaluate _) | .checked | .answered .. | .joined | .released => False
  | .issued l _ _ => l = none
  | _ => True

namespace Record

def steps (t : Record) : Record :=
  t.filter Occurrence.isStep

@[simp] theorem steps_append (t u : Record) : steps (t ++ u) = steps t ++ steps u :=
  List.filter_append ..

/-- A stretch without an evaluation, in which the round took just these steps. -/
structure Plain (t ms : Record) : Prop where
  steps : t.steps = ms
  plain : ∀ o ∈ t, o.IsPlain

theorem Plain.nil : Plain [] [] :=
  ⟨rfl, by simp⟩

theorem Plain.append {t u ms ns : Record} (ht : t.Plain ms) (hu : u.Plain ns) : (t ++ u).Plain (ms ++ ns) :=
  ⟨by rw [steps_append, ht.steps, hu.steps], fun o ho => (List.mem_append.mp ho).elim (ht.plain o) (hu.plain o)⟩

theorem Beside.steps {l : Option Nat} {t : Record} (h : t.Beside l) : t.steps = [] := by
  refine List.filter_eq_nil_iff.mpr (fun o ho => ?_)
  have := h o ho
  cases o <;> simp_all [Occurrence.IsBeside, Occurrence.isStep]

theorem Beside.plain {t : Record} (h : t.Beside none) : t.Plain [] := by
  refine ⟨h.steps, fun o ho => ?_⟩
  have := h o ho
  cases o <;> simp_all [Occurrence.IsBeside, Occurrence.IsPlain]

theorem Noise.plain {t : Record} (h : t.Noise) : t.Plain [] :=
  (h.beside none).plain

theorem Plain.single {o : Occurrence} (ho : o.IsPlain) (hs : o.isStep = true) : Plain [o] [o] :=
  ⟨by simp [Record.steps, hs], by simpa using ho⟩

/-- A call that nobody listens to, by itself. -/
inductive Calls (call : Call) : Record → Prop
  | intro {n u : Record} (hn : n.Noise) (hu : u.Beside none) : Calls call (n ++ .called call :: u)

theorem Calls.plain {call : Call} {t : Record} (h : t.Calls call) (hc : (Occurrence.called call).IsPlain) :
    t.Plain [.called call] := by
  obtain ⟨hn, hu⟩ := h
  simpa using hn.plain.append ((Plain.single hc rfl).append hu.plain)

theorem Calls.append_noise {call : Call} {t n : Record} (h : t.Calls call) (hn : n.Noise) :
    (t ++ n).Calls call := by
  obtain ⟨hm, hu⟩ := h
  rw [List.append_assoc]
  exact .intro hm (hu.append (hn.beside none))

/-- One evaluation by itself: the call, what happens beside it, and the answer. -/
inductive Asks (q : Request) (a : Except BuildError EvaluationResult) : Record → Prop
  | intro {t u : Record} (ht : t.Noise) (hu : u.Beside q.listener) :
      Asks q a (t ++ .called (.evaluate q) :: (u ++ [.answered q.listener a]))

theorem Asks.after_noise {q : Request} {a : Except BuildError EvaluationResult} {n t : Record}
    (hn : n.Noise) (h : Asks q a t) : Asks q a (n ++ t) := by
  obtain ⟨ht, hu⟩ := h
  rw [← List.append_assoc]
  exact .intro (hn.append ht) hu

end Record

/-! ## Courses -/

/-- One evaluation of a round, from the look at the signal to the verdict, when the signals were `s`. -/
inductive Episode (keepGoing : Bool) (token : Token) (s : Signals) (q : Request) :
    Record → Except BuildError Bool → Prop
  | stopped {t : Record} (ht : t.Noise) (h : (s.after t).isCancelled token = true) :
      Episode keepGoing token s q (t ++ [.checked]) (.error .cancelled)
  | answered {t u v : Record} {a : Except BuildError EvaluationResult} {r : Except BuildError Bool}
      (ht : t.Noise) (h : (s.after t).isCancelled token = false) (hu : u.Asks q a)
      (hv : v.Plain ((reports a).map .called)) (hr : a.bind (·.verdict keepGoing) = r) :
      Episode keepGoing token s q (t ++ .checked :: (u ++ v)) r

/-- The evaluations that a round makes for these requests, until one of them ends it. -/
inductive Course (keepGoing : Bool) (token : Token) :
    Signals → List Request → Record → Except BuildError Bool → Prop
  | finished {s : Signals} {t : Record} (ht : t.Noise) : Course keepGoing token s [] t (.ok true)
  | ended {s : Signals} {q : Request} {qs : List Request} {t : Record} {e : BuildError}
      (h : Episode keepGoing token s q t (.error e)) : Course keepGoing token s (q :: qs) t (.error e)
  | passed {s : Signals} {q : Request} {qs : List Request} {t u : Record} {fine : Bool}
      {r : Except BuildError Bool} (h : Episode keepGoing token s q t (.ok fine))
      (hs : Course keepGoing token (s.after t) qs u r) :
      Course keepGoing token s (q :: qs) (t ++ u) (r.map (fine && ·))

/-- What a round does between starting its watchdog and cleaning up, and what it brings. -/
inductive Work (spawn : Except ErrorChain Unit) (keepGoing : Bool) (token : Token) (modified : ModifiedFiles)
    (s : Signals) (qs : List Request) : Record → Except BuildError Bool → Prop
  | unwatched {t : Record} {reason : ErrorChain} (hspawn : spawn = .error reason) (ht : t.Noise) :
      Work spawn keepGoing token modified s qs t (.error (Round.unwatched reason))
  | conflict {t : Record} {e : BuildError} (hspawn : spawn = .ok ())
      (ht : t.Plain [.called .findConflicts, .examined (.error e)]) :
      Work spawn keepGoing token modified s qs t (.error e)
  | evaluated {t u : Record} {r : Except BuildError Bool} (hspawn : spawn = .ok ())
      (ht : t.Plain [.called .findConflicts, .examined (.ok ()), .called (.informModified modified)])
      (hu : Course keepGoing token (s.after t) qs u r) :
      Work spawn keepGoing token modified s qs (t ++ u) r

/-! ## What happens in a course -/

variable {spawn : Except ErrorChain Unit} {keepGoing : Bool} {token : Token} {modified : ModifiedFiles} {s : Signals}
  {q : Request} {qs : List Request} {r : Except BuildError Bool}

/-- An occurrence of an evaluation of one of these requests, or outside any evaluation. -/
def Occurrence.IsOf (qs : List Request) (o : Occurrence) : Prop :=
  o.IsPlain ∨ o = .checked ∨ ∃ q ∈ qs, o = .called (.evaluate q) ∨ o.IsBeside q.listener ∨
    ∃ a, o = .answered q.listener a

theorem Occurrence.IsOf.mono {qs qs' : List Request} {o : Occurrence} (h : o.IsOf qs)
    (hqs : ∀ q ∈ qs, q ∈ qs') : o.IsOf qs' := by
  rcases h with h | h | ⟨q, hq, h⟩
  · exact .inl h
  · exact .inr (.inl h)
  · exact .inr (.inr ⟨q, hqs q hq, h⟩)

theorem Record.Asks.isOf {a : Except BuildError EvaluationResult} {t : Record} (h : t.Asks q a) :
    ∀ o ∈ t, o.IsOf [q] := by
  obtain ⟨ht, hu⟩ := h
  intro o ho
  simp only [List.mem_append, List.mem_cons] at ho
  rcases ho with ho | rfl | ho | rfl | ho
  · exact .inl (ht.plain.plain o ho)
  · exact .inr (.inr ⟨q, by simp, .inl rfl⟩)
  · exact .inr (.inr ⟨q, by simp, .inr (.inl (hu o ho))⟩)
  · exact .inr (.inr ⟨q, by simp, .inr (.inr ⟨a, rfl⟩)⟩)
  · simp at ho

theorem Episode.isOf {t : Record} (h : Episode keepGoing token s q t r) : ∀ o ∈ t, o.IsOf [q] := by
  intro o ho
  cases h with
  | stopped ht h =>
      rcases List.mem_append.mp ho with ho | ho
      · exact .inl (ht.plain.plain o ho)
      · exact .inr (.inl (List.mem_singleton.mp ho))
  | answered ht h hu hv hr =>
      simp only [List.mem_append, List.mem_cons] at ho
      rcases ho with ho | rfl | ho | ho
      · exact .inl (ht.plain.plain o ho)
      · exact .inr (.inl rfl)
      · exact hu.isOf o ho
      · exact .inl (hv.plain o ho)

theorem Course.isOf {t : Record} (h : Course keepGoing token s qs t r) : ∀ o ∈ t, o.IsOf qs := by
  induction h with
  | finished ht => exact fun o ho => .inl (ht.plain.plain o ho)
  | ended h => exact fun o ho => (h.isOf o ho).mono (by simp)
  | passed h hs ih =>
      intro o ho
      rcases List.mem_append.mp ho with ho | ho
      · exact (h.isOf o ho).mono (by simp)
      · exact (ih o ho).mono (fun q hq => List.mem_cons_of_mem _ hq)

/-! ## Cancellations in between -/

theorem Episode.after_noise {n t : Record} (hn : n.Noise) (h : Episode keepGoing token (s.after n) q t r) :
    Episode keepGoing token s q (n ++ t) r := by
  cases h with
  | stopped ht h =>
      rw [← List.append_assoc]
      exact .stopped (hn.append ht) (by rwa [Signals.after_append])
  | answered ht h hu hv hr =>
      rw [← List.append_assoc]
      exact .answered (hn.append ht) (by rwa [Signals.after_append]) hu hv hr

theorem Episode.append_noise {t n : Record} {fine : Bool} (h : Episode keepGoing token s q t (.ok fine))
    (hn : n.Noise) : Episode keepGoing token s q (t ++ n) (.ok fine) := by
  cases h with
  | answered ht h hu hv hr =>
      rw [List.append_assoc, List.cons_append, List.append_assoc]
      exact .answered ht h hu (by simpa using hv.append hn.plain) hr

theorem Course.after_noise {n t : Record} (hn : n.Noise) (h : Course keepGoing token (s.after n) qs t r) :
    Course keepGoing token s qs (n ++ t) r := by
  cases h with
  | finished ht => exact .finished (hn.append ht)
  | ended h => exact .ended (h.after_noise hn)
  | passed h hs =>
      rw [← List.append_assoc]
      exact .passed (h.after_noise hn) (by rwa [Signals.after_append])

theorem Work.after_noise {n t : Record} (hn : n.Noise)
    (h : Work spawn keepGoing token modified (s.after n) qs t r) :
    Work spawn keepGoing token modified s qs (n ++ t) r := by
  cases h with
  | unwatched hspawn ht => exact .unwatched hspawn (hn.append ht)
  | conflict hspawn ht => exact .conflict hspawn (hn.plain.append ht)
  | evaluated hspawn ht hu =>
      rw [← List.append_assoc]
      exact .evaluated hspawn (hn.plain.append ht) (by rwa [Signals.after_append])

end BuildRound
