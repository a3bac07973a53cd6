import BuildRound.Proofs.Bookkeeping
import BuildRound.Proofs.Evaluations

/-!
# The built set of a round

What the caller gets back is what it gave, what the main evaluation showed to its listener, and what it brought;
nothing else adds to it, and nothing is lost on any way out of the round.
-/

namespace BuildRound

/-! ## What a progress collects -/

namespace Progress

theorem contains_notice {i : Nat} {p : Progress} {o : Occurrence} {a : Artifact} :
    (p.notice i o).built.contains a = true ↔
      p.built.contains a = true ∨ o.Vouches i p.requested a := by
  cases o with
  | issued l c reply =>
      cases c with
      | notify n =>
          cases l with
          | none => simp [notice, Occurrence.Vouches]
          | some j => by_cases h : j = i <;> simp [notice, h, Occurrence.Vouches, contains_notify]
      | complete j action =>
          have hsame : (p.complete action).built = p.built := by
            unfold complete
            split <;> rfl
          by_cases h : j = i <;> simp [notice, h, Occurrence.Vouches, hsame]
      | _ => simp [notice, Occurrence.Vouches]
  | answered l answer =>
      cases l with
      | none => simp [notice, Occurrence.Vouches]
      | some j =>
          cases answer with
          | error e => simp [notice, Occurrence.Vouches]
          | ok result =>
              by_cases h : j = i <;> simp [notice, h, Occurrence.Vouches, ArtifactSet.contains_extend]
  | _ => simp [notice, Occurrence.Vouches]

/-- A progress has collected what it began with and what the record vouches for. -/
theorem contains_after {i : Nat} {p : Progress} {t : Record} {a : Artifact} :
    (p.after i t).built.contains a = true ↔
      p.built.contains a = true ∨ t.Vouches i p.requested a := by
  induction t generalizing p with
  | nil => simp
  | cons o t ih =>
      rw [after_cons, ih, contains_notice, requested_notice, Record.vouches_cons]
      simp [or_assoc]

end Progress

/-! ## What the evaluations vouch for -/

/-- Whether an evaluation with a listener shows or brings an artifact that was among those requested. -/
def Exchange.Brings (requested : ArtifactSet) (a : Artifact) (e : Exchange) : Prop :=
  (requested.contains a = true ∧ ∃ n ∈ e.heard, n.Shows a) ∨
    ∃ result, e.answer = .ok result ∧ ∃ b ∈ result.values, b.identity = a.identity

variable {spawn : Except ErrorChain Unit} {keepGoing : Bool} {token : Token} {modified : ModifiedFiles} {s : Signals}
  {q : Request} {qs : List Request} {r : Except BuildError Bool}
variable {i : Nat} {requested : ArtifactSet} {a : Artifact}

theorem Occurrence.IsOf.not_vouches {o : Occurrence} (h : o.IsOf qs) (hqs : ∀ q ∈ qs, q.listener = none) :
    ¬ o.Vouches i requested a := by
  intro hv
  rcases h with h | rfl | ⟨q, hq, h⟩
  · cases o with
    | issued l c reply =>
        cases h
        exact hv
    | answered l answer => exact h
    | _ => exact hv
  · exact hv
  · rw [hqs q hq] at h
    rcases h with rfl | h | ⟨answer, rfl⟩
    · exact hv
    · cases o with
      | issued l c reply =>
          cases h
          exact hv
      | cancelled => exact hv
      | _ => exact h
    · exact hv

theorem Record.Plain.not_vouches {t ms : Record} (h : t.Plain ms) : ¬ t.Vouches i requested a := by
  rintro ⟨o, ho, hv⟩
  have hof : o.IsOf [] := .inl (h.plain o ho)
  exact hof.not_vouches (by simp) hv

theorem Occurrence.heard?_eq_some {o : Occurrence} {n : Notification} :
    o.heard? = some n ↔ ∃ j reply, o = .issued (some j) (.notify n) reply := by
  constructor
  · intro h
    cases o with
    | issued l c reply =>
        cases l <;> cases c <;> simp_all [heard?]
    | _ => simp [heard?] at h
  · rintro ⟨j, reply, rfl⟩
    rfl

theorem Record.Asks.vouches_iff {answer : Except BuildError EvaluationResult} {t : Record}
    (h : t.Asks q answer) (hq : q.listener = some i) :
    t.Vouches i requested a ↔ ∃ e, t.exchanges = [e] ∧ e.Brings requested a := by
  obtain ⟨ht, hu⟩ := h
  rename_i t u
  have hexchanges := exchanges_asks ht hu answer []
  rw [List.append_nil] at hexchanges
  rw [hexchanges]
  constructor
  · rintro ⟨o, ho, hv⟩
    refine ⟨_, rfl, ?_⟩
    simp only [List.mem_append, List.mem_cons, List.not_mem_nil, or_false] at ho
    rcases ho with ho | rfl | ho | rfl
    · exact absurd ⟨o, ho, hv⟩ ht.plain.not_vouches
    · exact hv.elim
    · have hbeside := hu o ho
      cases o with
      | issued l c reply =>
          cases c with
          | notify n =>
              cases l with
              | none => exact hv.elim
              | some j =>
                  obtain ⟨-, hrequested, hshows⟩ := hv
                  exact .inl ⟨hrequested, n, List.mem_filterMap.mpr ⟨_, ho, rfl⟩, hshows⟩
          | _ => cases l <;> exact hv.elim
      | cancelled => exact hv.elim
      | _ => exact hbeside.elim
    · rw [hq] at hv
      cases answer with
      | error x => exact hv.elim
      | ok result => exact .inr ⟨result, rfl, hv.2⟩
  · rintro ⟨e, he, hbrings⟩
    obtain rfl := (List.cons.inj he).1
    rcases hbrings with ⟨hrequested, n, hn, hshows⟩ | ⟨result, rfl, hvalues⟩
    · obtain ⟨o, ho, hheard⟩ := List.mem_filterMap.mp hn
      obtain ⟨j, reply, rfl⟩ := Occurrence.heard?_eq_some.mp hheard
      have hj : some j = q.listener := hu _ ho
      rw [hq, Option.some.injEq] at hj
      exact ⟨.issued (some j) (.notify n) reply, by simp [ho], hj, hrequested, hshows⟩
    · refine ⟨.answered q.listener (.ok result), by simp, ?_⟩
      rw [hq]
      exact ⟨rfl, hvalues⟩

theorem Episode.vouches_iff {t : Record} (h : Episode keepGoing token s q t r) (hq : q.listener = some i) :
    t.Vouches i requested a ↔ ∃ e, t.exchanges = [e] ∧ e.Brings requested a := by
  cases h with
  | stopped ht h =>
      have hnil : Record.exchanges [.checked] = [] := rfl
      rw [ht.plain.exchanges_append, hnil]
      simp [ht.plain.not_vouches, Occurrence.Vouches]
  | answered ht h hu hv hr =>
      rw [hu.exchanges_between ht hv, ← hu.vouches_iff hq]
      simp [ht.plain.not_vouches, hv.not_vouches, Occurrence.Vouches]

/-- In a course only the first evaluation has a listener, and only it vouches for anything. -/
theorem Course.vouches_iff {t : Record} (h : Course keepGoing token s (q :: qs) t r)
    (hq : q.listener = some i) (hqs : ∀ q ∈ qs, q.listener = none) :
    t.Vouches i requested a ↔ ∃ e, t.exchanges.head? = some e ∧ e.Brings requested a := by
  cases h with
  | ended h =>
      rw [h.vouches_iff hq]
      rcases h.reads with ⟨-, he, -⟩ | ⟨e, -, -, he, -⟩ <;> simp [he]
  | passed h hs =>
      rename_i t u fine r
      have hu : ¬ u.Vouches i requested a := by
        rintro ⟨o, ho, hv⟩
        exact (hs.isOf o ho).not_vouches hqs hv
      rw [Record.vouches_append, or_iff_left hu, h.vouches_iff hq, h.exchanges_append]
      rcases h.reads with ⟨hr, -⟩ | ⟨e, -, -, he, -⟩
      · cases hr
      · simp [he]

theorem Work.vouches_iff {t : Record} (h : Work spawn keepGoing token modified s (q :: qs) t r)
    (hq : q.listener = some i) (hqs : ∀ q ∈ qs, q.listener = none) :
    t.Vouches i requested a ↔ ∃ e, t.exchanges.head? = some e ∧ e.Brings requested a := by
  cases h with
  | unwatched hspawn ht => simp [ht.plain.not_vouches, ht.plain.exchanges]
  | conflict hspawn ht => simp [ht.not_vouches, ht.exchanges]
  | evaluated hspawn ht hu =>
      rw [Record.vouches_append, or_iff_right ht.not_vouches, ht.exchanges_append]
      exact hu.vouches_iff hq hqs

/-! ## The built set -/

namespace Launch

variable {σ : Type}

/-- Whatever the engine does and however the round ends, the caller's set then holds what it held, the requested
artifacts that the main evaluation showed to its listener, and the values it brought. -/
theorem contains_returned (l : Launch σ) (hvalid : l.setup.options.validate = .ok ()) (a : Artifact) :
    l.returned.contains a = true ↔
      l.built.contains a = true ∨
        ∃ main, l.evaluations.head? = some main ∧
          main.request = Round.request l.setup l.order l.order.requested (some l.progress) ∧
          ((l.order.requested.contains a = true ∧ ∃ n ∈ main.heard, n.Shows a) ∨
            ∃ result, main.answer = .ok result ∧ ∃ b ∈ result.values, b.identity = a.identity) := by
  obtain ⟨t, u, v, r, h⟩ := l.passage hvalid
  obtain ⟨p, hrequested, hbuilt, hreturned⟩ := h.returned
  rw [hreturned, Progress.contains_after, hrequested, hbuilt, h.evaluations]
  rw [h.work.vouches_iff rfl (by simp [Round.exclusiveRequests, Round.request])]
  refine or_congr_right (exists_congr fun main => and_congr_right fun hmain => ?_)
  have hfirst : main.request = Round.request l.setup l.order l.order.requested (some l.progress) := by
    obtain ⟨rest, hrest⟩ := List.head?_eq_some_iff.mp hmain
    have hordered := h.work.requests_ordered
    rw [hrest] at hordered
    exact (List.cons_prefix_cons.mp hordered).1
  exact ⟨fun hbrings => ⟨hfirst, hbrings⟩, And.right⟩

/-- A main evaluation that shows one requested artifact and brings another, but then the round is cancelled. -/
def shownThenCancelled : Launch Scripted :=
  scripted false
    [{ steps := [.notify (.evaluated (.artifact ⟨⟨"a"⟩, .derived⟩) .clean), .cancel],
       answer := some (.ok { values := [⟨⟨"b"⟩, .derived⟩] }) }]
    [⟨⟨"a"⟩, .derived⟩, ⟨⟨"b"⟩, .derived⟩, ⟨⟨"c"⟩, .derived⟩] [⟨⟨"d"⟩, .derived⟩]

theorem contains_returned_shownThenCancelled :
    shownThenCancelled.setup.options.validate = .ok () ∧
      shownThenCancelled.returned.contains ⟨⟨"a"⟩, .derived⟩ = true ∧
      ∃ main, shownThenCancelled.evaluations.head? = some main ∧
        main.request = Round.request shownThenCancelled.setup shownThenCancelled.order
          shownThenCancelled.order.requested (some shownThenCancelled.progress) ∧
        ((shownThenCancelled.order.requested.contains ⟨⟨"a"⟩, .derived⟩ = true ∧
            ∃ n ∈ main.heard, n.Shows ⟨⟨"a"⟩, .derived⟩) ∨
          ∃ result, main.answer = .ok result ∧
            ∃ b ∈ result.values, b.identity = Artifact.identity ⟨⟨"a"⟩, .derived⟩) := by
  have hreturned : shownThenCancelled.returned.contains ⟨⟨"a"⟩, .derived⟩ = true := by decide +kernel
  have hbuilt : ¬ shownThenCancelled.built.contains ⟨⟨"a"⟩, .derived⟩ = true := by decide +kernel
  exact ⟨rfl, hreturned, ((contains_returned _ rfl _).mp hreturned).resolve_left hbuilt⟩

end Launch

end BuildRound
