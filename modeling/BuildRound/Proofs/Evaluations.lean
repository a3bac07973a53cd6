import BuildRound.Proofs.Launch
import BuildRound.Proofs.Reading

/-!
# The evaluations of a round

Which requests a round makes and how it ends, read off its record: the requests are made in order, each one only
if all before it passed and the signal of the round was not cancelled when it was reached.
-/

namespace BuildRound

/-! ## The stretches of a round -/

namespace Record

theorem Closing.steps {watched : Bool} {v : Record} (h : v.Closing watched) :
    v.steps = (if watched then [.joined] else []) ++ [.called .detach, .released] := by
  obtain ⟨hn, ht, hm⟩ := h
  rename_i n t m
  have hreleased : Record.steps (.released :: m) = [.released] :=
    congrArg (Occurrence.released :: ·) hm.plain.steps
  rw [steps_append, steps_append, steps_append, hn.plain.steps, (ht.plain trivial).steps, hreleased]
  cases watched <;> rfl

theorem Closing.idle {watched : Bool} {v : Record} (h : v.Closing watched) : ∀ o ∈ v, o.IsIdle := by
  obtain ⟨hn, ht, hm⟩ := h
  intro o ho
  simp only [List.mem_append, List.mem_cons] at ho
  rcases ho with ho | ho | ho | rfl | ho
  · exact hn.plain.idle o ho
  · cases watched with
    | false => simp at ho
    | true =>
        obtain rfl := List.mem_singleton.mp ho
        exact ⟨rfl, rfl, by simp⟩
  · exact (ht.plain trivial).idle o ho
  · exact ⟨rfl, rfl, by simp⟩
  · exact hm.plain.idle o ho

end Record

namespace Launch

variable {σ : Type} (l : Launch σ)

def evaluations : List Exchange :=
  l.record.exchanges

/-- For each time the round looked at its signal, whether it was cancelled by then. -/
def looks : List Bool :=
  l.record.looks l.token l.stage.world.signals

variable {l} {t u v : Record} {r : Except BuildError Bool}

theorem Passage.evaluations (h : l.Passage t u v r) : l.evaluations = u.exchanges := by
  have hv : v.exchanges = [] := by
    simpa using Record.exchanges_append (fun o ho => (h.closing.idle o ho).not_asked) []
  rw [Launch.evaluations, h.record, h.opening.exchanges_append, h.work.exchanges_append, hv, List.append_nil]

theorem Passage.looks (h : l.Passage t u v r) :
    l.looks = u.looks l.token (l.stage.world.signals.after t) := by
  rw [Launch.looks, h.record, Record.looks_append, Record.looks_append, h.opening.looks,
    Record.looks_eq_nil (fun o ho => (h.closing.idle o ho).not_looked), List.nil_append, List.append_nil]

/-! ## The schedule of a round -/

theorem Passage.schedule (h : l.Passage t u v r) (hspawn : l.host.canSpawn = true)
    (hclear : ∀ e, .examined (.error e) ∉ l.record) :
    Schedule l.setup.options.keepGoing l.requests l.evaluations l.looks r := by
  rw [h.evaluations, h.looks]
  have hwork := h.work
  generalize hs : l.stage.world.signals.after t = s at hwork
  cases hwork with
  | unwatched hfailed ht => simp [Round.Host.canSpawn_iff.mp hspawn] at hfailed
  | conflict hspawn ht =>
      rename_i e
      have hmem : .examined (.error e) ∈ u.steps := by simp [ht.steps]
      refine absurd ?_ (hclear e)
      rw [h.record]
      simp [(List.mem_filter.mp hmem).1]
  | evaluated hspawn ht hu =>
      rename_i t u
      rw [ht.exchanges_append, Record.looks_append, ht.looks]
      exact hu.schedule.1

/-- The evaluations of a round and its outcome under the failure policy. Requests are made in the order of
`l.requests`, each just when all before it were made and passed and the signal was not cancelled when it was
reached. -/
theorem evaluations_schedule (l : Launch σ) (hvalid : l.setup.options.validate = .ok ())
    (hspawn : l.host.canSpawn = true) (hclear : ∀ e, .examined (.error e) ∉ l.record) :
    l.evaluations.map (·.request) <+: l.requests ∧
    (∀ k < l.requests.length,
      (k < l.evaluations.length ↔
        (∀ j < k, ∃ e, l.evaluations[j]? = some e ∧ e.Passes l.setup.options.keepGoing) ∧
          l.looks[k]? = some false) ∧
      ((∀ j < k, ∃ e, l.evaluations[j]? = some e ∧ e.Passes l.setup.options.keepGoing) →
        l.looks[k]?.isSome = true)) ∧
    (true ∈ l.looks → l.outcome = .error .cancelled) ∧
    (∀ e ∈ l.evaluations, ∀ x, e.answer = .error x → l.outcome = .error x) ∧
    (∀ e ∈ l.evaluations, ∀ result, e.answer = .ok result → result.hasError = true →
      l.setup.options.keepGoing = false →
        ∃ x, result.verdict false = .error x ∧ l.outcome = .error x) ∧
    (true ∉ l.looks → (∀ e ∈ l.evaluations, e.Passes l.setup.options.keepGoing) →
      l.evaluations.map (·.request) = l.requests ∧
        ((∀ e ∈ l.evaluations, ∀ result, e.answer = .ok result → result.hasError = false) →
          l.outcome = .ok ()) ∧
        ((∃ e ∈ l.evaluations, ∃ result, e.answer = .ok result ∧ result.hasError = true) →
          l.outcome = .error (.buildFailed none))) := by
  obtain ⟨t, u, v, r, h⟩ := l.passage hvalid
  have hs := h.schedule hspawn hclear
  rw [h.outcome]
  refine ⟨hs.requests_ordered, fun k hk => ⟨hs.made_iff hk, hs.looked hk⟩, ?_, ?_, ?_, ?_⟩
  · intro hlook
    rw [hs.cancelled_of_look hlook]
    rfl
  · intro e he x hx
    rw [hs.error_of_verdict he (x := x) (by simp [Exchange.verdict, hx, Except.bind])]
    rfl
  · intro e he result hresult herror hgo
    cases hverdict : result.verdict false with
    | ok fine => simp [EvaluationResult.verdict_eq_ok, herror] at hverdict
    | error x =>
        refine ⟨x, rfl, ?_⟩
        rw [hs.error_of_verdict he (x := x) (by simp [Exchange.verdict, hresult, Except.bind, hgo, hverdict])]
        rfl
  · intro hlook hpass
    obtain ⟨hrequests, fine, hr, hfine⟩ := hs.result_of_passes hlook hpass
    refine ⟨hrequests, fun hclean => ?_, ?_⟩
    · rw [hr, hfine.mpr hclean]
      rfl
    · rintro ⟨e, he, result, hresult, herror⟩
      have hfalse : fine = false := by
        cases fine with
        | false => rfl
        | true => simp [hfine.mp rfl e he result hresult] at herror
      rw [hr, hfalse]
      rfl

/-- A main evaluation during which the round is cancelled, before an exclusive one. -/
def cancelledBetween : Launch Scripted :=
  scripted true [{ steps := [.cancel], answer := some (.ok {}) }] [] [⟨⟨"a"⟩, .derived⟩]

theorem evaluations_schedule_cancelledBetween :
    cancelledBetween.setup.options.validate = .ok () ∧ cancelledBetween.host.canSpawn = true ∧
      (∀ e, .examined (.error e) ∉ cancelledBetween.record) ∧
      cancelledBetween.outcome = .error .cancelled := by
  have hall : cancelledBetween.record.all (fun o => match o with
      | .examined (.error _) => false
      | _ => true) = true := by
    decide +kernel
  have hclear : ∀ e, .examined (.error e) ∉ cancelledBetween.record := by
    intro e he
    exact absurd (List.all_eq_true.mp hall _ he) (by simp)
  have hlook : true ∈ cancelledBetween.looks := by decide +kernel
  exact ⟨rfl, rfl, hclear, (evaluations_schedule cancelledBetween rfl rfl hclear).2.2.1 hlook⟩

end Launch

end BuildRound
