import BuildRound.Proofs.BuiltSet

/-!
# Completed actions and the built set

That an action completed counts for the progress text only. An output of a completed action is given back just
when the caller had it already or something else vouches for it: the node of the action, of the artifact itself,
or the values of the main evaluation. A round that is cut off between the completion and those loses the output.
-/

namespace BuildRound

/-! ## What vouches for an artifact in a whole round -/

theorem Record.Closing.not_vouches {watched : Bool} {v : Record} (h : v.Closing watched) {i : Nat}
    {requested : ArtifactSet} {a : Artifact} : ¬ v.Vouches i requested a := by
  obtain ⟨hn, ht, hm⟩ := h
  simp only [vouches_append, vouches_cons]
  rintro (hv | hv | hv | hv | hv)
  · exact hn.plain.not_vouches hv
  · cases watched <;> simp [Occurrence.Vouches] at hv
  · exact (ht.plain trivial).not_vouches hv
  · exact hv
  · exact hm.plain.not_vouches hv

theorem Record.vouches_iff {i : Nat} {requested : ArtifactSet} {a : Artifact} {t : Record} :
    t.Vouches i requested a ↔
      (requested.contains a = true ∧ ∃ n, .issued (some i) (.notify n) () ∈ t ∧ n.Shows a) ∨
        ∃ result, .answered (some i) (.ok result) ∈ t ∧ ∃ b ∈ result.values, b.identity = a.identity := by
  constructor
  · rintro ⟨o, ho, hv⟩
    cases o with
    | issued l c reply =>
        cases c with
        | notify n =>
            cases l with
            | none => exact hv.elim
            | some j =>
                obtain ⟨rfl, hrequested, hshows⟩ := hv
                exact .inl ⟨hrequested, n, ho, hshows⟩
        | _ => cases l <;> exact hv.elim
    | answered l answer =>
        cases l with
        | none => exact hv.elim
        | some j =>
            cases answer with
            | error e => exact hv.elim
            | ok result =>
                obtain ⟨rfl, hvalues⟩ := hv
                exact .inr ⟨result, ho, hvalues⟩
    | _ => exact hv.elim
  · rintro (⟨hrequested, n, hn, hshows⟩ | ⟨result, hresult, hvalues⟩)
    · exact ⟨_, hn, rfl, hrequested, hshows⟩
    · exact ⟨_, hresult, rfl, hvalues⟩

namespace Launch

variable {σ : Type} {l : Launch σ} {t u v : Record} {r : Except BuildError Bool}

theorem Passage.vouches_iff (h : l.Passage t u v r) {i : Nat} {requested : ArtifactSet} {a : Artifact} :
    l.record.Vouches i requested a ↔ u.Vouches i requested a := by
  rw [h.record, Record.vouches_append, Record.vouches_append, or_iff_right h.opening.not_vouches,
    or_iff_left h.closing.not_vouches]

theorem Passage.contains_iff (h : l.Passage t u v r) {a : Artifact} :
    l.returned.contains a = true ↔
      l.built.contains a = true ∨ l.record.Vouches l.progress l.order.requested a := by
  obtain ⟨p, hrequested, hbuilt, hreturned⟩ := h.returned
  rw [hreturned, Progress.contains_after, hrequested, hbuilt, h.vouches_iff]

end Launch

/-! ## Completions -/

/-- Who listened, which progress was told, and which action completed. -/
def Occurrence.completion? : Occurrence → Option (Option Nat × Nat × Action)
  | .issued l (.complete i action) _ => some (l, i, action)
  | _ => none

theorem Occurrence.eq_of_completion? {o : Occurrence} {l : Option Nat} {i : Nat} {action : Action}
    (h : o.completion? = some (l, i, action)) : o = .issued l (.complete i action) () := by
  cases o with
  | issued l c reply =>
      cases c with
      | complete i action =>
          cases h
          rfl
      | _ => simp [completion?] at h
  | _ => simp [completion?] at h

/-- The split at the completion with this number in the record. -/
theorem Record.exists_split_completion {t : Record} {k : Nat} {l : Option Nat} {i : Nat} {action : Action}
    (h : t[k]?.bind Occurrence.completion? = some (l, i, action)) :
    ∃ before after, t = before ++ .issued l (.complete i action) () :: after := by
  obtain ⟨o, hk, hcompletion⟩ := Option.bind_eq_some_iff.mp h
  obtain rfl := Occurrence.eq_of_completion? hcompletion
  exact ⟨_, _, eq_take_cons_drop hk⟩

namespace Launch

variable {σ : Type}

/-- The completion of an action adds nothing to what the round gives back, which is decided by what comes before
and after it: a requested artifact, written by this action or not, is there just when the caller had it already,
the main evaluation showed it to its listener, or brought it. -/
theorem returned_iff_of_completed (l : Launch σ) {before after : Record} {listener : Option Nat}
    {action : Action}
    (hsplit : l.record = before ++ .issued listener (.complete l.progress action) () :: after)
    {a : Artifact} (hrequested : l.order.requested.contains a = true) :
    l.returned.contains a = true ↔
      l.built.contains a = true ∨
        (∃ n, .issued (some l.progress) (.notify n) () ∈ before ++ after ∧ n.Shows a) ∨
        ∃ result, .answered (some l.progress) (.ok result) ∈ before ++ after ∧
          ∃ b ∈ result.values, b.identity = a.identity := by
  cases hvalidate : l.setup.options.validate with
  | error e =>
      obtain ⟨-, -, hnoise, -⟩ := l.of_invalid hvalidate
      obtain ⟨token, htoken⟩ := hnoise (.issued listener (.complete l.progress action) ()) (by simp [hsplit])
      cases htoken
  | ok valid =>
      obtain ⟨t, u, v, r, h⟩ := l.passage hvalidate
      have hcompletion : ¬ Occurrence.Vouches l.progress l.order.requested a
          (.issued listener (.complete l.progress action) ()) := by
        cases listener <;> exact id
      have herase : l.record.Vouches l.progress l.order.requested a ↔
          (before ++ after).Vouches l.progress l.order.requested a := by
        rw [hsplit, Record.vouches_append, Record.vouches_cons, or_iff_right hcompletion,
          Record.vouches_append]
      rw [h.contains_iff, herase, Record.vouches_iff, and_iff_right hrequested]

/-- Writes one object file. -/
def compile : Action where
  id := ⟨"a"⟩
  mnemonic := "Compile"
  outputs := [⟨⟨"a.o"⟩, .derived⟩]

/-- The node of the completed action is still evaluated before the round is cut off. -/
def evaluatedAfterCompletion : Launch Scripted :=
  scripted false
    [{ steps := [.complete compile, .notify (.evaluated (.action compile) .built)],
       answer := some (.error .cancelled) }]
    compile.outputs []

theorem returned_iff_of_completed_evaluatedAfterCompletion : ∃ before after a,
    evaluatedAfterCompletion.record = before ++
        .issued (some evaluatedAfterCompletion.progress)
          (.complete evaluatedAfterCompletion.progress compile) () :: after ∧
      a ∈ compile.outputs ∧ evaluatedAfterCompletion.order.requested.contains a = true ∧
      ((∃ n, .issued (some evaluatedAfterCompletion.progress) (.notify n) () ∈ before ++ after ∧ n.Shows a) ∨
        ∃ result, .answered (some evaluatedAfterCompletion.progress) (.ok result) ∈ before ++ after ∧
          ∃ b ∈ result.values, b.identity = a.identity) := by
  have hcompletion : evaluatedAfterCompletion.record[8]?.bind Occurrence.completion? =
      some (some evaluatedAfterCompletion.progress, evaluatedAfterCompletion.progress, compile) := by
    decide +kernel
  obtain ⟨before, after, hsplit⟩ := Record.exists_split_completion hcompletion
  have hrequested : evaluatedAfterCompletion.order.requested.contains ⟨⟨"a.o"⟩, .derived⟩ = true := by
    decide +kernel
  have hreturned : evaluatedAfterCompletion.returned.contains ⟨⟨"a.o"⟩, .derived⟩ = true := by
    decide +kernel
  have hbuilt : ¬ evaluatedAfterCompletion.built.contains ⟨⟨"a.o"⟩, .derived⟩ = true := by
    decide +kernel
  exact ⟨before, after, _, hsplit, List.mem_singleton_self _, hrequested,
    ((returned_iff_of_completed evaluatedAfterCompletion hsplit hrequested).mp hreturned).resolve_left hbuilt⟩

/-- The round is cut off right after the completion. -/
def interruptedAfterCompletion : Launch Scripted :=
  scripted false [{ steps := [.complete compile], answer := some (.error .cancelled) }] compile.outputs []

/-- The main evaluation learns that the action completed, and its requested output is lost all the same. -/
theorem loses_interruptedAfterCompletion : ∃ before after a,
    interruptedAfterCompletion.record = before ++
        .issued (some interruptedAfterCompletion.progress)
          (.complete interruptedAfterCompletion.progress compile) () :: after ∧
      a ∈ compile.outputs ∧ interruptedAfterCompletion.order.requested.contains a = true ∧
      interruptedAfterCompletion.returned.contains a = false := by
  have hcompletion : interruptedAfterCompletion.record[8]?.bind Occurrence.completion? =
      some (some interruptedAfterCompletion.progress, interruptedAfterCompletion.progress, compile) := by
    decide +kernel
  obtain ⟨before, after, hsplit⟩ := Record.exists_split_completion hcompletion
  have hrequested : interruptedAfterCompletion.order.requested.contains ⟨⟨"a.o"⟩, .derived⟩ = true := by
    decide +kernel
  have hlost : interruptedAfterCompletion.returned.contains ⟨⟨"a.o"⟩, .derived⟩ = false := by
    decide +kernel
  exact ⟨before, after, _, hsplit, List.mem_singleton_self _, hrequested, hlost⟩

end Launch

end BuildRound
