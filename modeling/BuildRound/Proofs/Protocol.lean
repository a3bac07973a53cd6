import BuildRound.Proofs.Evaluations

/-!
# The protocol of a round

What the round does on the engine and on the bus, in order. Opening and cleaning up come in full and once each
on every way out; between them stands as much of the work as was done.
-/

namespace BuildRound

/-! ## The steps of the work -/

theorem Occurrence.IsOf.not_cleanUp {qs : List Request} {o : Occurrence} (h : o.IsOf qs) :
    o ≠ .joined ∧ o ≠ .released := by
  rcases h with h | rfl | ⟨q, -, rfl | h | ⟨a, rfl⟩⟩
  · constructor <;> rintro rfl <;> exact h
  · exact ⟨by simp, by simp⟩
  · exact ⟨by simp, by simp⟩
  · constructor <;> rintro rfl <;> exact h
  · exact ⟨by simp, by simp⟩

variable {spawn : Except ErrorChain Unit} {keepGoing : Bool} {token : Token} {modified : ModifiedFiles} {s : Signals}
  {q : Request} {qs : List Request} {r : Except BuildError Bool}

/-- The steps of the work of a round: none, the search for conflicts, or all up to where the evaluations came. -/
theorem Work.steps {t : Record} (h : Work spawn keepGoing token modified s qs t r) :
    (∃ reason, spawn = .error reason ∧ t.steps = [] ∧ r = .error (Round.unwatched reason)) ∨
      spawn = .ok () ∧
        ((∃ e, t.steps = [.called .findConflicts, .examined (.error e)] ∧ r = .error e) ∨
          ∃ rest : Record, t.steps = .called .findConflicts :: .examined (.ok ()) ::
              .called (.informModified modified) :: rest ∧
            rest.calls = t.exchanges.flatMap Exchange.calls ∧
            ∀ o ∈ rest, o ≠ .joined ∧ o ≠ .released) := by
  cases h with
  | unwatched hspawn ht => exact .inl ⟨_, hspawn, ht.plain.steps, rfl⟩
  | conflict hspawn ht => exact .inr ⟨hspawn, .inl ⟨_, ht.steps, rfl⟩⟩
  | evaluated hspawn ht hu =>
      rename_i t u
      refine .inr ⟨hspawn, .inr ⟨u.steps, by rw [Record.steps_append, ht.steps]; rfl, ?_, fun o ho => ?_⟩⟩
      · rw [Record.calls_steps, ht.exchanges_append]
        exact hu.schedule.2
      · exact (hu.isOf o (List.mem_filter.mp ho).1).not_cleanUp

/-! ## The protocol -/

namespace Launch

variable {σ : Type}

/-- With invalid options a round does nothing. Otherwise it prepares and attaches, does as much of its work as it
can, joins the watchdog, detaches as its last call, and gives the built set back. The board is off the bus then,
and the listeners of the engine are what the engine made of them. -/
theorem protocol (l : Launch σ) :
    (∀ e, l.setup.options.validate = .error e →
      l.outcome = .error (.config e) ∧ l.returned = l.built ∧ l.record.calls = [] ∧
        l.world.bus = l.stage.world.bus) ∧
    (l.setup.options.validate = .ok () → ∃ middle : Record,
      l.record.steps =
        [.called .prepare, .called .setFileCache, .called (.attach l.objects)] ++ middle ++
          (if l.host.canSpawn then [.joined] else []) ++ [.called .detach, .released] ∧
      l.record.calls =
        [.prepare, .setFileCache, .attach l.objects] ++ middle.calls ++ [.detach] ∧
      (∀ o ∈ middle, o ≠ .joined ∧ o ≠ .released) ∧
      (∀ reason, l.host.spawn = .error reason → middle = [] ∧ l.outcome = .error (Round.unwatched reason)) ∧
      (l.host.canSpawn = true →
        (∃ e, middle = [.called .findConflicts, .examined (.error e)] ∧ l.outcome = .error e) ∨
        ∃ rest : Record, middle = .called .findConflicts :: .examined (.ok ()) ::
            .called (.informModified l.order.modified) :: rest ∧
          rest.calls = l.evaluations.flatMap Exchange.calls) ∧
      l.evaluations.map (·.request) <+: l.requests ∧
      l.world.watch.dog.isRunning = false ∧
      l.world.bus.entries = l.record.enrolled l.stage.world.bus.entries) := by
  constructor
  · intro e hinvalid
    obtain ⟨houtcome, hreturned, hnoise, hbus⟩ := l.of_invalid hinvalid
    exact ⟨houtcome, hreturned, hnoise.plain.calls, hbus⟩
  · intro hvalid
    obtain ⟨t, u, v, r, h⟩ := l.passage hvalid
    have hsteps : l.record.steps = [.called .prepare, .called .setFileCache, .called (.attach l.objects)] ++
        u.steps ++ (if l.host.canSpawn then [.joined] else []) ++ [.called .detach, .released] := by
      rw [h.record, Record.steps_append, Record.steps_append, h.opening.steps, h.closing.steps]
      simp
    have hordered : l.evaluations.map (·.request) <+: l.requests := by
      rw [h.evaluations]
      exact h.work.requests_ordered
    have hcalls : l.record.calls =
        [.prepare, .setFileCache, .attach l.objects] ++ Record.calls u.steps ++ [.detach] := by
      rw [← Record.calls_steps, hsteps]
      cases l.host.canSpawn <;> simp [Occurrence.call?]
    refine ⟨u.steps, hsteps, hcalls, ?_, ?_, ?_, hordered, h.stopped, h.bus⟩
    · rcases h.work.steps with ⟨-, -, hu, -⟩ | ⟨-, ⟨e, hu, -⟩ | ⟨rest, hu, -, hrest⟩⟩
      · simp [hu]
      · simp [hu]
      · rw [hu]
        simpa using hrest
    · intro reason hspawn
      rcases h.work.steps with ⟨reason', hfailed, hu, hr⟩ | ⟨hstarted, -⟩
      · obtain rfl : reason = reason' := Except.error.inj (hspawn.symm.trans hfailed)
        exact ⟨hu, by rw [h.outcome, hr]; rfl⟩
      · cases hspawn.symm.trans hstarted
    · intro hspawn
      rcases h.work.steps with ⟨reason, hfailed, -⟩ | ⟨-, ⟨e, hu, hr⟩ | ⟨rest, hu, hcalls, -⟩⟩
      · cases (Round.Host.canSpawn_iff.mp hspawn).symm.trans hfailed
      · exact .inl ⟨e, hu, by rw [h.outcome, hr]; rfl⟩
      · exact .inr ⟨rest, hu, by rw [hcalls, h.evaluations]⟩

end Launch

end BuildRound
