import BuildRound.Proofs.Parts
import BuildRound.Proofs.Reading

/-!
# What a result comes to

Every failed node is reported, in the order of the result, before anything is decided. With keep-going, failures are
absorbed; without it, a cycle at any node outweighs all causes, and otherwise the cause of the first node becomes the
error of the round, which keeps all that the cause tells.
-/

namespace BuildRound

/-! ## Causes and errors -/

namespace BuildError

/-- The cause that an error was made of, if any cause becomes such an error. -/
def cause? : BuildError → Option Cause
  | buildFailed (some m) => some (.actionFailed m)
  | testExecution m => some (.testFailed m)
  | exitCausing m code => some (.exitCausing m code)
  | internal chain => some (.unexpected chain)
  | buildFailed none | cancelled | config _ => none

end BuildError

namespace Cause

/-- The exit code that a cause asks for. Failed actions and tests leave it open. -/
def exitCode? : Cause → Option Int
  | exitCausing _ code => some code
  | unexpected _ => some 37
  | actionFailed _ | testFailed _ => none

/-- What is told below the message of an error, from the outermost context down to the root. -/
def chainTexts : Cause → List String
  | unexpected chain => chain.contexts.reverse ++ [chain.root]
  | actionFailed _ | testFailed _ | exitCausing _ _ => []

/-- What stands in front of the message of a cause when it ends the round. -/
def lead : Cause → String
  | testFailed _ => "Test execution failed: "
  | unexpected _ => "Unexpected evaluation failure: "
  | actionFailed _ | exitCausing _ _ => ""

/-- The error tells all that the cause told: its kind with all it carries, its message, its exit code, and what lies
below. -/
structure KeptBy (c : Cause) (e : BuildError) : Prop where
  cause : e.cause? = some c
  message : e.message = c.lead ++ c.message
  exitCode : e.exitCode? = c.exitCode?
  sources : e.sources = c.chainTexts

theorem keptBy_toBuildError (c : Cause) : c.KeptBy c.toBuildError := by
  cases c with
  | actionFailed m | exitCausing m code => exact ⟨rfl, String.empty_append.symm, rfl, rfl⟩
  | testFailed m | unexpected chain => exact ⟨rfl, rfl, rfl, rfl⟩

theorem KeptBy.ne_buildFailed {c : Cause} {e : BuildError} (h : c.KeptBy e) : e ≠ .buildFailed none := by
  rintro rfl
  cases h.cause

end Cause

/-! ## The verdict -/

namespace EvaluationResult

variable {r : EvaluationResult} {keepGoing : Bool}

theorem hasCycles_iff : r.hasCycles = true ↔ ∃ f ∈ r.errors, f.cycles ≠ [] := by
  simp [hasCycles, FailedNode.hasCycles]

theorem verdict_eq_true_iff : r.verdict keepGoing = .ok true ↔ r.errors = [] := by
  rw [verdict_eq_ok, hasError]
  cases r.errors <;> simp

theorem verdict_eq_false_iff : r.verdict keepGoing = .ok false ↔ r.errors ≠ [] ∧ keepGoing = true := by
  rw [verdict_eq_ok, hasError]
  cases r.errors <;> simp

theorem verdict_of_cons {first : FailedNode} {rest : List FailedNode} (h : r.errors = first :: rest) :
    r.verdict false = if r.hasCycles then .error (.buildFailed none)
      else .error (first.cause.elim unexplained Cause.toBuildError) := by
  simp only [verdict, h, Bool.false_eq_true, if_false]
  split
  · rfl
  · cases first.cause <;> rfl

theorem verdict_of_cycles (h : ∃ f ∈ r.errors, f.cycles ≠ []) : r.verdict false = .error (.buildFailed none) := by
  cases herrors : r.errors with
  | nil => simp [herrors] at h
  | cons first rest => rw [verdict_of_cons herrors, if_pos (hasCycles_iff.mpr h)]

theorem verdict_eq_buildFailed_iff :
    r.verdict false = .error (.buildFailed none) ↔ ∃ f ∈ r.errors, f.cycles ≠ [] := by
  refine ⟨fun h => ?_, verdict_of_cycles⟩
  cases herrors : r.errors with
  | nil => simp [verdict, herrors] at h
  | cons first rest =>
      rw [verdict_of_cons herrors] at h
      split at h
      · rename_i hcycles
        exact herrors ▸ hasCycles_iff.mp hcycles
      · cases hcause : first.cause with
        | none => simp [hcause, unexplained] at h
        | some cause =>
            -- An action that failed leaves its message in the error.
            refine absurd ?_ (Cause.keptBy_toBuildError cause).ne_buildFailed
            simpa [hcause] using h

end EvaluationResult

/-! ## Judging -/

namespace Round

variable {σ : Type}

/-- Judging a result reports each failed node once, in order and with its own cycles, whatever the engine does then, and
answers by the policy. What fails without keep-going is a plain build failure if any node has a cycle; otherwise the
first node alone decides, and the error keeps all that its cause tells. -/
theorem judge_answers (host : Host) (engine : Engine σ) (setup : Setup) (result : EvaluationResult) (s : Stage σ) :
    ∃ (t : Record) (answer : Except BuildError Bool) (s' : Stage σ),
      Act.on (judge host engine setup result).run s = (answer, s') ∧ s'.world.trace = s.world.trace ++ t ∧
      t.calls = result.errors.map (fun f => .reportCycles ⟨f.cycles, f.key⟩) ∧
      (answer = .ok true ↔ result.errors = []) ∧
      (answer = .ok false ↔ result.errors ≠ [] ∧ setup.options.keepGoing = true) ∧
      (setup.options.keepGoing = false →
        (answer = .error (.buildFailed none) ↔ ∃ f ∈ result.errors, f.cycles ≠ []) ∧
        ∀ first rest, result.errors = first :: rest → (∀ f ∈ result.errors, f.cycles = []) →
          (first.cause = none → answer = .error (.internal ⟨"evaluation failed without a recorded cause", []⟩)) ∧
          ∀ cause, first.cause = some cause → ∃ e, answer = .error e ∧ cause.KeptBy e) := by
  obtain ⟨t, s', ht, hon, hflow⟩ := judge_leads host engine setup result s
  refine ⟨t, result.verdict setup.options.keepGoing, s', hon, hflow.trace, ?_,
    EvaluationResult.verdict_eq_true_iff, EvaluationResult.verdict_eq_false_iff, fun hgo => ?_⟩
  · rw [ht.calls, Record.calls_map_called, reports, EvaluationResult.cycleReports, List.map_map]
    rfl
  · rw [hgo]
    refine ⟨EvaluationResult.verdict_eq_buildFailed_iff, fun first rest herrors hcycles => ?_⟩
    have hnone : result.hasCycles = false := by
      rw [Bool.eq_false_iff, ne_eq, EvaluationResult.hasCycles_iff]
      rintro ⟨f, hf, hne⟩
      exact hne (hcycles f hf)
    rw [EvaluationResult.verdict_of_cons herrors, hnone]
    refine ⟨fun hcause => by simp [hcause, EvaluationResult.unexplained], fun cause hcause => ?_⟩
    exact ⟨cause.toBuildError, by simp [hcause], cause.keptBy_toBuildError⟩

end Round

end BuildRound
