import BuildRound.Proofs.Flow

/-!
# The end of the watchdog's thread

Once the stop flag is up and the wait is interrupted, every step brings the thread of the watchdog closer to
its end, wherever it stands: in a report it still takes the steps that are left of the report, and after that
it meets the flag or the interruption. So joining it always ends.
-/

namespace BuildRound

/-! ## Steps that are left -/

/-- The steps that are left of a report, with the two that end the thread after it. -/
def ReportStage.left : ReportStage → Nat
  | .idle => 8
  | .readCompleted => 7
  | .readEnqueued _ => 6
  | .render _ => 5
  | .say _ => 4
  | .tally => 3

/-- The steps that are left of a thread once it is told to stop. -/
def Loop.left (stage : ReportStage) : Loop → Nat
  | .ended _ => 0
  | .head | .enter _ | .asleep _ => 1
  | .ask | .judge | .note _ => 2
  | .report => stage.left

theorem ReportStage.two_lt_left (stage : ReportStage) : 2 < stage.left := by
  cases stage <;> simp [left]

theorem Loop.left_le (stage : ReportStage) (loop : Loop) : loop.left stage ≤ Watchdog.joinBound := by
  cases loop <;> cases stage <;> simp [left, ReportStage.left, Watchdog.joinBound]

namespace Watchdog

variable {ε : Type}

theorem run_of_ended {s : Surroundings ε} {d : Watchdog} {panicked : Bool}
    (h : d.thread = some (.ended panicked)) (n : Nat) (e : ε) :
    d.run s n e = ({ d with thread := some (.ended panicked) }, e) := by
  obtain ⟨interval, stopping, thread, spawned, joined⟩ := d
  subst h
  cases n <;> simp [run, Loop.isEnded]

theorem join_of_run {s : Surroundings ε} {d : Watchdog} {panicked : Bool} {e e' : ε}
    (h : d.run s joinBound e = ({ d with thread := some (.ended panicked) }, e')) :
    d.join s e = ({ d with thread := none, joined := d.joined + 1 },
      if panicked then s.mourn e' else e') := by
  simp only [join, h]

/-- A thread that was started is there until it is joined. -/
theorem isRunning_run (s : Surroundings ε) {d : Watchdog} (h : d.isRunning = true) (n : Nat) (e : ε) :
    (d.run s n e).1.isRunning = true := by
  induction n generalizing d e with
  | zero => exact h
  | succ n ih =>
      simp only [run]
      split
      · exact h
      · refine ih ?_ _
        obtain ⟨loop, hthread⟩ := Option.isSome_iff_exists.mp h
        simp [step, hthread, isRunning]

/-- Joining is letting the thread take its steps and joining it at its end. -/
theorem join_of_joined {s : Surroundings ε} {d : Watchdog} {e : ε} (hruns : d.isRunning = true)
    (hjoined : (d.join s e).1.isRunning = false) :
    ∃ panicked, (d.run s joinBound e).1.thread = some (.ended panicked) ∧
      d.join s e = (d.run s joinBound e).1.join s (d.run s joinBound e).2 := by
  have hstill := isRunning_run s hruns joinBound e
  obtain ⟨loop, hthread⟩ := Option.isSome_iff_exists.mp hstill
  cases loop with
  | ended panicked =>
      refine ⟨panicked, hthread, ?_⟩
      rw [join_of_run (run_of_ended hthread joinBound _)]
      simp [join, hthread]
  | _ => simp [join, hthread, hstill] at hjoined

end Watchdog

namespace World

/-- A thread that stands here will end: the wait it is in, if any, can be woken, and waits are
interrupted. -/
structure Ending (w : World) (loop : Loop) : Prop where
  interrupted : ∃ p, w.progresses[w.watch.progress]? = some p ∧ p.activity.interrupted = true
  attended : ∀ started, loop = .asleep started → w.watch.call.isSome = true

theorem checkWait_interrupted {w : World} {call : Wait}
    (h : ∃ p, w.progresses[w.watch.progress]? = some p ∧ p.activity.interrupted = true) :
    (w.checkWait call).1 = some (.error .interrupted) := by
  obtain ⟨p, hp, hi⟩ := h
  simp [checkWait, readProgress, hp, Wait.check, hi]

theorem advanceReport_left (author : Author) {w : World} (h : (w.advanceReport author).1 = none) :
    (w.advanceReport author).2.watch.stage.left < w.watch.stage.left := by
  cases hs : w.watch.stage with
  | idle =>
      simp only [advanceReport, hs] at h ⊢
      split at h <;> simp_all [ReportStage.left]
  | render progress =>
      simp only [advanceReport, hs] at h ⊢
      split at h <;> simp_all [ReportStage.left]
  | tally => simp [advanceReport, hs] at h
  | readCompleted | readEnqueued _ | say _ => simp [advanceReport, hs, ReportStage.left, say]

/-- Each step of a thread that is told to stop leaves fewer steps. -/
theorem advance_left (interval : Nanos) {w : World} {loop : Loop} (h : w.Ending loop)
    (hloop : loop.isEnded = false) :
    let next := Watchdog.advance surroundings interval true loop w
    next.1.left next.2.watch.stage < loop.left w.watch.stage := by
  cases loop with
  | head | ask | judge | note reported => simp [Watchdog.advance, Loop.left]
  | enter started =>
      have hcheck : (surroundings.enter interval w).1 = some (.error .interrupted) :=
        checkWait_interrupted h.interrupted
      simp [Watchdog.advance, hcheck, Loop.afterWait, Loop.left]
  | asleep started =>
      obtain ⟨call, hcall⟩ := Option.isSome_iff_exists.mp (h.attended started rfl)
      have hcheck : (surroundings.wake w).1 = some (.error .interrupted) := by
        simp only [surroundings, hcall]
        exact checkWait_interrupted h.interrupted
      simp [Watchdog.advance, hcheck, Loop.afterWait, Loop.left]
  | report =>
      simp only [Watchdog.advance, surroundings]
      rcases hr : w.advanceReport .watchdog with ⟨_ | reported, w'⟩
      · have hlt := advanceReport_left .watchdog (w := w) (by rw [hr])
        simpa [Loop.left, hr] using hlt
      · exact w.watch.stage.two_lt_left
  | ended panicked => simp [Loop.isEnded] at hloop

theorem advance_ending (interval : Nanos) {w : World} {loop : Loop} (h : w.Ending loop) :
    let next := Watchdog.advance surroundings interval true loop w
    next.2.Ending next.1 := by
  have haside := advance_aside interval true loop w
  refine ⟨?_, fun started hs => isSome_call_advance h.attended hs⟩
  rw [haside.progress, haside.progresses]
  exact h.interrupted

theorem Aside.trans {w w' w'' : World} (h : w.Aside w') (k : w'.Aside w'') : w.Aside w'' :=
  ⟨k.clock.trans h.clock, k.turns.trans h.turns, k.trace.trans h.trace, k.signals.trans h.signals,
    k.progresses.trans h.progresses, k.bus.trans h.bus, k.boards.trans h.boards, k.progress.trans h.progress,
    k.board.trans h.board, k.exclusive.trans h.exclusive, k.dog.trans h.dog⟩

/-! ## Joining -/

theorem run_ended {n : Nat} {d : Watchdog} {loop : Loop} {w : World} (hd : d.stopping = true)
    (hthread : d.thread = some loop) (h : w.Ending loop) (hn : loop.left w.watch.stage ≤ n) :
    ∃ (panicked : Bool) (w' : World), w.Aside w' ∧
      d.run surroundings n w = ({ d with thread := some (.ended panicked) }, w') := by
  induction n generalizing d loop w with
  | zero =>
      cases loop with
      | ended panicked => exact ⟨panicked, w, .refl w, Watchdog.run_of_ended hthread 0 w⟩
      | report => have := w.watch.stage.two_lt_left; simp only [Loop.left] at hn; omega
      | _ => simp [Loop.left] at hn
  | succ n ih =>
      cases hended : loop.isEnded with
      | true =>
          cases loop <;> simp [Loop.isEnded] at hended
          exact ⟨_, w, .refl w, Watchdog.run_of_ended hthread _ w⟩
      | false =>
          have hlt := advance_left d.interval h hended
          obtain ⟨panicked, w', haside, heq⟩ := ih
            (d := { d with thread := some (Watchdog.advance surroundings d.interval true loop w).1 })
            hd rfl (advance_ending d.interval h) (by omega)
          refine ⟨panicked, w', (advance_aside d.interval true loop w).trans haside, ?_⟩
          simpa [Watchdog.run, Watchdog.step, hthread, hended, hd] using heq

/-- A watchdog that can be joined: its thread was told to stop, and its wait, if it is in one, is interrupted. -/
structure Joinable (w : World) : Prop where
  running : w.watch.dog.isRunning = true
  stopping : w.watch.dog.stopping = true
  attended : w.watch.Attended
  interrupted : ∃ p, w.progresses[w.watch.progress]? = some p ∧ p.activity.interrupted = true

/-- Joining ends, and is noted. -/
theorem Joinable.join {w : World} (h : w.Joinable) :
    ∃ (joined : Nat) (w' : World), w.Aside w' ∧
      w.joinWatchdog = (withDog ({ w.watch.dog with thread := none, joined }, w')).note .joined := by
  obtain ⟨loop, hthread⟩ := Option.isSome_iff_exists.mp h.running
  have hending : w.Ending loop := ⟨h.interrupted, fun started hs => h.attended started (hs ▸ hthread)⟩
  obtain ⟨panicked, w', haside, heq⟩ := run_ended h.stopping hthread hending (Loop.left_le ..)
  refine ⟨w.watch.dog.joined + 1, if panicked then w'.say .caller [Watchdog.mournEntry] else w', ?_, ?_⟩
  · cases panicked with
    | false => exact haside
    | true => exact haside.trans ⟨rfl, rfl, rfl, rfl, rfl, rfl, rfl, rfl, rfl, rfl, rfl⟩
  · simp only [joinWatchdog, Watchdog.join_of_run heq]
    rfl

end World

end BuildRound
