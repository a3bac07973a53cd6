import BuildRound.Proofs.Joining
import BuildRound.Proofs.Pace
import BuildRound.Watchdog.Duty

/-!
# Stopping is prompt

Once the progress is interrupted and the sleepers were woken, every wait of the watchdog ends at its next check, and
with the flag up no report begins but one that the thread is about to ask for. So each of its own steps brings the
thread closer to its end, whatever the others do in between.
-/

namespace BuildRound

/-! ## Interruption lasts -/

theorem Progress.interrupted_notice (i : Nat) (p : Progress) (o : Occurrence) :
    (p.notice i o).activity.interrupted = p.activity.interrupted := by
  unfold notice
  split
  · split
    · rename_i n _ _
      cases n with
      | enqueueing key =>
          cases key with
          | action action =>
              simp only [notify]
              split <;> rfl
          | _ => rfl
      | _ => rfl
    · rfl
  · split
    · unfold complete
      split <;> rfl
    · rfl
  · split <;> rfl
  · rfl

namespace World

variable {w w' : World}

/-- The progress that the watchdog watches is interrupted. -/
def IsInterrupted (w : World) : Prop :=
  ∃ p, w.progresses[w.watch.progress]? = some p ∧ p.activity.interrupted = true

/-- The thread stands where it stood, and nothing was taken back that ends it. -/
structure Spares (w w' : World) : Prop where
  dog : w'.watch.dog = w.watch.dog
  call : w'.watch.call = w.watch.call
  stage : w'.watch.stage = w.watch.stage
  progress : w'.watch.progress = w.watch.progress
  progresses : ∀ (i : Nat) p, w.progresses[i]? = some p →
    ∃ q, w'.progresses[i]? = some q ∧ q.activity.interrupted = p.activity.interrupted

theorem Spares.of_progresses (hdog : w'.watch.dog = w.watch.dog) (hcall : w'.watch.call = w.watch.call)
    (hstage : w'.watch.stage = w.watch.stage) (hprogress : w'.watch.progress = w.watch.progress)
    (hprogresses : w'.progresses = w.progresses) : w.Spares w' :=
  ⟨hdog, hcall, hstage, hprogress, fun _ p hp => ⟨p, hprogresses ▸ hp, rfl⟩⟩

theorem Spares.refl (w : World) : w.Spares w :=
  .of_progresses rfl rfl rfl rfl rfl

theorem perform_spares (l : Option Nat) (w : World) (c : Command) : w.Spares (w.perform l c).2 := by
  have hwatch := watch_perform l w c
  refine ⟨by rw [hwatch], by rw [hwatch], by rw [hwatch], by rw [hwatch], fun i p hp => ?_⟩
  refine ⟨_, by rw [(w.perform_flow l c).progresses, hp]; rfl, ?_⟩
  exact p.interrupted_notice i _

theorem Spares.watched (h : w.Spares w') (hw : (w.progresses[w.watch.progress]?).isSome = true) :
    (w'.progresses[w'.watch.progress]?).isSome = true := by
  obtain ⟨p, hp⟩ := Option.isSome_iff_exists.mp hw
  obtain ⟨q, hq, -⟩ := h.progresses _ p hp
  simp [h.progress, hq]

theorem Spares.interrupted (h : w.Spares w') (hw : w.IsInterrupted) : w'.IsInterrupted := by
  obtain ⟨p, hp, hi⟩ := hw
  obtain ⟨q, hq, heq⟩ := h.progresses _ p hp
  exact ⟨q, by rw [h.progress, hq], heq.trans hi⟩

/-! ## A step of a thread that is to end -/

theorem progresses_moveWatchdog (w : World) : w.moveWatchdog.progresses = w.progresses := by
  unfold moveWatchdog Watchdog.step
  cases w.watch.dog.thread with
  | none => rfl
  | some loop => exact (advance_aside ..).progresses

theorem IsInterrupted.moveWatchdog (h : w.IsInterrupted) : w.moveWatchdog.IsInterrupted := by
  rw [IsInterrupted, w.moveWatchdog_flow.watch.progress, w.progresses_moveWatchdog]
  exact h

/-- It neither falls asleep nor comes to begin a report. -/
theorem Pace.of_ending {loop : Loop} (h : w.Pace w') (hthread : w.watch.dog.thread = some loop)
    (hending : w.Ending loop) (hstopping : w.watch.dog.stopping = true) :
    (∀ started, w'.watch.dog.thread ≠ some (.asleep started)) ∧
      (w'.watch.dog.thread = some .report → w'.watch.stage ≠ .idle) := by
  have hcheck : ∀ call, (w.checkWait call).1 = some (.error .interrupted) :=
    fun _ => checkWait_interrupted hending.interrupted
  cases h with
  | absent habsent => cases habsent.symm.trans hthread
  | sleep hasleep hcall =>
      cases hasleep.symm.trans hthread
      have hattended := hending.attended _ rfl
      simp [hcall] at hattended
  | enter | wake => simp [hcheck, Loop.afterWait]
  | head | judge => simp [hstopping]
  | _ => simp

theorem thread_moveWatchdog {loop : Loop} (h : w.watch.dog.thread = some loop) :
    w.moveWatchdog.watch.dog.thread =
      some (Watchdog.advance surroundings w.watch.dog.interval w.watch.dog.stopping loop w).1 := by
  simp [moveWatchdog, Watchdog.step, h, withDog]

theorem stage_moveWatchdog {loop : Loop} (h : w.watch.dog.thread = some loop) :
    w.moveWatchdog.watch.stage =
      (Watchdog.advance surroundings w.watch.dog.interval w.watch.dog.stopping loop w).2.watch.stage := by
  simp [moveWatchdog, Watchdog.step, h, withDog]

/-- Each step leaves fewer steps, until the thread is at its end. -/
theorem left_moveWatchdog {loop : Loop} (hthread : w.watch.dog.thread = some loop)
    (hstopping : w.watch.dog.stopping = true) (hending : w.Ending loop) :
    w.moveWatchdog.watch.dog.thread.elim 0 (Loop.left w.moveWatchdog.watch.stage) ≤
      loop.left w.watch.stage - 1 := by
  rw [thread_moveWatchdog hthread, stage_moveWatchdog hthread, hstopping, Option.elim_some]
  cases hended : loop.isEnded with
  | true =>
      cases loop with
      | ended panicked => exact Nat.zero_le _
      | _ => cases hended
  | false => exact Nat.le_sub_one_of_lt (advance_left _ hending hended)

theorem moveWatchdog_of_absent (h : w.watch.dog.thread = none) : w.moveWatchdog = w := by
  simp [moveWatchdog, Watchdog.step, h, withDog]

theorem thread_joinWatchdog {panicked : Bool} (h : w.watch.dog.thread = some (.ended panicked)) :
    w.joinWatchdog.watch.dog.thread = none := by
  have hrun := Watchdog.run_of_ended (s := surroundings) h Watchdog.joinBound w
  simp only [joinWatchdog, Watchdog.join_of_run hrun]
  cases panicked <;> rfl

end World

namespace Duty

variable {d : Duty}

/-! ## What is asked -/

/-- The reports that the thread asks for in its next step. -/
def due (d : Duty) : Nat :=
  if d.thread = some .report ∧ d.stage = .idle then 1 else 0

theorem countP_inquiries (d : Duty) : (inquiries d.world).countP Inquiry.isReport = d.due := by
  have hanswers : ∀ answer : Option (Except Interrupted Nat),
      (answer.toList.map Inquiry.answered).countP Inquiry.isReport = 0 := by
    intro answer
    cases answer <;> rfl
  unfold inquiries due thread stage
  cases hthread : d.world.watch.dog.thread with
  | none => rfl
  | some loop =>
      cases loop with
      | enter started => exact hanswers _
      | asleep started => exact hanswers _
      | report => cases d.world.watch.stage <;> rfl
      | _ => rfl

theorem answer_of_ending {w : World} {loop : Loop} (hthread : w.watch.dog.thread = some loop) (h : w.Ending loop)
    {answer : Except Interrupted Nat} (hmem : .answered answer ∈ inquiries w) : answer = .error .interrupted := by
  have hcheck : ∀ call, (w.checkWait call).1 = some (.error .interrupted) :=
    fun _ => World.checkWait_interrupted h.interrupted
  simp only [inquiries, hthread] at hmem
  cases loop with
  | enter started => simpa [World.surroundings, hcheck] using hmem
  | asleep started =>
      obtain ⟨call, hcall⟩ := Option.isSome_iff_exists.mp (h.attended started rfl)
      simpa [World.surroundings, hcall, hcheck] using hmem
  | report => by_cases hidle : w.watch.stage = .idle <;> simp [hidle] at hmem
  | _ => simp at hmem

/-! ## The invariant -/

theorem napAfter_of_not_asleep {w : World} (h : ∀ started, w.watch.dog.thread ≠ some (.asleep started)) :
    napAfter w = .awake := by
  unfold napAfter
  split
  · rename_i hasleep
    exact absurd hasleep (h _)
  · rfl

theorem napAfter_ne_awake {w : World} :
    napAfter w ≠ .awake ↔ ∃ started, w.watch.dog.thread = some (.asleep started) := by
  unfold napAfter
  split <;> simp_all

/-- How many steps stopping has taken. -/
def Stop.place : Stop → Nat
  | calling => 0
  | flagged => 1
  | interrupted => 2
  | joining => 3
  | returned => 4

/-- Before the thread is joined: what each step of stopping has brought about. -/
structure Active (d : Duty) : Prop where
  ongoing : d.stop ≠ .returned
  present : d.thread.isSome = true
  dozing : d.nap ≠ .awake ↔ ∃ started, d.thread = some (.asleep started)
  attended : d.world.watch.Attended
  watched : (d.world.progresses[d.world.watch.progress]?).isSome = true
  flagged : 1 ≤ d.stop.place → d.world.watch.dog.stopping = true
  interrupted : 2 ≤ d.stop.place → d.world.IsInterrupted ∧ d.nap ≠ .holding
  woken : 3 ≤ d.stop.place → d.nap ≠ .asleep false

/-- Afterwards nobody is left. -/
structure Over (d : Duty) : Prop where
  returned : d.stop = .returned
  absent : d.thread = none
  awake : d.nap = .awake

namespace Active

theorem ending (h : d.Active) (hplace : 2 ≤ d.stop.place) {loop : Loop} (hthread : d.thread = some loop) :
    d.world.Ending loop :=
  ⟨(h.interrupted hplace).1, fun started heq => h.attended started (heq ▸ hthread)⟩

theorem spared {w : World} (h : d.Active) (hw : d.world.Spares w) : Active { d with world := w } where
  ongoing := h.ongoing
  present := by simpa only [thread, hw.dog] using h.present
  dozing := by simpa only [thread, hw.dog] using h.dozing
  attended := by
    intro started hasleep
    rw [hw.dog] at hasleep
    rw [hw.call]
    exact h.attended started hasleep
  watched := hw.watched h.watched
  flagged hplace := by simpa only [hw.dog] using h.flagged hplace
  interrupted hplace := (h.interrupted hplace).imp_left hw.interrupted
  woken := h.woken

/-- The sleep changes, but there is one as before. -/
theorem dozed {nap : Nap} (h : d.Active) (hnap : nap ≠ .awake ↔ d.nap ≠ .awake)
    (hholding : 2 ≤ d.stop.place → nap ≠ .holding) (hasleep : 3 ≤ d.stop.place → nap ≠ .asleep false) :
    Active { d with nap } where
  ongoing := h.ongoing
  present := h.present
  dozing := hnap.trans h.dozing
  attended := h.attended
  watched := h.watched
  flagged := h.flagged
  interrupted hplace := ⟨(h.interrupted hplace).1, hholding hplace⟩
  woken := hasleep

theorem wake (h : d.Active) : Active { d with nap := d.nap.wake } := by
  refine h.dozed ?_ (fun hplace => ?_) (fun _ => ?_)
  · cases d.nap <;> simp [Nap.wake]
  · have hnap := (h.interrupted hplace).2
    cases hd : d.nap <;> simp_all [Nap.wake]
  · cases d.nap <;> simp [Nap.wake]

theorem proceed (h : d.Active) : d.proceed.Active := by
  have hwatch := d.world.moveWatchdog_flow.watch
  have hawake : 2 ≤ d.stop.place → napAfter d.world.moveWatchdog = .awake := by
    intro hplace
    obtain ⟨loop, hthread⟩ := Option.isSome_iff_exists.mp h.present
    refine napAfter_of_not_asleep (d.world.moveWatchdog_pace.of_ending hthread (h.ending hplace hthread) ?_).1
    exact h.flagged (Nat.le_of_succ_le hplace)
  exact {
    ongoing := h.ongoing
    present := hwatch.running.trans h.present
    dozing := napAfter_ne_awake
    attended := hwatch.attended h.attended
    watched := by
      rw [Duty.proceed, hwatch.progress, World.progresses_moveWatchdog]
      exact h.watched
    flagged := fun hplace => hwatch.stopping.trans (h.flagged hplace)
    interrupted := fun hplace => ⟨(h.interrupted hplace).1.moveWatchdog, by simp [Duty.proceed, hawake hplace]⟩
    woken := fun hplace => by simp [Duty.proceed, hawake (Nat.le_of_succ_le hplace)] }

theorem attend (h : d.Active) : d.attend.Active := by
  unfold Duty.attend
  split
  · rename_i hnap
    exact h.dozed (by simp [hnap]) (by simp)
      (fun hplace => absurd hnap (h.interrupted (Nat.le_of_succ_le hplace)).2)
  · rename_i hnap
    exact h.dozed (by simp [hnap]) (by simp) (by simp)
  · exact h.proceed
  · exact h.proceed

/-- Joining waits for the end of the thread. -/
theorem halt_joining (h : d.Active) (hstop : d.stop = .joining) : d.halt = d ∨
    d.halt.Over ∧ d.halt.asked = d.asked ∧ ∃ panicked, d.thread = some (.ended panicked) := by
  obtain ⟨loop, hthread⟩ := Option.isSome_iff_exists.mp h.present
  simp only [Duty.halt, hstop, hthread]
  cases loop with
  | ended panicked =>
      have hawake : d.nap = .awake := by
        by_contra hasleep
        obtain ⟨started, heq⟩ := h.dozing.mp hasleep
        cases hthread.symm.trans heq
      exact .inr ⟨⟨rfl, World.thread_joinWatchdog hthread, hawake⟩, rfl, panicked, rfl⟩
  | _ => exact .inl rfl

theorem halt (h : d.Active) : d.halt.Active ∨ d.halt.Over := by
  obtain ⟨world, nap, stop, asked⟩ := d
  cases stop with
  | calling =>
      exact .inl { h with
        ongoing := by simp [Duty.halt]
        flagged := fun _ => rfl
        interrupted := fun hplace => absurd hplace (by simp [Duty.halt, Stop.place])
        woken := fun hplace => absurd hplace (by simp [Duty.halt, Stop.place]) }
  | flagged =>
      by_cases hholding : nap = .holding
      · simp only [Duty.halt, if_pos hholding]
        exact .inl h
      · obtain ⟨p, hp⟩ := Option.isSome_iff_exists.mp h.watched
        have hinterrupted : (World.surroundings.interrupt world).progresses[world.watch.progress]? =
            some p.interruptWaiters := by
          rw [World.surroundings, World.getElem?_onProgress, hp]
          simp
        simp only [Duty.halt, if_neg hholding]
        exact .inl { h with
          ongoing := by simp
          watched := Option.isSome_of_eq_some hinterrupted
          flagged := fun _ => h.flagged (Nat.le_refl 1)
          interrupted := fun _ => ⟨⟨_, hinterrupted, rfl⟩, hholding⟩
          woken := fun hplace => absurd hplace (by simp [Stop.place]) }
  | interrupted =>
      have hwake := h.wake
      exact .inl { hwake with
        ongoing := by simp [Duty.halt]
        flagged := fun _ => hwake.flagged (by simp [Stop.place])
        interrupted := fun _ => hwake.interrupted (Nat.le_refl 2)
        woken := fun _ => by cases nap <;> simp [Duty.halt, Nap.wake] }
  | joining =>
      rcases h.halt_joining rfl with hkept | ⟨hover, -⟩
      · exact .inl (hkept.symm ▸ h)
      · exact .inr hover
  | returned => exact absurd rfl h.ongoing

end Active

/-- The steps of everyone but the thread and whoever stops it. -/
theorem beat_cases (d : Duty) (b : Beat) : (b = .watchdog ∧ d.beat b = d.attend) ∨ (b = .stopper ∧ d.beat b = d.halt) ∨
    (b.isWatchdog = false ∧ (d.beat b = { d with nap := d.nap.wake } ∨
      ∃ w, d.world.Spares w ∧ d.beat b = { d with world := w })) := by
  cases b with
  | watchdog => exact .inl ⟨rfl, rfl⟩
  | stopper => exact .inr (.inl ⟨rfl, rfl⟩)
  | wake => exact .inr (.inr ⟨rfl, .inl rfl⟩)
  | perform listener command =>
      refine .inr (.inr ⟨rfl, .inr ?_⟩)
      by_cases hlocked : d.nap = .holding ∧ needsLock d.world.watch.progress command
      · exact ⟨d.world, .refl _, by simp only [beat, if_pos hlocked]⟩
      · exact ⟨_, d.world.perform_spares listener command, by simp only [beat, if_neg hlocked]⟩
  | exclude =>
      refine .inr (.inr ⟨rfl, .inr ⟨{ d.world with watch := { d.world.watch with exclusive := true } }, ?_, rfl⟩⟩)
      exact .of_progresses rfl rfl rfl rfl rfl
  | pass duration =>
      exact .inr (.inr ⟨rfl, .inr ⟨d.world.move (.pass duration), .of_progresses rfl rfl rfl rfl rfl, rfl⟩⟩)
  | cancel token =>
      exact .inr (.inr ⟨rfl, .inr ⟨d.world.move (.cancel token), .of_progresses rfl rfl rfl rfl rfl, rfl⟩⟩)

theorem Active.beat (h : d.Active) (b : Beat) : (d.beat b).Active ∨ (d.beat b).Over := by
  rcases d.beat_cases b with ⟨-, heq⟩ | ⟨-, heq⟩ | ⟨-, heq | ⟨w, hw, heq⟩⟩ <;> rw [heq]
  · exact .inl h.attend
  · exact h.halt
  · exact .inl h.wake
  · exact .inl (h.spared hw)

theorem Over.beat (h : d.Over) (b : Beat) : (d.beat b).Over ∧ (d.beat b).asked = d.asked := by
  rcases d.beat_cases b with ⟨-, heq⟩ | ⟨-, heq⟩ | ⟨-, heq | ⟨w, hw, heq⟩⟩ <;> rw [heq]
  · have habsent : d.world.watch.dog.thread = none := h.absent
    simp only [attend, h.awake, proceed, World.moveWatchdog_of_absent habsent]
    exact ⟨⟨h.returned, h.absent, by simp [napAfter, habsent]⟩, by simp [inquiries, habsent]⟩
  · have hkept : d.halt = d := by simp [halt, h.returned]
    exact ⟨hkept.symm ▸ h, congrArg asked hkept⟩
  · exact ⟨⟨h.returned, h.absent, by simp [h.awake, Nap.wake]⟩, rfl⟩
  · exact ⟨⟨h.returned, by simpa only [thread, hw.dog] using h.absent, h.awake⟩, rfl⟩

theorem Over.run (h : d.Over) (beats : List Beat) : (d.run beats).Over ∧ (d.run beats).asked = d.asked := by
  induction beats generalizing d with
  | nil => exact ⟨h, rfl⟩
  | cons b beats ih =>
      obtain ⟨hover, hasked⟩ := h.beat b
      obtain ⟨hover', hasked'⟩ := ih hover
      exact ⟨hover', hasked'.trans hasked⟩

theorem Active.run (h : d.Active) (beats : List Beat) : (d.run beats).Active ∨ (d.run beats).Over := by
  induction beats generalizing d with
  | nil => exact .inl h
  | cons b beats ih =>
      rcases h.beat b with hactive | hover
      · exact ih hactive
      · exact .inr (hover.run beats).1

theorem Reachable.sound (h : d.Reachable) : d.Active ∨ d.Over := by
  obtain ⟨w, beats, hthread, hwatched, rfl⟩ := h
  refine Active.run ?_ beats
  exact {
    ongoing := by simp
    present := by simp [thread, hthread]
    dozing := by simp [thread, hthread]
    attended := fun started hasleep => by simp [hthread] at hasleep
    watched := hwatched
    flagged := by simp [Stop.place]
    interrupted := by simp [Stop.place]
    woken := by simp [Stop.place] }

/-! ## From the moment the sleepers were woken -/

/-- One more step for who is asleep. -/
def Nap.left : Nap → Nat
  | asleep _ => 1
  | _ => 0

@[simp]
theorem left_napAfter (w : World) : (napAfter w).left = 0 := by
  unfold napAfter
  split <;> rfl

/-- The steps that are left of the thread. -/
def left (d : Duty) : Nat :=
  d.thread.elim 0 (Loop.left d.stage) + d.nap.left

/-- The progress is interrupted and the sleepers were woken, or it is all over. -/
def Stopped (d : Duty) : Prop :=
  d.Active ∧ d.stop = .joining ∨ d.Over

/-- What further steps come to, `n` of them the thread's own. -/
structure Dwindles (d : Duty) (n : Nat) (d' : Duty) : Prop where
  asked : ∃ later, d'.asked = d.asked ++ later ∧
    (∀ answer, .answered answer ∈ later → answer = .error .interrupted) ∧
      later.countP Inquiry.isReport + d'.due ≤ d.due
  left : d'.left ≤ d.left - n

namespace Dwindles

variable {d' d'' : Duty} {m n : Nat}

theorem of_eq (hasked : d'.asked = d.asked) (hdue : d'.due ≤ d.due) (hleft : d'.left ≤ d.left - n) :
    d.Dwindles n d' :=
  ⟨⟨[], by simp [hasked], by simp, by simpa using hdue⟩, hleft⟩

theorem trans (h : d.Dwindles m d') (k : d'.Dwindles n d'') : d.Dwindles (m + n) d'' := by
  obtain ⟨u, hu, hanswers, hreports⟩ := h.asked
  obtain ⟨v, hv, hanswers', hreports'⟩ := k.asked
  refine ⟨⟨u ++ v, by rw [hv, hu, List.append_assoc], fun answer hmem => ?_, ?_⟩, ?_⟩
  · exact (List.mem_append.mp hmem).elim (hanswers answer) (hanswers' answer)
  · rw [List.countP_append]
    omega
  · have hleft := h.left
    have hleft' := k.left
    omega

end Dwindles

theorem dwindles_spared {w : World} (hw : d.world.Spares w) : d.Dwindles 0 { d with world := w } := by
  refine .of_eq rfl (Nat.le_of_eq ?_) (Nat.le_of_eq ?_)
  · rw [due, due, thread, thread, stage, stage, hw.dog, hw.stage]
  · rw [left, left, thread, thread, stage, stage, hw.dog, hw.stage, Nat.sub_zero]

theorem Active.dwindles_proceed (h : d.Active) (hplace : 2 ≤ d.stop.place) : d.Dwindles 1 d.proceed := by
  obtain ⟨loop, hthread⟩ := Option.isSome_iff_exists.mp h.present
  have hending := h.ending hplace hthread
  have hflag := h.flagged (Nat.le_of_succ_le hplace)
  obtain ⟨-, hreport⟩ := d.world.moveWatchdog_pace.of_ending hthread hending hflag
  refine ⟨⟨inquiries d.world, rfl, fun _ => answer_of_ending hthread hending, ?_⟩, ?_⟩
  · have hdue : d.proceed.due = 0 := if_neg (fun hdue => hreport hdue.1 hdue.2)
    rw [countP_inquiries, hdue]
    exact Nat.le_refl _
  · have hleft := World.left_moveWatchdog hthread hflag hending
    simp only [left, Duty.proceed, thread, stage, left_napAfter, Nat.add_zero] at hthread ⊢
    rw [hthread, Option.elim_some]
    omega

theorem Active.dwindles_attend (h : d.Active) (hstop : d.stop = .joining) : d.Dwindles 1 d.attend := by
  have hinterrupted : 2 ≤ d.stop.place := by simp [hstop, Stop.place]
  unfold Duty.attend
  split
  · rename_i hnap
    exact absurd hnap (h.interrupted hinterrupted).2
  · rename_i hnap
    exact .of_eq rfl (Nat.le_refl _) (by simp [left, hnap, Nap.left, thread, stage])
  · exact h.dwindles_proceed hinterrupted
  · exact h.dwindles_proceed hinterrupted

theorem dwindles_wake (d : Duty) : d.Dwindles 0 { d with nap := d.nap.wake } := by
  refine .of_eq rfl (Nat.le_refl _) (Nat.le_of_eq ?_)
  have hnap : d.nap.wake.left = d.nap.left := by cases d.nap <;> rfl
  simp only [left, hnap, Nat.sub_zero]
  rfl

theorem Over.due_eq (h : d.Over) : d.due = 0 := by
  simp [due, h.absent]

theorem Over.left_eq (h : d.Over) : d.left = 0 := by
  simp [left, h.absent, h.awake, Nap.left]

theorem Over.dwindles {d' : Duty} (h : d'.Over) (hasked : d'.asked = d.asked) (n : Nat) : d.Dwindles n d' :=
  .of_eq hasked (by simp [h.due_eq]) (by simp [h.left_eq])

theorem Active.dwindles_halt (h : d.Active) (hstop : d.stop = .joining) : d.Dwindles 0 d.halt := by
  rcases h.halt_joining hstop with hkept | ⟨hover, hasked, -⟩
  · rw [hkept]
    exact .of_eq rfl (Nat.le_refl _) (Nat.le_refl _)
  · exact hover.dwindles hasked 0

theorem stop_attend (d : Duty) : d.attend.stop = d.stop := by
  unfold attend
  split <;> rfl

theorem Stopped.beat (h : d.Stopped) (b : Beat) :
    (d.beat b).Stopped ∧ d.Dwindles b.isWatchdog.toNat (d.beat b) := by
  rcases h with ⟨hactive, hjoining⟩ | hover
  · rcases d.beat_cases b with ⟨rfl, heq⟩ | ⟨rfl, heq⟩ | ⟨hother, heq | ⟨w, hw, heq⟩⟩ <;> rw [heq]
    · exact ⟨.inl ⟨hactive.attend, d.stop_attend.trans hjoining⟩, hactive.dwindles_attend hjoining⟩
    · refine ⟨?_, hactive.dwindles_halt hjoining⟩
      rcases hactive.halt_joining hjoining with hkept | ⟨hover, -⟩
      · exact hkept.symm ▸ .inl ⟨hactive, hjoining⟩
      · exact .inr hover
    · exact ⟨.inl ⟨hactive.wake, hjoining⟩, hother ▸ d.dwindles_wake⟩
    · exact ⟨.inl ⟨hactive.spared hw, hjoining⟩, hother ▸ dwindles_spared hw⟩
  · obtain ⟨hover', hasked⟩ := hover.beat b
    exact ⟨.inr hover', hover'.dwindles hasked _⟩

theorem Stopped.run (h : d.Stopped) (beats : List Beat) :
    (d.run beats).Stopped ∧ d.Dwindles (beats.countP Beat.isWatchdog) (d.run beats) := by
  induction beats generalizing d with
  | nil => exact ⟨h, .of_eq rfl (Nat.le_refl _) (Nat.le_refl _)⟩
  | cons b beats ih =>
      obtain ⟨hstopped, hone⟩ := h.beat b
      obtain ⟨hstopped', hrest⟩ := ih hstopped
      have hcount : (b :: beats).countP Beat.isWatchdog = b.isWatchdog.toNat + beats.countP Beat.isWatchdog := by
        rw [List.countP_cons, Nat.add_comm]
        cases b.isWatchdog <;> rfl
      rw [hcount]
      exact ⟨hstopped', hone.trans hrest⟩

theorem Active.left_le (h : d.Active) : d.left ≤ Watchdog.joinBound := by
  obtain ⟨loop, hthread⟩ := Option.isSome_iff_exists.mp h.present
  by_cases hnap : d.nap = .awake
  · simpa [left, hthread, hnap, Nap.left] using loop.left_le d.stage
  · obtain ⟨started, hasleep⟩ := h.dozing.mp hnap
    have hone : d.nap.left ≤ 1 := by cases d.nap <;> simp [Nap.left]
    simp only [left, hasleep, Option.elim_some, Loop.left, Watchdog.joinBound]
    omega

theorem Active.ended_of_left (h : d.Active) (hleft : d.left = 0) :
    ∃ panicked, d.thread = some (.ended panicked) := by
  obtain ⟨loop, hthread⟩ := Option.isSome_iff_exists.mp h.present
  simp only [left, hthread, Option.elim_some, Nat.add_eq_zero_iff] at hleft
  cases loop with
  | ended panicked => exact ⟨panicked, hthread⟩
  | report => exact absurd d.stage.two_lt_left (by simp [Loop.left] at hleft; omega)
  | _ => simp [Loop.left] at hleft

theorem Stopped.unblocked (h : d.Stopped) : d.nap ≠ .holding ∧ d.nap ≠ .asleep false := by
  rcases h with ⟨hactive, hjoining⟩ | hover
  · exact ⟨(hactive.interrupted (by simp [hjoining, Stop.place])).2, hactive.woken (by simp [hjoining, Stop.place])⟩
  · simp [hover.awake]

theorem Stopped.ended_of_returned (h : d.Stopped) {b : Beat} (hongoing : d.stop ≠ .returned)
    (hreturned : (d.beat b).stop = .returned) : ∃ panicked, d.thread = some (.ended panicked) := by
  rcases h with ⟨hactive, hjoining⟩ | hover
  · rcases d.beat_cases b with ⟨-, heq⟩ | ⟨-, heq⟩ | ⟨-, heq | ⟨w, -, heq⟩⟩ <;> rw [heq] at hreturned
    · exact absurd (d.stop_attend.symm.trans hreturned) hongoing
    · rcases hactive.halt_joining hjoining with hkept | ⟨-, -, hended⟩
      · exact absurd ((congrArg stop hkept).symm.trans hreturned) hongoing
      · exact hended
    · exact absurd hreturned hongoing
    · exact absurd hreturned hongoing
  · exact absurd hover.returned hongoing

/-- A report is asked for only by a thread that was about to, and then only one. -/
theorem Dwindles.questions {d' : Duty} {n : Nat} (h : d.Dwindles n d') : ∃ later, d'.asked = d.asked ++ later ∧
    (∀ answer, .answered answer ∈ later → answer = .error .interrupted) ∧
      later.countP Inquiry.isReport ≤ 1 ∧
      (.report ∈ later → d.thread = some .report ∧ d.stage = .idle) := by
  obtain ⟨later, hasked, hanswers, hreports⟩ := h.asked
  have hdue : d.due ≤ 1 := by
    unfold due
    split <;> simp
  refine ⟨later, hasked, hanswers, by omega, fun hmem => ?_⟩
  have hpos : 0 < later.countP Inquiry.isReport := List.countP_pos_iff.mpr ⟨_, hmem, rfl⟩
  by_contra hnot
  have hnone : d.due = 0 := if_neg hnot
  omega

/-! ## Stopping -/

/-- Whatever the watchdog was doing when it was told to stop: once the progress is interrupted and the sleepers were
woken, no wait of the thread goes to sleep or sleeps on, each that ends was interrupted, and at most one more report
is asked for, which the thread was about to do. After so many steps of its own as `joinBound` says, whatever others do
in between, the thread is at its end and can be joined. It is joined at its end only, and asks nothing more then. -/
theorem stop_is_prompt (hreachable : d.Reachable) (hjoining : d.stop = .joining) (beats : List Beat) :
    let d' := d.run beats
    (d'.nap ≠ .holding ∧ d'.nap ≠ .asleep false) ∧
    (∃ later, d'.asked = d.asked ++ later ∧
      (∀ answer, .answered answer ∈ later → answer = .error .interrupted) ∧
      later.countP Inquiry.isReport ≤ 1 ∧
      (.report ∈ later → d.thread = some .report ∧ d.stage = .idle)) ∧
    (Watchdog.joinBound ≤ beats.countP Beat.isWatchdog → d'.stop ≠ .returned →
      (∃ panicked, d'.thread = some (.ended panicked)) ∧ (d'.beat .stopper).stop = .returned) ∧
    (∀ b, d'.stop ≠ .returned → (d'.beat b).stop = .returned → ∃ panicked, d'.thread = some (.ended panicked)) ∧
    (d'.stop = .returned → d'.thread = none ∧ ∀ more, (d'.run more).asked = d'.asked) := by
  intro d'
  have hactive : d.Active := by
    rcases hreachable.sound with hactive | hover
    · exact hactive
    · cases hjoining.symm.trans hover.returned
  obtain ⟨hstopped, hdwindles⟩ := Stopped.run (.inl ⟨hactive, hjoining⟩) beats
  refine ⟨hstopped.unblocked, hdwindles.questions, fun hmany hongoing => ?_,
    fun b => hstopped.ended_of_returned, fun hreturned => ?_⟩
  · rcases hstopped with ⟨hactive', hjoining'⟩ | hover
    · have hbound := hactive.left_le
      have hdone : d'.left ≤ d.left - beats.countP Beat.isWatchdog := hdwindles.left
      obtain ⟨panicked, hended⟩ := hactive'.ended_of_left (show d'.left = 0 by omega)
      refine ⟨⟨panicked, hended⟩, ?_⟩
      simp [beat, halt, d', hjoining', hended, Loop.isEnded]
    · exact absurd hover.returned hongoing
  · rcases hstopped with ⟨hactive', -⟩ | hover
    · exact absurd hreturned hactive'.ongoing
    · exact ⟨hover.absent, fun more => (hover.run more).2⟩

/-- The flag goes up when the thread has looked at it for the last time before a report. -/
def late : Duty :=
  let posted : World :=
    { progresses := [{ requested := .empty, built := .empty, enqueued := [⟨"a"⟩] }]
      watch := ⟨((Watchdog.ofInterval 0).start true).2, 0, 0, false, none, .idle⟩ }
  let waited : List Beat := List.replicate 4 .watchdog ++ [.pass Watchdog.minInterval]
  run { world := posted } (waited ++ List.replicate 3 .watchdog ++ List.replicate 3 .stopper)

theorem stop_is_prompt_late : late.Reachable ∧ late.stop = .joining ∧ late.thread = some .report ∧
    (∃ later, (late.run (List.replicate 16 .watchdog)).asked = late.asked ++ later ∧
      later.countP Inquiry.isReport ≤ 1) ∧
    ((late.run (List.replicate 16 .watchdog)).beat .stopper).stop = .returned := by
  have hreachable : late.Reachable := ⟨_, _, rfl, rfl, rfl⟩
  have hjoining : late.stop = .joining := by decide
  obtain ⟨-, ⟨later, hasked, -, hreports, -⟩, hended, -⟩ :=
    stop_is_prompt hreachable hjoining (List.replicate 16 .watchdog)
  exact ⟨hreachable, hjoining, by decide, ⟨later, hasked, hreports⟩, (hended (by decide) (by decide)).2⟩

end Duty

end BuildRound
