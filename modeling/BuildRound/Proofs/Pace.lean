import BuildRound.Proofs.Bookkeeping
import BuildRound.Proofs.Flow
import Mathlib.Data.List.Infix

/-!
# The pace of the watchdog

What one step of the watchdog's thread does, and what the steps of everyone else leave as they are. Beside the
watchdog time passes, the engine works, the round begins to build exclusively or stops the watchdog. None of that
takes anything back: the clock and the counts only go forward, and the flag for exclusive building stays up.
-/

namespace BuildRound

/-! ## Counts only grow -/

/-- All actions that the one progress counted are counted in the other. -/
structure Progress.Grows (p q : Progress) : Prop where
  enqueued : p.enqueued <:+ q.enqueued
  completed : p.activity.completed <:+ q.activity.completed

namespace Progress

theorem Grows.refl (p : Progress) : p.Grows p :=
  ⟨List.suffix_rfl, List.suffix_rfl⟩

theorem suffix_entered (ids : List ActionId) (o : Option ActionId) : ids <:+ entered ids o := by
  cases o with
  | none => exact List.suffix_rfl
  | some id => exact List.suffix_insert id ids

theorem grows_hear (p : Progress) (m : Message) : p.Grows (p.hear m) := by
  obtain ⟨-, henqueued, hcompleted⟩ := p.hear_frame m
  exact ⟨henqueued ▸ suffix_entered _ _, hcompleted ▸ suffix_entered _ _⟩

theorem grows_notice (i : Nat) (p : Progress) (o : Occurrence) : p.Grows (p.notice i o) := by
  unfold notice
  split
  · split
    · exact p.grows_hear (.notify _)
    · exact .refl p
  · split
    · exact p.grows_hear (.complete _)
    · exact .refl p
  · split <;> exact ⟨List.suffix_rfl, List.suffix_rfl⟩
  · exact .refl p

end Progress

/-! ## How a wait ends -/

/-- A wait that saw nothing has lasted its whole time, and nothing completed since it began. -/
theorem Wait.of_check_zero {call : Wait} {now : Nanos} {a : Activity} (h : call.check now a = some (.ok 0)) :
    a.completed.length ≤ call.before ∧ call.timeout ≤ now - call.start := by
  unfold check at h
  split at h
  · cases h
  · split at h
    · rename_i hcompleted
      have hzero := Except.ok.inj (Option.some.inj h)
      omega
    · split at h
      · rename_i hquiet hlong
        exact ⟨by omega, hlong⟩
      · cases h

theorem Loop.afterWait_cases (started : Bool) (answer : Option (Except Interrupted Nat)) :
    (afterWait started answer = asleep started ∧ answer = none) ∨
      (afterWait started answer = judge ∧ started = true ∧ answer = some (.ok 0)) ∨
      afterWait started answer = head ∨ afterWait started answer = ended false := by
  rcases answer with - | - | - | n
  · exact .inl ⟨rfl, rfl⟩
  · exact .inr (.inr (.inr rfl))
  · cases started with
    | false => exact .inr (.inr (.inl rfl))
    | true => exact .inr (.inl ⟨rfl, rfl, rfl⟩)
  · exact .inr (.inr (.inl rfl))

/-- The reports that are logged and still to be counted. -/
def ReportStage.owed : ReportStage → Nat
  | .tally => 1
  | _ => 0

namespace World

variable {w w' : World}

/-! ## What the watchdog looks at -/

def activity (w : World) : Activity :=
  w.readProgress w.watch.progress Progress.activity {}

def hasStarted (w : World) : Bool :=
  w.readProgress w.watch.progress Progress.hasStarted false

/-- The reports that the watchdog has logged. -/
def reports (w : World) : List String :=
  w.log.filterMap fun
    | (.watchdog, .event .warn text _) => some text
    | _ => none

/-- How many reports the board has counted. -/
def shown (w : World) : Nat :=
  w.readBoard w.watch.board Board.reportsShown 0

theorem reports_say (w : World) (entries : List Log.Entry) : (w.say .caller entries).reports = w.reports := by
  simp [reports, say]

theorem shown_onBoard (w : World) (i : Nat) {f : Board → Board}
    (hf : ∀ b, (f b).reportsShown = b.reportsShown) : (w.onBoard i f).shown = w.shown := by
  simp only [shown, readBoard, onBoard, List.getElem?_modify]
  cases w.boards[w.watch.board]? with
  | none => rfl
  | some b => by_cases h : i = w.watch.board <;> simp [h, hf]

theorem shown_countReport (w : World) (i : Nat) (hboard : (w.boards[w.watch.board]?).isSome = true) :
    (w.onBoard i Board.countReport).shown = w.shown + if i = w.watch.board then 1 else 0 := by
  obtain ⟨b, hb⟩ := Option.isSome_iff_exists.mp hboard
  simp only [shown, readBoard, onBoard, List.getElem?_modify, hb]
  by_cases h : i = w.watch.board <;> simp [h, Board.countReport]

theorem shown_dismissBoard (w : World) (i : Nat) : (w.dismissBoard i).shown = w.shown := by
  rw [dismissBoard_eq]
  exact shown_onBoard w i (fun _ => rfl)

/-! ## What happens -/

/-- One step of any thread: time passes, the watchdog moves or a token is cancelled, an engine's thread issues a
command, the round begins to build exclusively, raises the stop flag, or interrupts the watchdog's wait. -/
inductive Happening where
  | move (m : Move)
  | perform (listener : Option Nat) (command : Command)
  | exclude
  | stop
  | interrupt

/-- How many reports on the board are counted by what happens, other than by the watchdog. -/
def Happening.counted (board : Nat) : Happening → Nat
  | .perform _ (.countReport i) => if i = board then 1 else 0
  | _ => 0

def happen (w : World) : Happening → World
  | .move m => w.move m
  | .perform listener command => (w.perform listener command).2
  | .exclude => { w with watch := { w.watch with exclusive := true } }
  | .stop => withDog ({ w.watch.dog with stopping := true }, w)
  | .interrupt => surroundings.interrupt w

/-! ## A step of the watchdog -/

/-- The thread stands elsewhere. -/
def stand (w : World) (loop : Loop) : World :=
  withDog ({ w.watch.dog with thread := some loop }, w)

/-- The report has come to another stage. -/
def staged (w : World) (stage : ReportStage) : World :=
  { w with watch := { w.watch with stage } }

/-- The steps that the thread of the watchdog takes. -/
inductive Pace (w : World) : World → Prop
  | absent (hthread : w.watch.dog.thread = none) : Pace w w
  | head (hthread : w.watch.dog.thread = some .head) :
      Pace w (w.stand (if w.watch.dog.stopping then .ended false else .ask))
  | ask (hthread : w.watch.dog.thread = some .ask) : Pace w (w.stand (.enter w.hasStarted))
  | enter {started : Bool} (hthread : w.watch.dog.thread = some (.enter started)) {call : Wait}
      (hcall : call = .enter w.watch.dog.interval w.clock w.activity) :
      Pace w ((w.checkWait call).2.stand (.afterWait started (w.checkWait call).1))
  | wake {started : Bool} (hthread : w.watch.dog.thread = some (.asleep started)) {call : Wait}
      (hcall : w.watch.call = some call) :
      Pace w ((w.checkWait call).2.stand (.afterWait started (w.checkWait call).1))
  | sleep {started : Bool} (hthread : w.watch.dog.thread = some (.asleep started))
      (hcall : w.watch.call = none) : Pace w (w.stand (.asleep started))
  | judge (hthread : w.watch.dog.thread = some .judge) :
      Pace w (w.stand (if w.watch.dog.stopping then .head else .report))
  | decline (hthread : w.watch.dog.thread = some .report) (hstage : w.watch.stage = .idle)
      (hexclusive : w.watch.exclusive = true) : Pace w (w.stand (.note false))
  | begin (hthread : w.watch.dog.thread = some .report) (hstage : w.watch.stage = .idle)
      (hexclusive : w.watch.exclusive = false) : Pace w ((w.staged .readCompleted).stand .report)
  | countCompleted (hthread : w.watch.dog.thread = some .report) (hstage : w.watch.stage = .readCompleted)
      (completed : Nat) : Pace w ((w.staged (.readEnqueued completed)).stand .report)
  | countEnqueued {completed : Nat} (hthread : w.watch.dog.thread = some .report)
      (hstage : w.watch.stage = .readEnqueued completed) (progress : String) :
      Pace w ((w.staged (.render progress)).stand .report)
  | drop {progress : String} (hthread : w.watch.dog.thread = some .report)
      (hstage : w.watch.stage = .render progress) : Pace w ((w.staged .idle).stand (.note false))
  | render {progress text : String} {b : Board} (hthread : w.watch.dog.thread = some .report)
      (hstage : w.watch.stage = .render progress) (hboard : w.boards[w.watch.board]? = some b)
      (htext : b.render progress w.clock = some text) : Pace w ((w.staged (.say text)).stand .report)
  | say {text : String} (hthread : w.watch.dog.thread = some .report) (hstage : w.watch.stage = .say text) :
      Pace w (((w.staged .tally).say .watchdog [.event .warn text []]).stand .report)
  | tally (hthread : w.watch.dog.thread = some .report) (hstage : w.watch.stage = .tally) :
      Pace w (((w.staged .idle).onBoard w.watch.board Board.countReport).stand (.note true))
  | note {reported : Bool} (hthread : w.watch.dog.thread = some (.note reported)) {pending : Nat} :
      Pace w ((w.say .watchdog [Watchdog.noteEntry pending reported]).stand .head)
  | ended {panicked : Bool} (hthread : w.watch.dog.thread = some (.ended panicked)) :
      Pace w (w.stand (.ended panicked))

theorem moveWatchdog_pace (w : World) : w.Pace w.moveWatchdog := by
  unfold moveWatchdog Watchdog.step
  cases hthread : w.watch.dog.thread with
  | none => exact .absent hthread
  | some loop =>
      cases loop with
      | head => exact .head hthread
      | ask => exact .ask hthread
      | enter started => exact .enter hthread rfl
      | asleep started =>
          cases hcall : w.watch.call with
          | none =>
              simp only [Watchdog.advance, surroundings, hcall]
              exact .sleep hthread hcall
          | some call =>
              simp only [Watchdog.advance, surroundings, hcall]
              exact .wake hthread hcall
      | judge => exact .judge hthread
      | note reported => exact .note hthread
      | ended panicked => exact .ended hthread
      | report =>
          cases hstage : w.watch.stage with
          | idle =>
              cases hexclusive : w.watch.exclusive with
              | true =>
                  simp only [Watchdog.advance, surroundings, advanceReport, hstage, hexclusive]
                  exact .decline hthread hstage hexclusive
              | false =>
                  have hclear : ¬ w.watch.exclusive = true := by simp [hexclusive]
                  simp only [Watchdog.advance, surroundings, advanceReport, hstage, if_neg hclear]
                  exact .begin hthread hstage hexclusive
          | readCompleted =>
              simp only [Watchdog.advance, surroundings, advanceReport, hstage]
              exact .countCompleted hthread hstage _
          | readEnqueued completed =>
              simp only [Watchdog.advance, surroundings, advanceReport, hstage]
              exact .countEnqueued hthread hstage _
          | render progress =>
              cases hboard : w.boards[w.watch.board]? with
              | none =>
                  simp only [Watchdog.advance, surroundings, advanceReport, hstage, readBoard, hboard]
                  exact .drop hthread hstage
              | some b =>
                  cases htext : b.render progress w.clock with
                  | none =>
                      simp only [Watchdog.advance, surroundings, advanceReport, hstage, readBoard, hboard, htext]
                      exact .drop hthread hstage
                  | some text =>
                      simp only [Watchdog.advance, surroundings, advanceReport, hstage, readBoard, hboard, htext]
                      exact .render hthread hstage hboard htext
          | say text =>
              simp only [Watchdog.advance, surroundings, advanceReport, hstage]
              exact .say hthread hstage
          | tally =>
              simp only [Watchdog.advance, surroundings, advanceReport, hstage]
              exact .tally hthread hstage

section

variable (w : World) (loop : Loop) (stage : ReportStage) (call : Wait)

@[simp] theorem thread_stand : (w.stand loop).watch.dog.thread = some loop := rfl

@[simp] theorem stage_stand : (w.stand loop).watch.stage = w.watch.stage := rfl

@[simp] theorem reports_stand : (w.stand loop).reports = w.reports := rfl

@[simp] theorem shown_stand : (w.stand loop).shown = w.shown := rfl

@[simp] theorem stage_staged : (w.staged stage).watch.stage = stage := rfl

@[simp] theorem reports_staged : (w.staged stage).reports = w.reports := rfl

@[simp] theorem shown_staged : (w.staged stage).shown = w.shown := rfl

@[simp] theorem watch_say (author : Author) (entries : List Log.Entry) :
    (w.say author entries).watch = w.watch := rfl

@[simp] theorem shown_say (author : Author) (entries : List Log.Entry) :
    (w.say author entries).shown = w.shown := rfl

theorem check_of_checkWait {answer : Except Interrupted Nat} (h : (w.checkWait call).1 = some answer) :
    call.check w.clock w.activity = some answer := by
  simp only [checkWait, activity, readProgress] at h ⊢
  cases hp : w.progresses[w.watch.progress]? with
  | none => simp [hp] at h
  | some p => simpa [hp] using h

/-- After a check the thread sleeps on in the same call, is to judge a wait that saw nothing, starts over or is at
its end. -/
theorem wait_cases (started : Bool) (call : Wait) :
    let next := (w.checkWait call).2.stand (.afterWait started (w.checkWait call).1)
    (next.watch.dog.thread = some (.asleep started) ∧ next.watch.call = some call) ∨
      (next.watch.dog.thread = some .judge ∧ started = true ∧
        call.check w.clock w.activity = some (.ok 0)) ∨
      next.watch.dog.thread = some .head ∨ next.watch.dog.thread = some (.ended false) := by
  intro next
  rcases Loop.afterWait_cases started (w.checkWait call).1 with ⟨heq, hnone⟩ | ⟨heq, hstarted, hzero⟩ | heq | heq
  · refine .inl ⟨congrArg some heq, ?_⟩
    simp only [checkWait] at hnone
    simp [next, stand, withDog, checkWait, hnone]
  · exact .inr (.inl ⟨congrArg some heq, hstarted, check_of_checkWait w call hzero⟩)
  · exact .inr (.inr (.inl (congrArg some heq)))
  · exact .inr (.inr (.inr (congrArg some heq)))

@[simp] theorem reports_note (pending : Nat) (reported : Bool) :
    (w.say .watchdog [Watchdog.noteEntry pending reported]).reports = w.reports := by
  simp [reports, say, Watchdog.noteEntry]

@[simp] theorem reports_warn (text : String) :
    (w.say .watchdog [.event .warn text []]).reports = w.reports ++ [text] := by
  simp [reports, say]

end

/-! ## What every step keeps -/

/-- Time and counts go forward, the watchdog keeps its post, and the flag for exclusive building stays up. -/
structure Advances (w w' : World) : Prop where
  clock : w.clock ≤ w'.clock
  progress : w'.watch.progress = w.watch.progress
  board : w'.watch.board = w.watch.board
  interval : w'.watch.dog.interval = w.watch.dog.interval
  exclusive : w.watch.exclusive = true → w'.watch.exclusive = true
  progresses : ∀ (i : Nat) p, w.progresses[i]? = some p → ∃ q, w'.progresses[i]? = some q ∧ p.Grows q
  boards : w'.boards.length = w.boards.length

theorem Advances.of_watch (hclock : w.clock ≤ w'.clock) (hwatch : w'.watch = w.watch)
    (hprogresses : ∀ (i : Nat) p, w.progresses[i]? = some p → ∃ q, w'.progresses[i]? = some q ∧ p.Grows q)
    (hboards : w'.boards.length = w.boards.length) : w.Advances w' :=
  ⟨hclock, by rw [hwatch], by rw [hwatch], by rw [hwatch], by simp [hwatch], hprogresses, hboards⟩

theorem grows_refl (w : World) (i : Nat) (p : Progress) (h : w.progresses[i]? = some p) :
    ∃ q, w.progresses[i]? = some q ∧ p.Grows q :=
  ⟨p, h, .refl p⟩

theorem watch_perform (l : Option Nat) (w : World) (c : Command) : (w.perform l c).2.watch = w.watch := by
  cases c with
  | notify n => cases l <;> rfl
  | leave i => exact watch_dismissBoard _ i
  | _ => rfl

theorem clock_perform (l : Option Nat) (w : World) (c : Command) : w.clock ≤ (w.perform l c).2.clock := by
  cases c with
  | notify n => cases l <;> exact Nat.le_succ _
  | rest duration => exact Nat.le_trans (Nat.le_succ _) (Nat.le_add_right _ duration)
  | leave i => exact (Nat.le_succ w.clock).trans_eq (clock_dismissBoard { w with clock := w.clock + 1 } i).symm
  | _ => exact Nat.le_succ _

theorem Pace.advances (h : w.Pace w') : w.Advances w' := by
  have hboards : ∀ b (f : Board → Board), (w.onBoard b f).boards.length = w.boards.length := by
    simp [onBoard]
  cases h with
  | tally hthread hstage =>
      exact ⟨Nat.le_refl _, rfl, rfl, rfl, id, w.grows_refl, hboards _ _⟩
  | _ => exact ⟨Nat.le_refl _, rfl, rfl, rfl, id, w.grows_refl, rfl⟩

theorem happen_advances (w : World) (happening : Happening) : w.Advances (w.happen happening) := by
  cases happening with
  | move m =>
      cases m with
      | pass duration => exact .of_watch (Nat.le_add_right _ _) rfl w.grows_refl rfl
      | watch => exact w.moveWatchdog_pace.advances
      | cancel token => exact .of_watch (Nat.le_refl _) rfl w.grows_refl rfl
  | perform l c =>
      have hflow := w.perform_flow l c
      refine .of_watch (clock_perform l w c) (watch_perform l w c) (fun i p hp => ?_) hflow.boards.length
      exact ⟨_, by rw [happen, hflow.progresses, hp]; rfl, p.grows_notice i _⟩
  | exclude => exact ⟨Nat.le_refl _, rfl, rfl, rfl, fun _ => rfl, w.grows_refl, rfl⟩
  | stop => exact ⟨Nat.le_refl _, rfl, rfl, rfl, id, w.grows_refl, rfl⟩
  | interrupt =>
      refine .of_watch (Nat.le_refl _) rfl (fun i p hp => ?_) rfl
      refine ⟨_, by rw [happen, surroundings, getElem?_onProgress, hp]; rfl, ?_⟩
      split <;> exact ⟨List.suffix_rfl, List.suffix_rfl⟩

theorem Advances.completed (h : w.Advances w') : w.activity.completed <:+ w'.activity.completed := by
  unfold activity readProgress
  rw [h.progress]
  cases hp : w.progresses[w.watch.progress]? with
  | none => exact List.nil_suffix
  | some p =>
      obtain ⟨q, hq, hgrows⟩ := h.progresses _ p hp
      rw [hq]
      exact hgrows.completed

theorem Advances.started (h : w.Advances w') (hstarted : w.hasStarted = true) : w'.hasStarted = true := by
  unfold hasStarted readProgress at *
  rw [h.progress]
  cases hp : w.progresses[w.watch.progress]? with
  | none => simp [hp] at hstarted
  | some p =>
      obtain ⟨q, hq, hgrows⟩ := h.progresses _ p hp
      rw [hp] at hstarted
      rw [hq]
      have hpos : 0 < p.enqueued.length := of_decide_eq_true hstarted
      exact decide_eq_true (Nat.lt_of_lt_of_le hpos hgrows.enqueued.length_le)

/-! ## Beside the watchdog -/

/-- The watchdog stands where it stood, and so do its wait and its report. -/
structure Beside (w w' : World) : Prop where
  thread : w'.watch.dog.thread = w.watch.dog.thread
  call : w'.watch.call = w.watch.call
  stage : w'.watch.stage = w.watch.stage
  reports : w'.reports = w.reports

theorem Beside.of_watch (hwatch : w'.watch = w.watch) (hreports : w'.reports = w.reports) : w.Beside w' :=
  ⟨by rw [hwatch], by rw [hwatch], by rw [hwatch], hreports⟩

theorem perform_beside (l : Option Nat) (w : World) (c : Command) : w.Beside (w.perform l c).2 := by
  refine .of_watch (watch_perform l w c) ?_
  cases c with
  | notify n =>
      cases l with
      | none => rfl
      | some i => exact reports_say w _
  | logReport i progress => exact reports_say w _
  | leave i => exact congrArg (List.filterMap _) (log_dismissBoard _ i)
  | _ => rfl

/-- A step is one of the watchdog, or it passes the watchdog by. -/
theorem happen_cases (w : World) (happening : Happening) :
    w.Pace (w.happen happening) ∨ w.Beside (w.happen happening) := by
  cases happening with
  | move m =>
      cases m with
      | watch => exact .inl w.moveWatchdog_pace
      | _ => exact .inr (.of_watch rfl rfl)
  | perform l c => exact .inr (perform_beside l w c)
  | interrupt => exact .inr (.of_watch rfl rfl)
  | _ => exact .inr ⟨rfl, rfl, rfl, rfl⟩

/-! ## Where the watchdog came from -/

namespace Pace

theorem of_entering (h : w.Pace w') (henter : w'.watch.dog.thread = some (.enter true))
    (hnew : w.watch.dog.thread ≠ some (.enter true)) : w.hasStarted = true := by
  cases h with
  | absent hthread => exact absurd henter hnew
  | ask hthread => simpa using henter
  | head hthread | judge hthread =>
      rw [thread_stand] at henter
      split at henter <;> cases henter
  | @enter started hthread call hcall | @wake started hthread call hcall =>
      rcases w.wait_cases started call with ⟨hnext, -⟩ | ⟨hnext, -⟩ | hnext | hnext <;>
        cases hnext.symm.trans henter
  | _ => cases henter

/-- A sleeping watchdog has just begun its wait, or is still in it. -/
theorem of_asleep (h : w.Pace w') (hasleep : w'.watch.dog.thread = some (.asleep true)) :
    (w.watch.dog.thread = some (.enter true) ∧
        w'.watch.call = some (.enter w.watch.dog.interval w.clock w.activity)) ∨
      (w.watch.dog.thread = some (.asleep true) ∧ w'.watch.call = w.watch.call) := by
  cases h with
  | absent hthread => exact .inr ⟨hasleep, rfl⟩
  | head hthread | judge hthread =>
      rw [thread_stand] at hasleep
      split at hasleep <;> cases hasleep
  | @enter started hthread call hcall =>
      rcases w.wait_cases started call with ⟨hnext, hkept⟩ | ⟨hnext, -⟩ | hnext | hnext <;>
        cases hnext.symm.trans hasleep
      exact .inl ⟨hthread, by rw [hkept, hcall]⟩
  | @wake started hthread call hcall =>
      rcases w.wait_cases started call with ⟨hnext, hkept⟩ | ⟨hnext, -⟩ | hnext | hnext <;>
        cases hnext.symm.trans hasleep
      exact .inr ⟨hthread, by rw [hkept, hcall]⟩
  | sleep hthread hcall =>
      cases hasleep
      exact .inr ⟨hthread, rfl⟩
  | _ => cases hasleep

/-- A watchdog that is to judge comes from a wait that saw nothing. -/
theorem of_judging (h : w.Pace w') (hinterval : 0 < w.watch.dog.interval)
    (hjudging : w'.watch.dog.thread = some .judge ∨ w'.watch.dog.thread = some .report)
    (hjudge : w.watch.dog.thread ≠ some .judge) (hreport : w.watch.dog.thread ≠ some .report) :
    w.watch.dog.thread = some (.asleep true) ∧ w'.watch.dog.thread = some .judge ∧
      ∃ call, w.watch.call = some call ∧ call.check w.clock w.activity = some (.ok 0) := by
  cases h with
  | absent hthread => simp [hthread] at hjudging
  | head hthread =>
      rw [thread_stand] at hjudging
      split at hjudging <;> simp at hjudging
  | @enter started hthread call hcall =>
      rcases w.wait_cases started call with ⟨hnext, -⟩ | ⟨-, -, hzero⟩ | hnext | hnext
      · rw [hnext] at hjudging
        simp at hjudging
      -- A wait that has just begun cannot be over, for the interval is not zero.
      · have hlong := (Wait.of_check_zero hzero).2
        simp only [hcall, Wait.enter, Nat.sub_self, Nat.le_zero] at hlong
        exact absurd hlong (Nat.ne_of_gt hinterval)
      all_goals
        rw [hnext] at hjudging
        simp at hjudging
  | @wake started hthread call hcall =>
      rcases w.wait_cases started call with ⟨hnext, -⟩ | ⟨hnext, rfl, hzero⟩ | hnext | hnext
      · rw [hnext] at hjudging
        simp at hjudging
      · exact ⟨hthread, hnext, call, hcall, hzero⟩
      all_goals
        rw [hnext] at hjudging
        simp at hjudging
  | judge hthread => exact absurd hthread hjudge
  | ask | sleep | note | ended => simp at hjudging
  | decline hthread | begin hthread | countCompleted hthread | countEnqueued hthread | drop hthread
  | render hthread | say hthread | tally hthread => exact absurd hthread hreport

/-- A report begins when the flag is read and is not up. -/
theorem of_busy (h : w.Pace w') (hidle : w.watch.stage = .idle) (hbusy : w'.watch.stage ≠ .idle) :
    w.watch.dog.thread = some .report ∧ w.watch.exclusive = false := by
  cases h with
  | begin hthread hstage hexclusive => exact ⟨hthread, hexclusive⟩
  | countCompleted hthread hstage | countEnqueued hthread hstage | render hthread hstage
  | say hthread hstage => simp [hidle] at hstage
  | drop | tally => exact absurd rfl hbusy
  | _ => exact absurd hidle hbusy

theorem thread_of_busy (h : w.Pace w') (hw : w.watch.stage ≠ .idle → w.watch.dog.thread = some .report)
    (hbusy : w'.watch.stage ≠ .idle) : w'.watch.dog.thread = some .report := by
  cases h with
  | begin | countCompleted | countEnqueued | render | say => rfl
  | drop | tally => exact absurd rfl hbusy
  | decline hthread hstage => exact absurd hstage hbusy
  | absent hthread | head hthread | ask hthread | enter hthread | wake hthread | sleep hthread | judge hthread
  | note hthread | ended hthread =>
      have hreport := hthread.symm.trans (hw hbusy)
      simp at hreport

/-- A text is said that was rendered from the running actions. -/
theorem of_saying {text : String} (h : w.Pace w') (hsay : w'.watch.stage = .say text)
    (hnew : w.watch.stage ≠ .say text) :
    ∃ progress b, w.watch.stage = .render progress ∧ w.boards[w.watch.board]? = some b ∧
      b.render progress w.clock = some text := by
  cases h with
  | render hthread hstage hboard htext =>
      cases hsay
      exact ⟨_, _, hstage, hboard, htext⟩
  | begin | countCompleted | countEnqueued | drop | say | tally => cases hsay
  | _ => exact absurd hsay hnew

theorem reports_cases (h : w.Pace w') : w'.reports = w.reports ∨
    ∃ text, w.watch.dog.thread = some .report ∧ w.watch.stage = .say text ∧
      w'.reports = w.reports ++ [text] := by
  cases h with
  | say hthread hstage => exact .inr ⟨_, hthread, hstage, by simp⟩
  | note => exact .inl (by simp)
  | _ => exact .inl rfl

/-- A report that is logged is counted in the last step of the report. -/
theorem balance (h : w.Pace w') (hboard : (w.boards[w.watch.board]?).isSome = true) :
    w'.shown + w'.watch.stage.owed + w.reports.length = w.shown + w.watch.stage.owed + w'.reports.length := by
  cases h with
  | say hthread hstage =>
      simp only [shown_stand, shown_say, shown_staged, stage_stand, watch_say, stage_staged, reports_stand,
        reports_warn, reports_staged, hstage, ReportStage.owed, List.length_append, List.length_singleton]
      omega
  | tally hthread hstage =>
      have hshown := (w.staged .idle).shown_countReport w.watch.board hboard
      rw [show (w.staged .idle).watch.board = w.watch.board from rfl, if_pos rfl, shown_staged] at hshown
      simp only [shown_stand, hshown, hstage]
      rfl
  | begin hthread hstage | countCompleted hthread hstage | countEnqueued hthread hstage | drop hthread hstage
  | render hthread hstage =>
      simp only [hstage]
      rfl
  | note =>
      simp only [reports_stand, reports_note]
      rfl
  | _ => rfl

end Pace

/-! ## What the board counts -/

theorem shown_perform (l : Option Nat) (w : World) (c : Command)
    (hboard : (w.boards[w.watch.board]?).isSome = true) :
    (w.perform l c).2.shown = w.shown + (Happening.perform l c).counted w.watch.board := by
  cases c with
  | notify n => cases l <;> rfl
  | deliver i event =>
      refine shown_onBoard w i (fun b => ?_)
      cases event <;> rfl
  | countReport i => exact w.shown_countReport i hboard
  | leave i => exact shown_dismissBoard _ i
  | _ => rfl

/-- The board counts what the watchdog has logged, in the last step of its report, and what an engine displays. -/
theorem happen_balance (w : World) (happening : Happening) (hboard : (w.boards[w.watch.board]?).isSome = true) :
    (w.happen happening).shown + (w.happen happening).watch.stage.owed + w.reports.length =
      w.shown + w.watch.stage.owed + (w.happen happening).reports.length + happening.counted w.watch.board := by
  cases happening with
  | move m =>
      cases m with
      | watch => exact w.moveWatchdog_pace.balance hboard
      | _ => rfl
  | perform l c =>
      have hbeside := w.perform_beside l c
      have hshown := w.shown_perform l c hboard
      simp only [happen, hbeside.stage, hbeside.reports, hshown]
      omega
  | _ => rfl

end World

end BuildRound
