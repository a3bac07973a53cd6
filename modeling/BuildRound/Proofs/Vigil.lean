import BuildRound.Proofs.Pace

/-!
# Reports of inactivity are justified

A vigil is a run of the watchdog's thread beside everything else, in any order. Each report it logs follows upon
a wait that was long enough and saw nothing complete, after work had begun; the flag for exclusive building was
read after that wait and was not up; and something was running when the text was made. The board counts every
report that is logged, once, besides those that the engine displays on it.
-/

namespace BuildRound

/-! ## Stretches of time -/

/-- After the moment `a` and up to `n`. -/
def Throughout (p : Nat → Prop) (a n : Nat) : Prop :=
  ∀ m, a < m → m ≤ n → p m

/-- What holds now and did not at first has held without a break since some moment. -/
theorem exists_since {p : Nat → Prop} {n : Nat} (hfirst : ¬ p 0) (hnow : p n) :
    ∃ a < n, ¬ p a ∧ Throughout p a n := by
  induction n with
  | zero => exact absurd hnow hfirst
  | succ n ih =>
      by_cases h : p n
      · obtain ⟨a, ha, hnot, hall⟩ := ih h
        refine ⟨a, Nat.lt_succ_of_lt ha, hnot, fun m ham hmn => ?_⟩
        rcases Nat.lt_or_eq_of_le hmn with hlt | rfl
        · exact hall m ham (Nat.le_of_lt_succ hlt)
        · exact hnow
      · refine ⟨n, Nat.lt_succ_self n, h, fun m hnm hmn => ?_⟩
        obtain rfl := Nat.le_antisymm hmn hnm
        exact hnow

/-! ## Vigils -/

/-- A run of the watchdog's thread from its start, for a board that has counted no report yet, and what happens at
each moment. -/
structure Vigil where
  interval : Nanos
  start : World
  happenings : Nat → World.Happening
  posted : start.watch = ⟨((Watchdog.ofInterval interval).start true).2, start.watch.progress, start.watch.board,
    false, none, .idle⟩
  fresh : ∃ b, start.boards[start.watch.board]? = some b ∧ b.reportsShown = 0

namespace Vigil

variable (v : Vigil)

def world : Nat → World
  | 0 => v.start
  | n + 1 => (world n).happen (v.happenings n)

/-- How many reports the engine displayed on the board by then. -/
def displayed : Nat → Nat
  | 0 => 0
  | n + 1 => displayed n + (v.happenings n).counted v.start.watch.board

def thread (n : Nat) : Option Loop :=
  (v.world n).watch.dog.thread

def stage (n : Nat) : ReportStage :=
  (v.world n).watch.stage

/-- The thread waited from `b` to `e`, after work had begun, for its whole interval, and nothing completed. -/
structure Waited (b e : Nat) : Prop where
  lt : b < e
  entered : v.thread b = some (.enter true)
  asleep : Throughout (fun m => v.thread m = some (.asleep true)) b e
  left : v.thread (e + 1) = some .judge
  started : (v.world b).hasStarted = true
  long : (v.world b).clock + max v.interval Watchdog.minInterval ≤ (v.world e).clock
  quiet : ∀ m, b ≤ m → m ≤ e → (v.world m).activity.completed = (v.world b).activity.completed

/-- A report began at `x` with a look at the flag for exclusive building, which was not up until then, and goes on
until `n`. -/
structure Began (x n : Nat) : Prop where
  lt : x < n
  thread : v.thread x = some .report
  stage : v.stage x = .idle
  clear : ∀ m ≤ x, (v.world m).watch.exclusive = false
  busy : Throughout (fun m => v.stage m ≠ .idle) x n

/-- The text was made at `d` from the running actions, and is about to be logged until `n`. -/
structure Rendered (d n : Nat) (text : String) : Prop where
  lt : d < n
  running : ∃ progress b, v.stage d = .render progress ∧
    (v.world d).boards[(v.world d).watch.board]? = some b ∧ b.running ≠ [] ∧
    b.render progress (v.world d).clock = some text
  kept : Throughout (fun m => v.stage m = .say text) d n

variable {v} {n : Nat}

/-! ## What holds all along -/

theorem advances (v : Vigil) (n : Nat) : (v.world n).Advances (v.world (n + 1)) :=
  World.happen_advances ..

theorem step_cases (v : Vigil) (n : Nat) :
    (v.world n).Pace (v.world (n + 1)) ∨ (v.world n).Beside (v.world (n + 1)) :=
  World.happen_cases ..

theorem completed_suffix {a n : Nat} (h : a ≤ n) :
    (v.world a).activity.completed <:+ (v.world n).activity.completed := by
  induction h with
  | refl => exact List.suffix_rfl
  | step _ ih => exact ih.trans (v.advances _).completed

theorem started_of_le {a n : Nat} (h : a ≤ n) (hstarted : (v.world a).hasStarted = true) :
    (v.world n).hasStarted = true := by
  induction h with
  | refl => exact hstarted
  | step _ ih => exact (v.advances _).started ih

theorem clear_of_le {a n : Nat} (h : a ≤ n) (hclear : (v.world n).watch.exclusive = false) :
    (v.world a).watch.exclusive = false := by
  induction h with
  | refl => exact hclear
  | step _ ih =>
      refine ih (Bool.eq_false_iff.mpr fun hexclusive => ?_)
      rw [(v.advances _).exclusive hexclusive] at hclear
      cases hclear

theorem interval_eq (v : Vigil) (n : Nat) :
    (v.world n).watch.dog.interval = max v.interval Watchdog.minInterval := by
  induction n with
  | zero =>
      rw [world, v.posted]
      rfl
  | succ n ih => exact (v.advances n).interval.trans ih

theorem interval_pos (v : Vigil) (n : Nat) : 0 < (v.world n).watch.dog.interval := by
  rw [v.interval_eq n]
  exact Nat.lt_of_lt_of_le (by decide) (Nat.le_max_right ..)

theorem board_eq (v : Vigil) (n : Nat) : (v.world n).watch.board = v.start.watch.board := by
  induction n with
  | zero => rfl
  | succ n ih => exact (v.advances n).board.trans ih

theorem board_exists (v : Vigil) (n : Nat) :
    ((v.world n).boards[(v.world n).watch.board]?).isSome = true := by
  have hlt : v.start.watch.board < (v.world n).boards.length := by
    induction n with
    | zero =>
        obtain ⟨b, hb, -⟩ := v.fresh
        exact (List.getElem?_eq_some_iff.mp hb).1
    | succ n ih => rwa [(v.advances n).boards]
  simp [v.board_eq n, hlt]

theorem thread_zero (v : Vigil) : v.thread 0 = some .head := by
  rw [thread, world, v.posted]
  rfl

theorem stage_zero (v : Vigil) : v.stage 0 = .idle := by
  rw [stage, world, v.posted]

/-! ## The wait -/

theorem started_of_entering (h : v.thread n = some (.enter true)) : (v.world n).hasStarted = true := by
  obtain ⟨a, han, hnot, hall⟩ := exists_since (p := fun m => v.thread m = some (.enter true))
    (by simp [v.thread_zero]) h
  have hnext := hall (a + 1) (Nat.lt_succ_self a) han
  rcases v.step_cases a with hpace | hbeside
  · exact started_of_le (Nat.le_of_lt han) (hpace.of_entering hnext hnot)
  · exact absurd (hbeside.thread.symm.trans hnext) hnot

/-- A sleeping thread remembers when its wait began and how much was complete then. -/
theorem exists_entered (h : v.thread n = some (.asleep true)) : ∃ b < n, v.thread b = some (.enter true) ∧
    Throughout (fun m => v.thread m = some (.asleep true)) b n ∧
    (v.world n).watch.call =
      some (.enter (max v.interval Watchdog.minInterval) (v.world b).clock (v.world b).activity) := by
  obtain ⟨b, hbn, hnot, hall⟩ := exists_since (p := fun m => v.thread m = some (.asleep true))
    (by simp [v.thread_zero]) h
  have hnext := hall (b + 1) (Nat.lt_succ_self b) hbn
  rcases v.step_cases b with hpace | hbeside
  · rcases hpace.of_asleep hnext with ⟨hentered, hcall⟩ | ⟨hasleep, -⟩
    · refine ⟨b, hbn, hentered, hall, ?_⟩
      rw [v.interval_eq b] at hcall
      -- While the thread sleeps on, the call stays as it was.
      have hkept : ∀ k, b + 1 + k ≤ n → (v.world (b + 1 + k)).watch.call = (v.world (b + 1)).watch.call := by
        intro k hk
        induction k with
        | zero => rfl
        | succ k ih =>
            rw [← ih (by omega)]
            rcases v.step_cases (b + 1 + k) with hpace' | hbeside
            · rcases hpace'.of_asleep (hall _ (by omega) hk) with ⟨hentering, -⟩ | ⟨-, hsame⟩
              · have hasleep := hall (b + 1 + k) (by omega) (by omega)
                cases hentering.symm.trans hasleep
              · exact hsame
            · exact hbeside.call
      have hn := hkept (n - (b + 1)) (by omega)
      rw [Nat.add_sub_cancel' hbn] at hn
      rw [hn, hcall]
    · exact absurd hasleep hnot
  · exact absurd (hbeside.thread.symm.trans hnext) hnot

/-- The thread goes on to judge and report only after a wait in which nothing happened. -/
theorem exists_waited (h : v.thread n = some .judge ∨ v.thread n = some .report) :
    ∃ b e, e < n ∧ v.Waited b e ∧
      Throughout (fun m => v.thread m = some .judge ∨ v.thread m = some .report) e n := by
  obtain ⟨e, hen, hnot, hall⟩ := exists_since
    (p := fun m => v.thread m = some .judge ∨ v.thread m = some .report) (by simp [v.thread_zero]) h
  have hnext := hall (e + 1) (Nat.lt_succ_self e) hen
  rw [not_or] at hnot
  rcases v.step_cases e with hpace | hbeside
  · obtain ⟨hasleep, hjudge, call, hcall, hzero⟩ := hpace.of_judging (v.interval_pos e) hnext hnot.1 hnot.2
    obtain ⟨b, hbe, hentered, hslept, hcall'⟩ := exists_entered hasleep
    obtain rfl := Option.some.inj (hcall.symm.trans hcall')
    obtain ⟨hquiet, hlong⟩ := Wait.of_check_zero hzero
    have hpos := v.interval_pos b
    rw [v.interval_eq b] at hpos
    refine ⟨b, e, hen, ⟨hbe, hentered, hslept, hjudge, started_of_entering hentered, ?_, ?_⟩, hall⟩
    · have hle := Nat.le_of_lt (Nat.lt_of_sub_pos (Nat.lt_of_lt_of_le hpos hlong))
      exact Nat.add_le_of_le_sub' hle hlong
    · intro m hbm hme
      have hlength := (completed_suffix hme).length_le.trans hquiet
      exact ((completed_suffix hbm).eq_of_length_le hlength).symm
  · rw [thread, hbeside.thread] at hnext
    exact absurd hnext (not_or.mpr hnot)

/-! ## The report -/

theorem thread_of_busy (v : Vigil) (n : Nat) (h : v.stage n ≠ .idle) : v.thread n = some .report := by
  induction n with
  | zero => exact absurd v.stage_zero h
  | succ n ih =>
      rcases v.step_cases n with hpace | hbeside
      · exact hpace.thread_of_busy ih h
      · rw [thread, hbeside.thread]
        rw [stage, hbeside.stage] at h
        exact ih h

theorem exists_began (h : v.stage n ≠ .idle) : ∃ x, v.Began x n := by
  obtain ⟨x, hxn, hnot, hall⟩ := exists_since (p := fun m => v.stage m ≠ .idle) (by simp [v.stage_zero]) h
  have hnext := hall (x + 1) (Nat.lt_succ_self x) hxn
  have hidle : v.stage x = .idle := not_not.mp hnot
  rcases v.step_cases x with hpace | hbeside
  · obtain ⟨hthread, hclear⟩ := hpace.of_busy hidle hnext
    exact ⟨x, hxn, hthread, hidle, fun m hm => clear_of_le hm hclear, hall⟩
  · exact absurd (hbeside.stage.trans hidle) hnext

theorem exists_rendered {text : String} (h : v.stage n = .say text) : ∃ d, v.Rendered d n text := by
  obtain ⟨d, hdn, hnot, hall⟩ := exists_since (p := fun m => v.stage m = .say text) (by simp [v.stage_zero]) h
  have hnext := hall (d + 1) (Nat.lt_succ_self d) hdn
  rcases v.step_cases d with hpace | hbeside
  · obtain ⟨progress, b, hstage, hboard, htext⟩ := hpace.of_saying hnext hnot
    refine ⟨d, hdn, ⟨progress, b, hstage, hboard, ?_, htext⟩, hall⟩
    intro hnone
    simp [Board.render, Board.renderActions, hnone] at htext
  · exact absurd (hbeside.stage.symm.trans hnext) hnot

/-- The flag is read after the wait. -/
theorem Began.after_wait {b e x : Nat} (hbegan : v.Began x n) (hwaited : v.Waited b e) (hen : e < n) : e < x := by
  have hasleep : v.thread e = some (.asleep true) := hwaited.asleep e hwaited.lt (Nat.le_refl e)
  rcases Nat.lt_trichotomy e x with hlt | rfl | hgt
  · exact hlt
  · cases hasleep.symm.trans hbegan.thread
  · have hreport := v.thread_of_busy e (hbegan.busy e hgt (Nat.le_of_lt hen))
    cases hasleep.symm.trans hreport

/-- The text is made after the flag was read. -/
theorem Rendered.after_began {x d : Nat} {text : String} (hrendered : v.Rendered d n text)
    (hbegan : v.Began x n) : x < d := by
  obtain ⟨progress, b, hstage, -⟩ := hrendered.running
  rcases Nat.lt_trichotomy x d with hlt | rfl | hgt
  · exact hlt
  · cases hbegan.stage.symm.trans hstage
  · have hsay := hrendered.kept x hgt (Nat.le_of_lt hbegan.lt)
    cases hbegan.stage.symm.trans hsay

theorem balance (v : Vigil) (n : Nat) : (v.world n).shown + (v.stage n).owed + v.start.reports.length =
    (v.world n).reports.length + v.displayed n := by
  induction n with
  | zero =>
      obtain ⟨b, hb, hshown⟩ := v.fresh
      rw [v.stage_zero]
      simp [world, displayed, World.shown, World.readBoard, hb, hshown, ReportStage.owed]
  | succ n ih =>
      have hbalance := (v.world n).happen_balance (v.happenings n) (v.board_exists n)
      rw [v.board_eq n] at hbalance
      simp only [stage, world, displayed] at ih ⊢
      omega

/-! ## Justified reports -/

/-- Whenever the log of reports changes, one report is added. It comes right after a wait of the whole interval
that began when work had been enqueued and saw nothing complete; the flag for exclusive building was read after
that wait, and had never been up until then; and the text was made from actions that were running. Unless a report
is in progress, the board has counted all these reports and those that the engine displayed on it. -/
theorem reports_justified (v : Vigil) :
    (∀ n, (v.world (n + 1)).reports ≠ (v.world n).reports →
      ∃ b e x d text, v.Waited b e ∧ e < x ∧ x < d ∧ d < n ∧
        Throughout (fun m => v.thread m = some .judge ∨ v.thread m = some .report) e n ∧
        v.Began x n ∧ v.Rendered d n text ∧
        (v.world (n + 1)).reports = (v.world n).reports ++ [text]) ∧
    ∀ n, v.thread n ≠ some .report ∨ v.stage n = .idle →
      v.start.reports.length + (v.world n).shown = (v.world n).reports.length + v.displayed n := by
  constructor
  · intro n hreported
    rcases v.step_cases n with hpace | hbeside
    · rcases hpace.reports_cases with hsame | ⟨text, hthread, hstage, hadded⟩
      · exact absurd hsame hreported
      · have hsay : v.stage n = .say text := hstage
        obtain ⟨b, e, hen, hwaited, hafter⟩ := exists_waited (.inr hthread)
        have hbusy : v.stage n ≠ .idle := by simp [hsay]
        obtain ⟨x, hbegan⟩ := exists_began hbusy
        obtain ⟨d, hrendered⟩ := exists_rendered hsay
        exact ⟨b, e, x, d, text, hwaited, hbegan.after_wait hwaited hen, hrendered.after_began hbegan,
          hrendered.lt, hafter, hbegan, hrendered, hadded⟩
    · exact absurd hbeside.reports hreported
  · intro n hidle
    have hstage : v.stage n = .idle := by
      rcases hidle with hthread | hstage
      · exact not_not.mp fun hbusy => hthread (v.thread_of_busy n hbusy)
      · exact hstage
    have hbalance := v.balance n
    rw [hstage] at hbalance
    simp only [ReportStage.owed] at hbalance
    omega

/-- An action is enqueued and started before the first wait, which lasts one interval; exclusive building begins
only after the report has looked at the flag; and after the report the engine displays one of its own. -/
def patient : Vigil where
  interval := 0
  start :=
    { progresses := [{ requested := .empty, built := .empty }]
      boards := [{}]
      watch := ⟨((Watchdog.ofInterval 0).start true).2, 0, 0, false, none, .idle⟩ }
  happenings n :=
    let action : Action := ⟨⟨"a"⟩, "Compile", .normal, [⟨⟨"a.o"⟩, .derived⟩]⟩
    let arrival : List World.Happening :=
      [.perform (some 0) (.notify (.enqueueing (.action action))), .perform none (.deliver 0 (.started action))]
    let wait : List World.Happening :=
      List.replicate 3 (.move .watch) ++ [.move (.pass Watchdog.minInterval), .move .watch]
    let report : List World.Happening :=
      List.replicate 2 (.move .watch) ++ .exclude :: List.replicate 6 (.move .watch)
    let display : List World.Happening := [.perform none (.logReport 0 ""), .perform none (.countReport 0)]
    ((arrival ++ wait ++ report ++ display)[n]?).getD (.move (.pass 1))
  posted := rfl
  fresh := ⟨_, rfl, rfl⟩

theorem reports_justified_patient : (patient.world 14).reports ≠ (patient.world 13).reports ∧
    (∃ b e, patient.Waited b e) ∧ patient.stage 18 = .idle ∧ patient.displayed 18 = 1 ∧
      0 + (patient.world 18).shown = (patient.world 18).reports.length + patient.displayed 18 := by
  have hreported : (patient.world 14).reports ≠ (patient.world 13).reports := by decide
  have hidle : patient.stage 18 = .idle := by decide
  obtain ⟨b, e, x, d, text, hwaited, -⟩ := (reports_justified patient).1 13 hreported
  exact ⟨hreported, ⟨b, e, hwaited⟩, hidle, rfl, (reports_justified patient).2 18 (.inr hidle)⟩

end Vigil

end BuildRound
