import BuildRound.Progress.Signal
import BuildRound.Progress.Stay
import BuildRound.Proofs.Pace
import Mathlib.Logic.Relation

/-!
# What a call returns

A call that waits may be woken up as often as anyone likes: what comes of each check depends on what the call finds then
and on what it found when it began, and on nothing in between. Others only complete further actions and the clock only
goes on, so the call never counts back and never sleeps past its time.
-/

namespace BuildRound

namespace Stay

/-- One moment and a later one: the clock has not gone back, and no completed action was taken away. -/
structure Sight.Before (e f : Sight) : Prop where
  now : e.now ≤ f.now
  completed : e.activity.completed <:+ f.activity.completed

namespace Sight.Before

variable {e f g : Sight}

theorem refl (e : Sight) : e.Before e :=
  ⟨Nat.le_refl _, List.suffix_rfl⟩

theorem trans (h : e.Before f) (k : f.Before g) : e.Before g :=
  ⟨Nat.le_trans h.now k.now, h.completed.trans k.completed⟩

theorem completed_eq_of_le (h : e.Before f) (hle : f.activity.completed.length ≤ e.activity.completed.length) :
    f.activity.completed = e.activity.completed :=
  (h.completed.eq_of_length_le hle).symm

end Sight.Before

/-! ## One check -/

/-- What comes of a check in a call that began with `e`, by what the check finds: an interruption counts before all
else, then actions that completed since, then the end of the time; else the call sleeps for as long as is left. -/
structure Check.Exact (timeout : Nanos) (e : Sight) (k : Check) : Prop where
  before : e.Before k.found
  interrupted : k.upshot = .returns (.error .interrupted) ↔ k.found.activity.interrupted = true
  completed : ∀ n, 0 < n → (k.upshot = .returns (.ok n) ↔ k.found.activity.interrupted = false ∧
    k.found.activity.completed.length = e.activity.completed.length + n)
  timedOut : k.upshot = .returns (.ok 0) ↔ k.found.activity.interrupted = false ∧
    k.found.activity.completed = e.activity.completed ∧ e.now + timeout ≤ k.found.now
  sleeps : ∀ span, k.upshot = .sleeps span ↔ k.found.activity.interrupted = false ∧
    k.found.activity.completed = e.activity.completed ∧ 0 < span ∧ k.found.now + span = e.now + timeout

/-- A check ends a call for one of three reasons, or the call sleeps on. -/
theorem upshot_cases {e f : Sight} (h : e.Before f) {call : Wait} (hbefore : call.before = e.activity.completed.length)
    (hstart : call.start = e.now) :
    (f.activity.interrupted = true ∧ f.upshot call = .returns (.error .interrupted)) ∨
    f.activity.interrupted = false ∧
      ((∃ n, 0 < n ∧ f.activity.completed.length = e.activity.completed.length + n ∧
          f.upshot call = .returns (.ok n)) ∨
        f.activity.completed = e.activity.completed ∧
          ((e.now + call.timeout ≤ f.now ∧ f.upshot call = .returns (.ok 0)) ∨
            ∃ span, 0 < span ∧ f.now + span = e.now + call.timeout ∧ f.upshot call = .sleeps span)) := by
  have hnow := h.now
  have hle := h.completed.length_le
  simp only [Sight.upshot, Wait.check, Wait.remaining]
  by_cases hinterrupted : f.activity.interrupted = true
  · exact .inl ⟨hinterrupted, by rw [if_pos hinterrupted]⟩
  · refine .inr ⟨Bool.eq_false_iff.mpr hinterrupted, ?_⟩
    rw [if_neg hinterrupted]
    by_cases hgrown : f.activity.completed.length - call.before > 0
    · exact .inl ⟨_, hgrown, by omega, by rw [if_pos hgrown]⟩
    · refine .inr ⟨h.completed_eq_of_le (by omega), ?_⟩
      rw [if_neg hgrown]
      by_cases htime : f.now - call.start ≥ call.timeout
      · rw [if_pos htime]
        exact .inl ⟨Nat.add_le_of_le_sub' hnow (hstart ▸ htime), rfl⟩
      · have helapsed : f.now - e.now < call.timeout := hstart ▸ Nat.lt_of_not_le htime
        have hspan : f.now + (call.timeout - (f.now - e.now)) = e.now + call.timeout := by
          calc f.now + (call.timeout - (f.now - e.now))
              = e.now + (f.now - e.now) + (call.timeout - (f.now - e.now)) := by rw [Nat.add_sub_of_le hnow]
            _ = e.now + call.timeout := by rw [Nat.add_assoc, Nat.add_sub_of_le (Nat.le_of_lt helapsed)]
        rw [if_neg htime, hstart]
        exact .inr ⟨_, Nat.sub_pos_of_lt helapsed, hspan, rfl⟩

/-- The reasons exclude each other, so each of them can be read off what comes of the check. -/
theorem exact_upshot {e f : Sight} (h : e.Before f) (call : Wait) (hbefore : call.before = e.activity.completed.length)
    (hstart : call.start = e.now) : Check.Exact call.timeout e ⟨f, f.upshot call⟩ := by
  rcases upshot_cases h hbefore hstart with ⟨hinterrupted, hupshot⟩ | ⟨hinterrupted, hrest⟩
  · constructor <;> simp [hupshot, hinterrupted, h]
  · rcases hrest with ⟨n, hn, hlength, hupshot⟩ | ⟨hsame, ⟨htime, hupshot⟩ | ⟨span, hspan, htime, hupshot⟩⟩
    · have hne : f.activity.completed ≠ e.activity.completed := fun heq => by
        rw [heq] at hlength
        omega
      refine ⟨h, ?_, fun m _ => ?_, ?_, fun span => ?_⟩
      · simp [hupshot, hinterrupted]
      · simp [hupshot, hinterrupted, hlength]
      · simp [hupshot, hne, Nat.ne_of_gt hn]
      · simp [hupshot, hne]
    · refine ⟨h, ?_, fun m hm => ?_, ?_, fun span => ?_⟩
      · simp [hupshot, hinterrupted]
      · simp [hupshot, hsame, Nat.ne_of_lt hm, Nat.ne_of_gt hm]
      · simp [hupshot, hinterrupted, hsame, htime]
      · have hlate : 0 < span → f.now + span ≠ e.now + call.timeout := fun hspan heq =>
          Nat.not_lt_of_le htime (heq ▸ Nat.lt_add_of_pos_right hspan)
        simpa [hupshot, hinterrupted, hsame] using hlate
    · refine ⟨h, ?_, fun m hm => ?_, ?_, fun other => ?_⟩
      · simp [hupshot, hinterrupted]
      · simp [hupshot, hsame, Nat.ne_of_gt hm]
      · -- Time is left to sleep, so it is not up.
        have hearly : ¬ e.now + call.timeout ≤ f.now := by
          rw [← htime]
          exact Nat.not_le_of_lt (Nat.lt_add_of_pos_right hspan)
        simp [hupshot, hearly]
      · rw [hupshot, ← htime]
        constructor
        · rintro ⟨rfl⟩
          exact ⟨hinterrupted, hsame, hspan, rfl⟩
        · rintro ⟨-, -, -, heq⟩
          rw [Nat.add_left_cancel heq]

/-! ## The whole call -/

variable {s : Stay}

/-- What holds of a call wherever it stands. -/
structure Kept (s : Stay) : Prop where
  nodup : s.progress.activity.completed.Nodup
  arriving : s.place = .arriving → s.begun = none
  before : ∀ e, s.begun = some e → e.Before s.sight
  call : ∀ call, s.place = .checking call ∨ s.place = .asleep call →
    ∃ e, s.begun = some e ∧ call = .enter s.timeout e.now e.activity
  checks : ∀ k ∈ s.checks, k.found.activity.completed.Nodup ∧ ∃ e, s.begun = some e ∧ k.Exact s.timeout e
  slept : ∀ k ∈ s.checks.dropLast, ∃ span, k.upshot = .sleeps span
  last : ∀ result, s.place = .returned result ↔ ∃ k, s.checks.getLast? = some k ∧ k.upshot = .returns result

theorem Kept.beside (h : s.Kept) {progress : Progress} {clock : Nanos} (hnodup : progress.activity.completed.Nodup)
    (hbefore : s.sight.Before ⟨clock, progress.activity⟩) : Kept { s with progress, clock } where
  nodup := hnodup
  arriving := h.arriving
  before e he := (h.before e he).trans hbefore
  call := h.call
  checks := h.checks
  slept := h.slept
  last := h.last

theorem Kept.hear (h : s.Kept) (m : Message) : Kept { s with progress := s.progress.hear m } := by
  obtain ⟨-, -, hcompleted⟩ := s.progress.hear_frame m
  refine h.beside ?_ ⟨Nat.le_refl _, (s.progress.grows_hear m).completed⟩
  rw [hcompleted]
  exact nodup_foldl_entered h.nodup [m.completed?]

theorem Kept.begin (h : s.Kept) (hplace : s.place = .arriving) : s.proceed.Kept := by
  have hbegun := h.arriving hplace
  have hnone : ∀ k, k ∉ s.checks := by
    intro k hk
    obtain ⟨-, e, he, -⟩ := h.checks k hk
    cases hbegun.symm.trans he
  -- So no check is on record yet, and what holds of all checks begins to hold.
  have hchecks : s.checks = [] := List.eq_nil_iff_forall_not_mem.mpr hnone
  simp only [proceed, hplace]
  refine ⟨h.nodup, by simp, ?_, ?_, by simp [hchecks], by simp [hchecks], by simp [hchecks]⟩
  · rintro e ⟨rfl⟩
    exact .refl s.sight
  · rintro call (hchecking | hasleep)
    · cases hchecking
      exact ⟨s.sight, rfl, rfl⟩
    · cases hasleep

theorem Kept.wake (h : s.Kept) {call : Wait} (hplace : s.place = .asleep call) : s.proceed.Kept := by
  simp only [proceed, hplace]
  refine ⟨h.nodup, by simp, h.before, ?_, h.checks, h.slept, fun result => ?_⟩
  · rintro call' (hchecking | hasleep)
    · cases hchecking
      exact h.call call (.inr hplace)
    · cases hasleep
  · have hlast := h.last result
    rw [hplace] at hlast
    simpa using hlast

theorem Kept.check (h : s.Kept) {call : Wait} (hplace : s.place = .checking call) : s.proceed.Kept := by
  obtain ⟨e, he, rfl⟩ := h.call call (.inl hplace)
  have hexact : Check.Exact s.timeout e ⟨s.sight, s.sight.upshot (.enter s.timeout e.now e.activity)⟩ :=
    exact_upshot (h.before e he) (.enter s.timeout e.now e.activity) rfl rfl
  -- The last check so far let the call sleep as well: otherwise it would have returned and not check again.
  have hslept : ∀ k ∈ s.checks, ∃ span, k.upshot = .sleeps span := by
    intro k hk
    have hne := List.ne_nil_of_mem hk
    rw [← List.dropLast_append_getLast hne, List.mem_append, List.mem_singleton] at hk
    rcases hk with hk | rfl
    · exact h.slept k hk
    · cases hupshot : (s.checks.getLast hne).upshot with
      | sleeps span => exact ⟨span, rfl⟩
      | returns result =>
          have hreturned := (h.last result).mpr ⟨_, List.getLast?_eq_some_getLast hne, hupshot⟩
          cases hplace.symm.trans hreturned
  simp only [proceed, hplace]
  refine ⟨h.nodup, ?_, h.before, ?_, ?_, ?_, fun result => ?_⟩
  · cases s.sight.upshot (.enter s.timeout e.now e.activity) <;> simp [Upshot.place]
  · intro call hcall
    refine ⟨e, he, ?_⟩
    cases hupshot : s.sight.upshot (.enter s.timeout e.now e.activity) <;> simp_all [Upshot.place]
  · intro k hk
    rcases List.mem_append.mp hk with hk | hk
    · exact h.checks k hk
    · obtain rfl := List.mem_singleton.mp hk
      exact ⟨h.nodup, e, he, hexact⟩
  · simpa using hslept
  · cases s.sight.upshot (.enter s.timeout e.now e.activity) <;> simp [Upshot.place]

theorem Kept.proceed (h : s.Kept) : s.proceed.Kept := by
  cases hplace : s.place with
  | arriving => exact h.begin hplace
  | checking call => exact h.check hplace
  | asleep call => exact h.wake hplace
  | returned result =>
      rw [Stay.proceed, hplace]
      exact h

theorem Kept.move (h : s.Kept) (m : Move) : (s.move m).Kept := by
  cases m with
  | proceed => exact h.proceed
  | pass duration => exact h.beside h.nodup ⟨Nat.le_add_right _ _, List.suffix_rfl⟩
  | tell notification => exact h.hear (.notify notification)
  | complete action =>
      simp only [Stay.move]
      split
      · exact h
      · exact h.hear (.complete action)
  | interrupt =>
      simp only [Stay.move]
      split
      · exact h
      · exact h.beside h.nodup ⟨Nat.le_refl _, List.suffix_rfl⟩

theorem Kept.run (h : s.Kept) (moves : List Move) : (s.run moves).Kept := by
  induction moves generalizing s with
  | nil => exact h
  | cons m moves ih => exact ih (h.move m)

theorem Reachable.kept (h : s.Reachable) : s.Kept := by
  obtain ⟨requested, built, clock, timeout, moves, rfl⟩ := h
  exact Kept.run ⟨List.nodup_nil, fun _ => rfl, by simp, by simp, by simp, by simp, by simp⟩ moves

theorem Reachable.run (h : s.Reachable) (moves : List Move) : (s.run moves).Reachable := by
  obtain ⟨requested, built, clock, timeout, before, rfl⟩ := h
  exact ⟨requested, built, clock, timeout, before ++ moves, by simp [Stay.run, List.foldl_append]⟩

/-- What a call returns, whatever happens before it and during it. It returns what comes of its last check, and each
check before that one let it sleep; and of each check comes what is to come of it. The actions that completed are
listed without repetition, so what counts is how many there are. -/
theorem Reachable.returns_exactly (h : s.Reachable) :
    (∀ result, s.place = .returned result ↔ ∃ k, s.checks.getLast? = some k ∧ k.upshot = .returns result) ∧
      (∀ k ∈ s.checks.dropLast, ∃ span, k.upshot = .sleeps span) ∧
      ∀ k ∈ s.checks, k.found.activity.completed.Nodup ∧ ∃ e, s.begun = some e ∧ k.Exact s.timeout e :=
  ⟨h.kept.last, h.kept.slept, h.kept.checks⟩

/-- An action that completed before the call counts for nothing, nor does one that is no work of its own. The first that
counts completes just as the time ends, and nobody gets in between while the call has the lock. -/
def crossed : Stay :=
  run { progress := { requested := .empty, built := .empty }, clock := 0, timeout := 5 }
    [.complete ⟨⟨"a"⟩, "Compile", .normal, []⟩, .proceed, .pass 1, .proceed,
      .complete ⟨⟨"a"⟩, "Compile", .normal, []⟩, .complete ⟨⟨"m"⟩, "Middleman", .middleman, []⟩, .proceed, .proceed,
      .pass 4, .complete ⟨⟨"b"⟩, "Compile", .normal, []⟩, .proceed, .complete ⟨⟨"c"⟩, "Link", .normal, []⟩,
      .interrupt, .proceed]

theorem returns_exactly_crossed :
    crossed.Reachable ∧
      (∃ k, crossed.checks.getLast? = some k ∧ k.found.now = 5 ∧ k.upshot = .returns (.ok 1)) ∧
      ∀ k ∈ crossed.checks, ∃ e, crossed.begun = some e ∧ k.Exact 5 e := by
  have h : crossed.Reachable := ⟨.empty, .empty, 0, 5, _, rfl⟩
  obtain ⟨hlast, -, hchecks⟩ := h.returns_exactly
  obtain ⟨k, hk, hupshot⟩ := (hlast (.ok 1)).mp rfl
  have hnow : crossed.checks.getLast?.map (·.found.now) = some 5 := rfl
  rw [hk] at hnow
  exact ⟨h, ⟨k, hk, Option.some.inj hnow, hupshot⟩, fun k hk => (hchecks k hk).2⟩

/-! ## Calls in a crowd -/

@[simp]
theorem clock_proceed (s : Stay) : s.proceed.clock = s.clock := by
  cases hplace : s.place <;> rw [proceed, hplace]

@[simp]
theorem progress_proceed (s : Stay) : s.proceed.progress = s.progress := by
  cases hplace : s.place <;> rw [proceed, hplace]

@[simp]
theorem timeout_move (s : Stay) (m : Move) : (s.move m).timeout = s.timeout := by
  cases m with
  | proceed => cases hplace : s.place <;> rw [move, proceed, hplace]
  | pass | tell => rfl
  | complete | interrupt =>
      rw [move]
      split <;> rfl

theorem timeout_run (s : Stay) (moves : List Move) : (s.run moves).timeout = s.timeout := by
  induction moves generalizing s with
  | nil => rfl
  | cons m moves ih => exact (ih (s.move m)).trans (s.timeout_move m)

open Signal (Thread Change Crowd)

/-- The call stands where a thread does. A crowd has further places on the way into sleep and out of it. -/
def Here (s : Stay) : Thread → Prop
  | .calling timeout => s.place = .arriving ∧ s.timeout = timeout
  | .holding call | .asleep call _ | .roused call => s.place = .asleep call
  | .returned result => s.place = .returned result
  | .completing _ | .changing _ | .waking | .finished => False

/-- The call is that of a thread of a crowd. -/
structure Mirrors (s : Stay) (c : Crowd) (i : Nat) : Prop where
  clock : s.clock = c.clock
  activity : s.progress.activity = c.activity
  thread : ∃ t, c.threads[i]? = some t ∧ s.Here t

variable {s' : Stay} {c c' : Crowd} {t : Thread} {i j : Nat}

theorem Here.unlocked (h : s.Here t) : s.place.hasLock = false := by
  cases t with
  | calling timeout => rw [h.1]; rfl
  | holding call | asleep call _ | roused call | returned result =>
      have hplace : s.place = _ := h
      rw [hplace]
      rfl
  | completing | changing | waking | finished => exact h.elim

theorem Here.wake (h : s.Here t) : s.Here t.wake := by
  cases t <;> exact h

theorem here_ofCheck {call : Wait} (hplace : s.place = .checking call) :
    s.proceed.Here (.ofCheck call s.clock s.progress.activity) := by
  rw [Thread.ofCheck]
  cases hcheck : call.check s.clock s.progress.activity <;>
    simp [proceed, hplace, Here, sight, Sight.upshot, hcheck, Upshot.place]

theorem Mirrors.put_of_ne (h : s.Mirrors c i) (hne : j ≠ i) (t : Thread) : s.Mirrors (c.put j t) i := by
  obtain ⟨here, hi, hhere⟩ := h.thread
  refine ⟨h.clock, h.activity, here, ?_, hhere⟩
  rw [Crowd.put, List.getElem?_set_ne hne]
  exact hi

theorem Mirrors.put_self (h : s.Mirrors c i) (hclock : s'.clock = s.clock) (hprogress : s'.progress = s.progress)
    (ht : s'.Here t) : s'.Mirrors (c.put i t) i := by
  obtain ⟨here, hi, -⟩ := h.thread
  obtain ⟨hlt, -⟩ := List.getElem?_eq_some_iff.mp hi
  exact ⟨hclock.trans h.clock, hprogress ▸ h.activity, t, by simp [Crowd.put, hlt], ht⟩

theorem Mirrors.wakeAll (h : s.Mirrors c i) : s.Mirrors c.wakeAll i := by
  obtain ⟨here, hi, hhere⟩ := h.thread
  exact ⟨h.clock, h.activity, here.wake, by simp [Crowd.wakeAll, hi], hhere.wake⟩

theorem Mirrors.join (h : s.Mirrors c i) (t : Thread) : s.Mirrors (c.join t) i := by
  obtain ⟨here, hi, hhere⟩ := h.thread
  obtain ⟨hlt, -⟩ := List.getElem?_eq_some_iff.mp hi
  refine ⟨h.clock, h.activity, here, ?_, hhere⟩
  rw [Crowd.join, List.getElem?_append_left hlt]
  exact hi

/-- The thread takes the lock and checks in one step, the call in two. -/
theorem Mirrors.check (h : s.Mirrors c i) {call : Wait} (hplace : s.proceed.place = .checking call) :
    (s.run [.proceed, .proceed]).Mirrors (c.put i (.ofCheck call c.clock c.activity)) i := by
  have hhere := here_ofCheck hplace
  rw [clock_proceed, progress_proceed, h.clock, h.activity] at hhere
  exact h.put_self (by simp [run, move]) (by simp [run, move]) hhere

theorem Mirrors.advance_self (h : s.Mirrors c i) : ∃ moves, (s.run moves).Mirrors (c.advance i) i := by
  obtain ⟨here, hi, hhere⟩ := h.thread
  cases here with
  | calling timeout =>
      obtain ⟨hplace, rfl⟩ := hhere
      simp only [Crowd.advance, hi]
      split
      · exact ⟨[], h⟩
      · exact ⟨[.proceed, .proceed], h.check (by simp [proceed, hplace, h.clock, h.activity])⟩
  | holding call | asleep call =>
      simp only [Crowd.advance, hi]
      exact ⟨[], h.put_self rfl rfl hhere⟩
  | roused call =>
      have hplace : s.place = .asleep call := hhere
      simp only [Crowd.advance, hi]
      split
      · exact ⟨[], h⟩
      · exact ⟨[.proceed, .proceed], h.check (by simp [proceed, hplace])⟩
  | returned result =>
      simp only [Crowd.advance, hi]
      exact ⟨[], h⟩
  | completing | changing | waking | finished => exact hhere.elim

theorem Mirrors.change (h : s.Mirrors c i) (hne : j ≠ i) (change : Change) :
    ∃ moves, (s.run moves).Mirrors
      { c with activity := change.apply c.activity, threads := c.threads.set j .waking } i := by
  obtain ⟨here, hi, hhere⟩ := h.thread
  -- The call leaves others the lock wherever a thread may stand between two steps.
  have hlock := hhere.unlocked
  have hi : (c.threads.set j .waking)[i]? = some here := by rw [List.getElem?_set_ne hne, hi]
  cases change with
  | complete id =>
      refine ⟨[.complete ⟨id, "", .normal, []⟩], ?_⟩
      have hrun : s.run [.complete ⟨id, "", .normal, []⟩] =
          { s with progress := s.progress.complete ⟨id, "", .normal, []⟩ } := by simp [run, move, hlock]
      rw [hrun]
      exact ⟨h.clock, congrArg (·.complete id) h.activity, here, hi, hhere⟩
  | interrupt =>
      refine ⟨[.interrupt], ?_⟩
      have hrun : s.run [.interrupt] = { s with progress := s.progress.interruptWaiters } := by simp [run, move, hlock]
      rw [hrun]
      exact ⟨h.clock, congrArg (·.interrupt) h.activity, here, hi, hhere⟩

theorem Mirrors.advance_of_ne (h : s.Mirrors c i) (hne : j ≠ i) : ∃ moves, (s.run moves).Mirrors (c.advance j) i := by
  -- Of all that another thread does, only its change reaches the call; the rest is its own place or wakes sleepers.
  cases hj : c.threads[j]? with
  | none =>
      simp only [Crowd.advance, hj]
      exact ⟨[], h⟩
  | some t =>
      cases t with
      | holding | asleep | completing =>
          simp only [Crowd.advance, hj]
          exact ⟨[], h.put_of_ne hne _⟩
      | calling | roused =>
          simp only [Crowd.advance, hj]
          split
          · exact ⟨[], h⟩
          · exact ⟨[], h.put_of_ne hne _⟩
      | changing change =>
          simp only [Crowd.advance, hj]
          split
          · exact ⟨[], h⟩
          · exact h.change hne change
      | waking =>
          simp only [Crowd.advance, hj]
          exact ⟨[], h.wakeAll.put_of_ne hne _⟩
      | returned | finished =>
          simp only [Crowd.advance, hj]
          exact ⟨[], h⟩

/-- A step of the crowd is a few steps of the call, or of others beside it, or none. -/
theorem Mirrors.step (h : s.Mirrors c i) (hstep : Crowd.Step c c') : ∃ moves, (s.run moves).Mirrors c' i := by
  cases hstep with
  | advance j =>
      by_cases hj : j = i
      · subst hj
        exact h.advance_self
      · exact h.advance_of_ne hj
  | pass duration =>
      obtain ⟨here, hi, hhere⟩ := h.thread
      exact ⟨[.pass duration], congrArg (· + duration) h.clock, h.activity, here, hi, hhere⟩
  | call timeout => exact ⟨[], h.join (.calling timeout)⟩
  | complete action => exact ⟨[], h.join (.completing action)⟩
  | interrupt => exact ⟨[], h.join (.changing .interrupt)⟩

theorem Mirrors.steps (h : s.Mirrors c i) (hsteps : Relation.ReflTransGen Crowd.Step c c') :
    ∃ moves, (s.run moves).Mirrors c' i := by
  induction hsteps with
  | refl => exact ⟨[], h⟩
  | tail _ hstep ih =>
      obtain ⟨moves, hmoves⟩ := ih
      obtain ⟨more, hmore⟩ := hmoves.step hstep
      exact ⟨moves ++ more, by rwa [run, List.foldl_append]⟩

/-- A thread that calls in a crowd returns what such a call returns amid others, however the crowd goes on. -/
theorem exists_returned (hs : s.Reachable) (h : s.Mirrors c i) (hsteps : Relation.ReflTransGen Crowd.Step c c')
    {result : Except Interrupted Nat} (hreturned : c'.threads[i]? = some (.returned result)) :
    ∃ s' : Stay, s'.Reachable ∧ s'.timeout = s.timeout ∧ s'.clock = c'.clock ∧ s'.place = .returned result := by
  obtain ⟨moves, hmoves⟩ := h.steps hsteps
  obtain ⟨t, hi, hhere⟩ := hmoves.thread
  rw [hreturned] at hi
  cases hi
  exact ⟨s.run moves, hs.run moves, s.timeout_run moves, hmoves.clock, hhere⟩

end Stay

end BuildRound
