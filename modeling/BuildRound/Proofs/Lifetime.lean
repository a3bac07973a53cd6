import BuildRound.Proofs.Joining
import BuildRound.Watchdog.Life
import BuildRound.Watchdog.Rehearsal

/-!
# What becomes of the threads of a watchdog

Whatever its owner does, a watchdog has one thread at most, each thread is joined once, and what the owner's calls did
can be told call by call, whatever the threads asked in between. The flag stays up, so a thread that is started after
the first stop finds it and asks nothing.
-/

namespace BuildRound.Life

variable {ε ω : Type} {s : Surroundings ε} {l l' : Life ε ω}

/-! ## Histories -/

namespace History

def spawned (h : History ω) : Nat :=
  h.countP Deed.isSpawned

def joined (h : History ω) : Nat :=
  h.countP Deed.isJoined

/-- What the calls of the owner did, without what threads asked. -/
def acts (h : History ω) : History ω :=
  h.filter (!·.isAsked)

@[simp]
theorem spawned_append (h k : History ω) : spawned (h ++ k) = spawned h + spawned k :=
  List.countP_append

@[simp]
theorem joined_append (h k : History ω) : joined (h ++ k) = joined h + joined k :=
  List.countP_append

@[simp]
theorem acts_append (h k : History ω) : acts (h ++ k) = acts h ++ acts k :=
  List.filter_append ..

@[simp]
theorem spawned_asked (questions : List Question) : spawned (questions.map (Deed.asked (ω := ω))) = 0 := by
  simp [spawned, List.countP_eq_zero]

@[simp]
theorem joined_asked (questions : List Question) : joined (questions.map (Deed.asked (ω := ω))) = 0 := by
  simp [joined, List.countP_eq_zero]

@[simp]
theorem acts_asked (questions : List Question) : acts (questions.map (Deed.asked (ω := ω))) = [] := by
  simp [acts]

end History

/-- A call of the owner. -/
inductive Call (ω : Type) where
  | start
  | startFailing (reason : ω)
  /-- Starting a watchdog that runs. -/
  | startAgain
  | stop (panicked : Bool)
  /-- Stopping a watchdog that does not run. -/
  | stopAgain

/-- What a call does. -/
def Call.deeds : Call ω → History ω
  | start => [.spawned, .started none]
  | startFailing reason => [.started (some reason)]
  | startAgain => [.started none]
  | stop panicked => [.stopping, .interrupted, .joined panicked, .stopped]
  | stopAgain => [.stopping, .stopped]

/-- Whether the watchdog runs after a call, by whether it ran before; nothing if the call is another one then. -/
def Call.after? : Bool → Call ω → Option Bool
  | false, start => some true
  | false, startFailing _ => some false
  | false, stopAgain => some false
  | true, startAgain => some true
  | true, stop _ => some false
  | _, _ => none

/-- Whether the watchdog runs after these calls, if they can be made one after another. -/
def runsAfter? (calls : List (Call ω)) : Option Bool :=
  calls.foldlM Call.after? false

theorem runsAfter?_append {calls : List (Call ω)} {running : Bool} (h : runsAfter? calls = some running)
    (c : Call ω) : runsAfter? (calls ++ [c]) = c.after? running := by
  simp [runsAfter?, List.foldlM_append] at h ⊢
  simp [h]

/-- What a call that stops and has not returned has done. -/
def Owner.unfinished : Owner → History ω
  | .flagging _ | .interrupting _ => [.stopping]
  | .joining _ => [.stopping, .interrupted]
  | .free | .gone => []

/-! ## The steps -/

/-- All that a step can do. -/
inductive Step (s : Surroundings ε) (l : Life ε ω) : Life ε ω → Prop where
  | idle : Step s l l
  | others (around : ε) : Step s l { l with around }
  | startedAgain (hfree : l.owner = .free) (hruns : l.isRunning = true) : Step s l (l.note [.started none])
  | spawned (hfree : l.owner = .free) (hstill : l.isRunning = false) :
      Step s l ({ l with dog := { l.dog with thread := some .head, spawned := l.dog.spawned + 1 } }.note
        [.spawned, .started none])
  | failed (hfree : l.owner = .free) (hstill : l.isRunning = false) (reason : ω) :
      Step s l (l.note [.started (some reason)])
  | stopping (hfree : l.owner = .free) (hruns : l.isRunning = true) (last : Bool) :
      Step s l ({ l with owner := .flagging last }.note [.stopping])
  | stoppedAgain (hfree : l.owner = .free) (hstill : l.isRunning = false) (last : Bool) :
      Step s l ({ l with owner := .after last }.note [.stopping, .stopped])
  | flagged {last : Bool} (howner : l.owner = .flagging last) :
      Step s l { l with dog := { l.dog with stopping := true }, owner := .interrupting last }
  | interrupted {last : Bool} (howner : l.owner = .interrupting last) :
      Step s l ({ l with around := s.interrupt l.around, owner := .joining last }.note [.interrupted])
  | joined {last panicked : Bool} (howner : l.owner = .joining last)
      (hended : l.dog.thread = some (.ended panicked)) (around : ε) :
      Step s l ({ l with
        dog := { l.dog with thread := none, joined := l.dog.joined + 1 }, around, owner := .after last }.note
        [.joined panicked, .stopped])
  | attended {loop : Loop} (hthread : l.dog.thread = some loop) :
      Step s l ({ l with
        dog := { l.dog with thread := some (Watchdog.advance s l.dog.interval l.dog.stopping loop l.around).1 }
        around := (Watchdog.advance s l.dog.interval l.dog.stopping loop l.around).2 }.note
        ((question? loop).toList.map .asked))

theorem start_again (hruns : l.isRunning = true) (failure : Option ω) :
    l.start failure = l.note [.started none] := by
  have hdog : l.dog.start failure.isNone = (true, l.dog) := if_pos hruns
  simp only [start, hdog, hruns]
  rfl

theorem start_fails (hstill : l.isRunning = false) (reason : ω) :
    l.start (some reason) = l.note [.started (some reason)] := by
  have hdog : l.dog.start false = (false, l.dog) := by
    simp only [Watchdog.start, show l.dog.isRunning = false from hstill, Bool.false_eq_true, if_false]
  simp only [start, Option.isNone_some, hdog]
  rfl

theorem start_spawns (hstill : l.isRunning = false) :
    l.start none = { l with dog := { l.dog with thread := some .head, spawned := l.dog.spawned + 1 } }.note
      [.spawned, .started none] := by
  have hdog : l.dog.start true =
      (true, { l.dog with thread := some .head, spawned := l.dog.spawned + 1 }) := by
    simp only [Watchdog.start, show l.dog.isRunning = false from hstill, Bool.false_eq_true, if_false, if_true]
  simp only [start, Option.isNone_none, hdog, hstill]
  rfl

theorem start_step (hfree : l.owner = .free) (failure : Option ω) : Step s l (l.start failure) := by
  cases hruns : l.isRunning with
  | true => exact start_again hruns failure ▸ .startedAgain hfree hruns
  | false =>
      cases failure with
      | none => exact start_spawns hruns ▸ .spawned hfree hruns
      | some reason => exact start_fails hruns reason ▸ .failed hfree hruns reason

theorem stop_step (hfree : l.owner = .free) (last : Bool) : Step s l (l.stop last) := by
  unfold Life.stop
  cases hruns : l.isRunning with
  | true => exact .stopping hfree hruns last
  | false => exact .stoppedAgain hfree hruns last

theorem proceed_step : Step s l (l.proceed s) := by
  unfold proceed
  split
  · rename_i howner
    exact .flagged howner
  · rename_i howner
    exact .interrupted howner
  · rename_i last panicked howner hended
    rw [Watchdog.join_of_run (Watchdog.run_of_ended hended Watchdog.joinBound l.around)]
    exact .joined howner hended _
  · exact .idle

theorem attend_step : Step s l (l.attend s) := by
  cases hthread : l.dog.thread with
  | none =>
      have hsame : l.attend s = l := by simp [attend, Watchdog.step, hthread, note]
      rw [hsame]
      exact .idle
  | some loop =>
      simp only [attend, Watchdog.step, hthread, Option.bind_some]
      exact .attended hthread

theorem move_step (m : Move ε ω) : Step s l (l.move s m) := by
  cases m with
  | start failure =>
      simp only [move]
      split
      · exact start_step ‹_› failure
      · exact .idle
  | stop last =>
      simp only [move]
      split
      · exact stop_step ‹_› last
      · exact .idle
  | proceed => exact proceed_step
  | thread => exact attend_step
  | others change => exact .others _

/-! ## What every step keeps -/

def Owner.isStopping : Owner → Bool
  | .free | .gone => false
  | .flagging _ | .interrupting _ | .joining _ => true

/-- A thread was started after an interruption. -/
def History.Late (h : History ω) : Prop :=
  ∃ u w, h = u ++ .spawned :: w ∧ .interrupted ∈ u

/-- The threads are accounted for, and what was done are the calls of the owner so far. -/
structure Kept (l : Life ε ω) : Prop where
  calls : ∃ calls, runsAfter? calls = some l.isRunning ∧
    l.history.acts = calls.flatMap Call.deeds ++ l.owner.unfinished
  threads : l.history.spawned = l.history.joined + l.isRunning.toNat
  stopping : l.owner.isStopping = true → l.isRunning = true
  gone : l.owner = .gone → l.isRunning = false
  /-- The flag is up before the wait is interrupted, and stays up. -/
  flagged : (∃ last, l.owner = .interrupting last) ∨ .interrupted ∈ l.history → l.dog.stopping = true
  /-- A thread that was started late is about to look at the flag, or it has. -/
  late : l.history.Late → ∀ loop, l.dog.thread = some loop → loop = .head ∨ loop = .ended false
  /-- A thread asks only between its start and its join. -/
  alive : ∀ (u : History ω) q w, l.history = u ++ .asked q :: w → u.spawned = u.joined + 1
  silent : ∀ u w, l.history = u ++ .spawned :: w → .interrupted ∈ u → ∀ q, .asked q ∉ w

theorem kept_new (interval : Nanos) (around : ε) : Kept ({ dog := .ofInterval interval, around } : Life ε ω) where
  calls := ⟨[], rfl, rfl⟩
  threads := rfl
  stopping h := by cases h
  gone h := by cases h
  flagged := by simp
  late _ loop h := by cases h
  alive := by simp
  silent := by simp

/-- After deeds that start no thread none is late that was not late before. -/
theorem History.Late.of_append {h ds : History ω} (hlate : (h ++ ds).Late) (hds : .spawned ∉ ds) : h.Late := by
  obtain ⟨u, w, heq, hinterrupted⟩ := hlate
  rcases append_split heq with ⟨w₁, heq, -⟩ | ⟨v, -, heq⟩
  · exact ⟨u, w₁, heq, hinterrupted⟩
  · exact absurd (by simp [heq]) hds

namespace Kept

/-- Deeds of the owner that start no thread. -/
theorem extend (h : l.Kept) (ds : History ω) (hhistory : l'.history = l.history ++ ds)
    (hasked : ∀ q, .asked q ∉ ds) (hspawned : .spawned ∉ ds)
    (hthread : ∀ loop, l'.dog.thread = some loop → l.dog.thread = some loop)
    (hcalls : ∃ calls, runsAfter? calls = some l'.isRunning ∧
      l'.history.acts = calls.flatMap Call.deeds ++ l'.owner.unfinished)
    (hthreads : l'.history.spawned = l'.history.joined + l'.isRunning.toNat)
    (hstopping : l'.owner.isStopping = true → l'.isRunning = true) (hgone : l'.owner = .gone → l'.isRunning = false)
    (hflagged : (∃ last, l'.owner = .interrupting last) ∨ .interrupted ∈ l'.history → l'.dog.stopping = true) :
    l'.Kept where
  calls := hcalls
  threads := hthreads
  stopping := hstopping
  gone := hgone
  flagged := hflagged
  late hlate loop hloop := by
    rw [hhistory] at hlate
    exact h.late (hlate.of_append hspawned) loop (hthread loop hloop)
  alive u q w heq := by
    rcases append_split (hhistory.symm.trans heq) with ⟨w₁, heq, -⟩ | ⟨v, -, heq⟩
    · exact h.alive u q w₁ heq
    · exact absurd (by simp [heq]) (hasked q)
  silent u w heq hinterrupted q hmem := by
    rcases append_split (hhistory.symm.trans heq) with ⟨w₁, hold, rfl⟩ | ⟨v, -, heq⟩
    · rcases List.mem_append.mp hmem with hmem | hmem
      · exact h.silent u w₁ hold hinterrupted q hmem
      · exact hasked q hmem
    · exact absurd (by simp [heq]) hspawned

/-- A call returns once it has done all that it does. -/
theorem called (h : l.Kept) (c : Call ω) (ds : History ω) {running : Bool}
    (hafter : c.after? l.isRunning = some running) (hds : l.owner.unfinished ++ ds.acts = c.deeds) :
    ∃ calls, runsAfter? calls = some running ∧ (l.history ++ ds).acts = calls.flatMap Call.deeds := by
  obtain ⟨calls, hbefore, hacts⟩ := h.calls
  refine ⟨calls ++ [c], (runsAfter?_append hbefore c).trans hafter, ?_⟩
  rw [History.acts_append, hacts, List.append_assoc, hds, List.flatMap_append, List.flatMap_singleton]

/-- A new thread is about to look at the flag. -/
theorem spawn (h : l.Kept) (hfree : l.owner = .free) (hstill : l.isRunning = false) :
    ({ l with dog := { l.dog with thread := some .head, spawned := l.dog.spawned + 1 } }.note
      [.spawned, .started none]).Kept := by
  have hthreads := h.threads
  rw [hstill] at hthreads
  obtain ⟨calls, hafter, hacts⟩ :=
    h.called .start [.spawned, .started none] (by rw [hstill]; rfl) (by rw [hfree]; rfl)
  exact {
    calls := ⟨calls, hafter, by simp [note, hacts, hfree, Owner.unfinished]⟩
    threads := by
      rw [note, History.spawned_append, History.joined_append, hthreads]
      rfl
    stopping := fun hstopping => by simp [note, hfree, Owner.isStopping] at hstopping
    gone := fun hgone => by simp [note, hfree] at hgone
    flagged := fun hcase => h.flagged (by simpa [note] using hcase)
    late := fun _ loop hloop => .inl (Option.some.inj hloop).symm
    alive := fun u q w heq => by
      rcases append_split heq with ⟨w₁, heq, -⟩ | ⟨v, -, heq⟩
      · exact h.alive u q w₁ heq
      · have hmem : .asked q ∈ [Deed.spawned (ω := ω), .started none] := by
          rw [heq]
          simp
        simp at hmem
    silent := fun u w heq hinterrupted q hmem => by
      rcases append_split heq with ⟨w₁, hold, rfl⟩ | ⟨v, -, heq⟩
      · exact h.silent u w₁ hold hinterrupted q (by simpa using hmem)
      · have hmem : .asked q ∈ [Deed.spawned (ω := ω), .started none] := by
          rw [heq]
          simp [hmem]
        simp at hmem }

/-- A thread that was started late asks nothing, and its first look at the flag ends it. -/
theorem attend (h : l.Kept) {loop : Loop} (hthread : l.dog.thread = some loop) {next : Loop} {around : ε}
    (hnext : Watchdog.advance s l.dog.interval l.dog.stopping loop l.around = (next, around)) :
    ({ l with dog := { l.dog with thread := some next }, around }.note
      ((question? loop).toList.map .asked)).Kept := by
  obtain ⟨calls, hafter, hacts⟩ := h.calls
  have hthreads := h.threads
  have hruns : l.isRunning = true := by simp [isRunning, Watchdog.isRunning, hthread]
  rw [hruns] at hafter hthreads
  have hspawned : .spawned ∉ (question? loop).toList.map (Deed.asked (ω := ω)) := by simp
  -- The flag is up before anything is interrupted, so a late thread finds it at its first look.
  have hlate : l.history.Late → question? loop = none ∧ next = .ended false := by
    intro hlate
    have hstopping : l.dog.stopping = true := by
      obtain ⟨u, w, heq, hinterrupted⟩ := hlate
      exact h.flagged (.inr (by simp [heq, hinterrupted]))
    rcases h.late hlate loop hthread with rfl | rfl
    · exact ⟨rfl, by simpa [Watchdog.advance, hstopping] using (congrArg (·.1) hnext).symm⟩
    · exact ⟨rfl, (congrArg (·.1) hnext).symm⟩
  exact {
    calls := ⟨calls, hafter, by simp [note, hacts]⟩
    threads := by
      rw [note, History.spawned_append, History.joined_append, hthreads]
      simp [isRunning, Watchdog.isRunning]
    stopping := fun _ => rfl
    gone := fun hgone => by simp [h.gone hgone] at hruns
    flagged := fun hcase => h.flagged (by simpa [note] using hcase)
    late := fun hnow loop' hloop' => by
      obtain ⟨-, rfl⟩ := hlate (hnow.of_append hspawned)
      exact .inr (Option.some.inj hloop').symm
    alive := fun u q w heq => by
      rcases append_split heq with ⟨w₁, heq, -⟩ | ⟨v, hu, heq⟩
      · exact h.alive u q w₁ heq
      · cases hquestion : question? loop with
        | none => simp [hquestion] at heq
        | some asked =>
            cases v with
            | nil => simpa [hu] using hthreads
            | cons d v => simp [hquestion] at heq
    silent := fun u w heq hinterrupted q hmem => by
      rcases append_split heq with ⟨w₁, hold, rfl⟩ | ⟨v, -, heq⟩
      · obtain ⟨hquestion, -⟩ := hlate ⟨u, w₁, hold, hinterrupted⟩
        exact h.silent u w₁ hold hinterrupted q (by simpa [hquestion] using hmem)
      · exact absurd (by simp [heq]) hspawned }

theorem step (h : l.Kept) (hstep : Step s l l') : l'.Kept := by
  have hthreads := h.threads
  cases hstep with
  | idle => exact h
  | others around => exact { h with }
  | startedAgain hfree hruns =>
      obtain ⟨calls, hafter, hacts⟩ :=
        h.called .startAgain [.started none] (by rw [hruns]; rfl) (by rw [hfree]; rfl)
      exact h.extend [.started none] rfl (by simp) (by simp) (fun _ => id)
        ⟨calls, hafter.trans (congrArg some hruns.symm), by simp [note, hacts, hfree, Owner.unfinished]⟩
        (by simpa [note]) h.stopping h.gone (by simpa [note] using h.flagged)
  | spawned hfree hstill => exact h.spawn hfree hstill
  | failed hfree hstill reason =>
      obtain ⟨calls, hafter, hacts⟩ :=
        h.called (.startFailing reason) [.started (some reason)] (by rw [hstill]; rfl) (by rw [hfree]; rfl)
      exact h.extend [.started (some reason)] rfl (by simp) (by simp) (fun _ => id)
        ⟨calls, hafter.trans (congrArg some hstill.symm), by simp [note, hacts, hfree, Owner.unfinished]⟩
        (by simpa [note]) h.stopping h.gone (by simpa [note] using h.flagged)
  | stopping hfree hruns last =>
      obtain ⟨calls, hafter, hacts⟩ := h.calls
      exact h.extend [.stopping] rfl (by simp) (by simp) (fun _ => id)
        ⟨calls, hafter, by rw [note, History.acts_append, hacts, hfree]; simp [Owner.unfinished, History.acts]⟩
        (by simpa [note]) (fun _ => hruns) (fun hgone => by cases hgone)
        (fun hcase => h.flagged (by simpa [note, hfree] using hcase))
  | stoppedAgain hfree hstill last =>
      obtain ⟨calls, hafter, hacts⟩ :=
        h.called .stopAgain [.stopping, .stopped] (by rw [hstill]; rfl) (by rw [hfree]; rfl)
      exact h.extend [.stopping, .stopped] rfl (by simp) (by simp) (fun _ => id)
        ⟨calls, hafter.trans (congrArg some hstill.symm), by
          cases last <;> simp [note, hacts, Owner.unfinished, Owner.after]⟩
        (by simpa [note]) (by cases last <;> simp [note, Owner.after, Owner.isStopping]) (fun _ => hstill)
        (fun hcase => h.flagged (by cases last <;> simpa [note, Owner.after, hfree] using hcase))
  | flagged howner =>
      obtain ⟨calls, hafter, hacts⟩ := h.calls
      have hruns := h.stopping (by rw [howner]; rfl)
      exact h.extend [] (List.append_nil _).symm (by simp) (by simp) (fun _ => id)
        ⟨calls, hafter, by rw [hacts, howner]; rfl⟩ hthreads (fun _ => hruns) (fun hgone => by cases hgone)
        (fun _ => rfl)
  | interrupted howner =>
      obtain ⟨calls, hafter, hacts⟩ := h.calls
      have hruns := h.stopping (by rw [howner]; rfl)
      have hstopping := h.flagged (.inl ⟨_, howner⟩)
      exact h.extend [.interrupted] rfl (by simp) (by simp) (fun _ => id)
        ⟨calls, hafter, by rw [note, History.acts_append, hacts, howner]; simp [Owner.unfinished, History.acts]⟩
        (by simpa [note]) (fun _ => hruns) (fun hgone => by cases hgone) (fun _ => hstopping)
  | joined howner hended around =>
      rename_i last panicked
      have hruns := h.stopping (by rw [howner]; rfl)
      rw [hruns] at hthreads
      obtain ⟨calls, hafter, hacts⟩ := h.called (.stop panicked) [.joined panicked, .stopped]
        (by rw [hruns]; rfl) (by rw [howner]; rfl)
      refine h.extend [.joined panicked, .stopped] rfl (by simp) (by simp) (fun loop hloop => by cases hloop)
        ⟨calls, hafter, by cases last <;> simp [note, hacts, Owner.unfinished, Owner.after]⟩ ?_
        (by cases last <;> simp [note, Owner.after, Owner.isStopping]) (fun _ => rfl)
        (fun hcase => h.flagged (.inr ?_))
      · rw [note, History.spawned_append, History.joined_append, hthreads]
        rfl
      · cases last <;> simpa [note, Owner.after] using hcase
  | attended hthread => exact h.attend hthread rfl

theorem run (h : l.Kept) (moves : List (Move ε ω)) : (l.run s moves).Kept := by
  induction moves generalizing l with
  | nil => exact h
  | cons m moves ih => exact ih (h.step (move_step m))

end Kept

theorem Reachable.kept (h : Reachable s l) : l.Kept := by
  obtain ⟨interval, around, moves, rfl⟩ := h
  exact (kept_new interval around).run moves

/-! ## After the owner has let go -/

theorem Step.of_gone (h : Step s l l') (hgone : l.owner = .gone) (hstill : l.isRunning = false) :
    ∃ around, l' = { l with around } := by
  cases h with
  | idle => exact ⟨l.around, rfl⟩
  | others around => exact ⟨around, rfl⟩
  | startedAgain hfree | spawned hfree | failed hfree | stopping hfree | stoppedAgain hfree =>
      cases hgone.symm.trans hfree
  | flagged howner | interrupted howner | joined howner => cases hgone.symm.trans howner
  | attended hthread => simp [isRunning, Watchdog.isRunning, hthread] at hstill

theorem run_of_gone (hgone : l.owner = .gone) (hstill : l.isRunning = false) (moves : List (Move ε ω)) :
    ∃ around, l.run s moves = { l with around } := by
  induction moves generalizing l with
  | nil => exact ⟨l.around, rfl⟩
  | cons m moves ih =>
      obtain ⟨around, heq⟩ := (move_step m).of_gone hgone hstill
      obtain ⟨around', heq'⟩ := ih (l := { l with around }) hgone hstill
      exact ⟨around', (congrArg (run s · moves) heq).trans heq'⟩

/-! ## Stopping at one go -/

/-- The thread takes its steps one after another. -/
theorem run_thread (s : Surroundings ε) (l : Life ε ω) (n : Nat) :
    ∃ (k : Nat) (history : History ω), l.run s (List.replicate k .thread) =
      { l with dog := (l.dog.run s n l.around).1, around := (l.dog.run s n l.around).2, history } := by
  induction n generalizing l with
  | zero => exact ⟨0, l.history, rfl⟩
  | succ n ih =>
      by_cases hended : l.dog.thread.any Loop.isEnded = true
      · exact ⟨0, l.history, by simp [Watchdog.run, hended, Life.run]⟩
      · obtain ⟨k, history, heq⟩ := ih (l.attend s)
        refine ⟨k + 1, history, ?_⟩
        simp only [Watchdog.run, hended, Bool.false_eq_true, if_false]
        exact heq

theorem run_stopping (hfree : l.owner = .free) (hruns : l.isRunning = true) (last : Bool) :
    l.run s [.stop last, .proceed, .proceed] =
      { l with dog := { l.dog with stopping := true }, around := s.interrupt l.around, owner := .joining last }.note
        [.stopping, .interrupted] := by
  simp [Life.run, move, hfree, Life.stop, hruns, proceed, note]

/-- A stop that joins the thread is what its steps come to, with those of the thread in between. -/
theorem run_stop (hfree : l.owner = .free) (hjoined : (l.dog.stop s l.around).1.isRunning = false) :
    ∃ (moves : List (Move ε ω)) (history : History ω), l.run s (.stop false :: moves) =
      { l with dog := (l.dog.stop s l.around).1, around := (l.dog.stop s l.around).2, history } := by
  cases hruns : l.isRunning with
  | false =>
      refine ⟨[], (l.note [.stopping, .stopped]).history, ?_⟩
      simp [Life.run, move, hfree, Life.stop, hruns, Owner.after, note, Watchdog.stop,
        show l.dog.isRunning = false from hruns]
  | true =>
      let l₁ : Life ε ω := { l with dog := { l.dog with stopping := true }, around := s.interrupt l.around
                                    owner := .joining false }.note [.stopping, .interrupted]
      have hbegin : l.run s [.stop false, .proceed, .proceed] = l₁ := run_stopping hfree hruns false
      have hstop : l.dog.stop s l.around = l₁.dog.join s l₁.around := if_pos hruns
      rw [hstop] at hjoined ⊢
      obtain ⟨k, history, hthread⟩ := run_thread s l₁ Watchdog.joinBound
      obtain ⟨panicked, hended, hjoin⟩ := Watchdog.join_of_joined (d := l₁.dog) hruns hjoined
      refine ⟨[.proceed, .proceed] ++ List.replicate k .thread ++ [.proceed],
        history ++ [.joined panicked, .stopped], ?_⟩
      have hcourse : l.run s (.stop false :: ([.proceed, .proceed] ++ List.replicate k .thread ++ [.proceed])) =
          ((l.run s [.stop false, .proceed, .proceed]).run s (List.replicate k .thread)).proceed s := by
        simp [Life.run, move]
      rw [hcourse, hbegin, hthread, hjoin]
      simp only [proceed, hended]
      simp [l₁, note, Owner.after, hfree]

/-! ## Every course of a watchdog's life -/

/-- What can be relied on, wherever a watchdog stands in its life. -/
structure Orderly (s : Surroundings ε) (l : Life ε ω) : Prop where
  /-- A running watchdog has one thread that was not joined, and another has none. -/
  threads : l.history.spawned = l.history.joined + l.isRunning.toNat
  /-- But for what threads asked, what was done is what the owner's calls do, one call after another. -/
  calls : ∃ calls, runsAfter? calls = some l.isRunning ∧
    l.history.acts = calls.flatMap Call.deeds ++ l.owner.unfinished
  startedAgain : l.owner = .free → l.isRunning = true → ∀ failure,
    l.move s (.start failure) = l.note [.started none]
  failed : l.owner = .free → l.isRunning = false → ∀ reason,
    l.move s (.start (some reason)) = l.note [.started (some reason)]
  startable : l.owner = .free → l.isRunning = false → (l.move s (.start none)).isRunning = true
  stoppedAgain : l.owner = .free → l.isRunning = false → ∀ last,
    l.move s (.stop last) = { l with owner := .after last }.note [.stopping, .stopped]
  stopping : l.owner = .free → l.isRunning = true → ∀ last,
    l.run s [.stop last, .proceed, .proceed] =
      { l with dog := { l.dog with stopping := true }, around := s.interrupt l.around, owner := .joining last }.note
        [.stopping, .interrupted]
  /-- Whoever stops a watchdog waits until the thread is at its end, and then joins it. -/
  joining : ∀ last, l.owner = .joining last → ∃ loop, l.dog.thread = some loop ∧
    (loop.isEnded = false → l.move s .proceed = l) ∧
    ∀ panicked, loop = .ended panicked →
      (l.move s .proceed).owner = .after last ∧ (l.move s .proceed).isRunning = false ∧
      (l.move s .proceed).history = l.history ++ [.joined panicked, .stopped]
  /-- A thread asks while it runs. -/
  alive : ∀ (u : History ω) q w, l.history = u ++ .asked q :: w → u.spawned = u.joined + 1
  /-- A thread that is started after a running watchdog was stopped asks nothing. -/
  silent : ∀ u w, l.history = u ++ .spawned :: w → .interrupted ∈ u → ∀ q, .asked q ∉ w
  /-- An owner who has let go leaves no thread, and does nothing more. -/
  gone : l.owner = .gone → l.isRunning = false ∧
    ∀ moves : List (Move ε ω), ∃ around, l.run s moves = { l with around }

theorem proceed_unended {last : Bool} {loop : Loop} (howner : l.owner = .joining last)
    (hthread : l.dog.thread = some loop) (hended : loop.isEnded = false) : l.proceed s = l := by
  cases loop <;> simp_all [proceed, Loop.isEnded]

theorem proceed_ended {last panicked : Bool} (howner : l.owner = .joining last)
    (hthread : l.dog.thread = some (.ended panicked)) :
    (l.proceed s).owner = .after last ∧ (l.proceed s).isRunning = false ∧
      (l.proceed s).history = l.history ++ [.joined panicked, .stopped] := by
  have hjoin := Watchdog.join_of_run (Watchdog.run_of_ended (s := s) hthread Watchdog.joinBound l.around)
  simp [proceed, howner, hthread, hjoin, note, isRunning, Watchdog.isRunning]

/-- A watchdog is orderly whatever its owner, its threads and its surroundings do. -/
theorem Reachable.orderly (h : Reachable s l) : l.Orderly s where
  threads := h.kept.threads
  calls := h.kept.calls
  startedAgain hfree hruns failure := (if_pos hfree).trans (start_again hruns failure)
  failed hfree hstill reason := (if_pos hfree).trans (start_fails hstill reason)
  startable hfree hstill := by
    rw [move, if_pos hfree, start_spawns hstill]
    rfl
  stoppedAgain hfree hstill last := by
    simp [move, hfree, Life.stop, hstill]
  stopping := run_stopping
  joining last howner := by
    have hruns := h.kept.stopping (by rw [howner]; rfl)
    obtain ⟨loop, hthread⟩ := Option.isSome_iff_exists.mp hruns
    exact ⟨loop, hthread, proceed_unended howner hthread,
      fun panicked hloop => proceed_ended howner (hthread.trans (congrArg some hloop))⟩
  alive := h.kept.alive
  silent := h.kept.silent
  gone hgone := ⟨h.kept.gone hgone, run_of_gone hgone (h.kept.gone hgone)⟩

/-- The moves of an owner whose first attempt to start fails, whose watchdog is stopped when a report has panicked, and
who starts it once more. -/
def Move.restarting : List (Move Rehearsal String) :=
  [.start (some "no threads left"), .start none, .start none] ++ List.replicate 5 .thread ++
    [.stop false, .proceed, .proceed, .proceed, .stop false, .start none] ++ List.replicate 2 .thread ++
    [.stop true, .proceed, .proceed, .proceed, .start none]

/-- The thread that panicked is joined, and the one that is started after it asks nothing. -/
theorem orderly_restarting :
    let l : Life Rehearsal String := run Rehearsal.surroundings
      { dog := .ofInterval (Nanos.ofSeconds 1), around := { cues := [⟨true, .ok 0, .panic⟩] } } Move.restarting
    l.Orderly Rehearsal.surroundings ∧ l.owner = .gone ∧ l.history =
      [.started (some "no threads left"), .spawned, .started none, .started none,
        .asked .hasStarted, .asked .wait, .asked .report, .stopping, .interrupted, .joined true, .stopped,
        .stopping, .stopped, .spawned, .started none, .stopping, .interrupted, .joined false, .stopped] :=
  ⟨Reachable.orderly ⟨_, _, _, rfl⟩, by decide +kernel, by decide +kernel⟩

end BuildRound.Life
