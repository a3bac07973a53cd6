import BuildRound.Proofs.Leaving

/-!
# Flow

How the world changes while the engine works and the threads take turns. The record of such a stretch
determines the signals, the progresses and the bus at its end; boards stay registered unless the engine had them
leave, and the watchdog of the round keeps its place, whatever the schedule.
-/

namespace BuildRound

/-! ## Beside the round -/

/-- What may happen beside the round while a call with this listener is answered: commands of the engine and
cancellations by others. -/
def Occurrence.IsBeside (l : Option Nat) : Occurrence → Prop
  | .issued l' _ _ => l' = l
  | .cancelled _ => True
  | _ => False

/-- Others cancelled tokens, and nothing else was recorded. -/
def Record.Noise (t : Record) : Prop :=
  ∀ o ∈ t, ∃ token, o = .cancelled token

def Record.Beside (l : Option Nat) (t : Record) : Prop :=
  ∀ o ∈ t, o.IsBeside l

theorem Record.Noise.append {t u : Record} (ht : t.Noise) (hu : u.Noise) : (t ++ u).Noise := by
  intro o ho
  exact (List.mem_append.mp ho).elim (ht o) (hu o)

theorem Record.Beside.append {l : Option Nat} {t u : Record} (ht : t.Beside l) (hu : u.Beside l) :
    (t ++ u).Beside l := by
  intro o ho
  exact (List.mem_append.mp ho).elim (ht o) (hu o)

theorem Record.beside_issued (l : Option Nat) (c : Command) (r : c.Reply) : Beside l [.issued l c r] := by
  simp [Beside, Occurrence.IsBeside]

theorem Record.Noise.beside {t : Record} (ht : t.Noise) (l : Option Nat) : t.Beside l := by
  intro o ho
  obtain ⟨token, rfl⟩ := ht o ho
  trivial

theorem Record.Noise.after_progress {t : Record} (ht : t.Noise) (i : Nat) (p : Progress) :
    p.after i t = p := by
  induction t with
  | nil => rfl
  | cons o t ih =>
      obtain ⟨token, rfl⟩ := ht o (by simp)
      exact ih (fun o ho => ht o (by simp [ho]))

theorem Record.Noise.truthful {t : Record} (ht : t.Noise) (i : Nat) (p : Progress) : t.Truthful i p := by
  induction t generalizing p with
  | nil => trivial
  | cons o t ih =>
      obtain ⟨token, rfl⟩ := ht o (by simp)
      exact ⟨trivial, ih (fun o ho => ht o (by simp [ho])) _⟩

/-! ## What a stretch leaves in place -/

/-- A sleeping watchdog is in a wait that it can be woken from. -/
def Watch.Attended (v : Watch) : Prop :=
  ∀ started, v.dog.thread = some (.asleep started) → v.call.isSome = true

/-- The same watchdog at the same post: its thread may have moved, but was neither started nor stopped. -/
structure Watch.Continues (v v' : Watch) : Prop where
  progress : v'.progress = v.progress
  board : v'.board = v.board
  stopping : v'.dog.stopping = v.dog.stopping
  running : v'.dog.isRunning = v.dog.isRunning
  attended : v.Attended → v'.Attended

theorem Watch.Continues.refl (v : Watch) : v.Continues v :=
  ⟨rfl, rfl, rfl, rfl, id⟩

theorem Watch.Continues.trans {u v w : Watch} (h : u.Continues v) (k : v.Continues w) : u.Continues w :=
  ⟨k.progress.trans h.progress, k.board.trans h.board, k.stopping.trans h.stopping,
    k.running.trans h.running, k.attended ∘ h.attended⟩

/-- An occurrence that tells nothing about signals, progresses or the bus. -/
def Occurrence.IsInert : Occurrence → Prop
  | .issued .. | .cancelled _ | .answered (some _) (.ok _) => False
  | _ => True

/-- A board apart from how many reports it has shown. -/
def Board.silent (b : Board) : Board :=
  { b with reportsShown := 0 }

theorem Board.registration_receive (b : Board) (now : Nanos) (e : Event) :
    (b.receive now e).registration = b.registration := by
  cases e <;> rfl

theorem Loop.afterWait_eq_asleep {started started' : Bool}
    {answer : Option (Except Interrupted Nat)} (h : Loop.afterWait started answer = .asleep started') :
    answer = none := by
  unfold Loop.afterWait at h
  split at h
  · rfl
  · cases h
  · split at h <;> cases h
  · cases h

namespace World

/-- What changed from `w` to `w'` is told by `t`, apart from the watchdog. -/
structure Records (w : World) (t : Record) (w' : World) : Prop where
  trace : w'.trace = w.trace ++ t
  signals : w'.signals = w.signals.after t
  progresses : ∀ i, w'.progresses[i]? = w.progresses[i]?.map (Progress.after i · t)
  bus : w.bus.Follows t w'.bus
  boards : w.KeepsBoards w'
  truthful : ∀ i p, w.progresses[i]? = some p → t.Truthful i p

/-- From `w` to `w'` by what `t` records, with the watchdog at its post. -/
structure Flow (w : World) (t : Record) (w' : World) : Prop extends Records w t w' where
  watch : w.watch.Continues w'.watch

theorem Records.trans {w w' w'' : World} {t u : Record} (h : w.Records t w') (k : w'.Records u w'') :
    w.Records (t ++ u) w'' where
  trace := by rw [k.trace, h.trace, List.append_assoc]
  signals := by rw [k.signals, h.signals, Signals.after_append]
  progresses i := by simp [k.progresses, h.progresses, Function.comp_def]
  bus := h.bus.trans k.bus
  boards := h.boards.trans k.boards
  truthful i p hp := Record.truthful_append.mpr
    ⟨h.truthful i p hp, k.truthful i _ (by rw [h.progresses, hp]; rfl)⟩

theorem Records.of_eq {w w' : World} (htrace : w'.trace = w.trace) (hsignals : w'.signals = w.signals)
    (hprogresses : w'.progresses = w.progresses) (hbus : w'.bus = w.bus)
    (hboards : w'.boards.map (·.registration) = w.boards.map (·.registration)) : w.Records [] w' where
  trace := by simp [htrace]
  signals := hsignals
  progresses i := by simp [hprogresses]
  bus := hbus ▸ .refl _
  boards := .of_eq hboards hbus
  truthful _ _ _ := trivial

theorem Records.withDog (d : Watchdog) (w : World) : w.Records [] (withDog (d, w)) :=
  .of_eq rfl rfl rfl rfl rfl

namespace Flow

theorem refl (w : World) : w.Flow [] w :=
  ⟨.of_eq rfl rfl rfl rfl rfl, .refl _⟩

theorem trans {w w' w'' : World} {t u : Record} (h : w.Flow t w') (k : w'.Flow u w'') :
    w.Flow (t ++ u) w'' :=
  ⟨h.toRecords.trans k.toRecords, h.watch.trans k.watch⟩

theorem of_eq {w w' : World} (htrace : w'.trace = w.trace) (hsignals : w'.signals = w.signals)
    (hprogresses : w'.progresses = w.progresses) (hbus : w'.bus = w.bus)
    (hboards : w'.boards.map (·.registration) = w.boards.map (·.registration))
    (hwatch : w.watch.Continues w'.watch) : w.Flow [] w' :=
  ⟨.of_eq htrace hsignals hprogresses hbus hboards, hwatch⟩

end Flow

/-! ## Single occurrences -/

theorem Flow.single {w w' : World} {o : Occurrence} (htrace : w'.trace = w.trace ++ [o])
    (hsignals : w'.signals = w.signals.heed o)
    (hprogresses : ∀ i, w'.progresses[i]? = w.progresses[i]?.map (Progress.notice i · o))
    (hbus : w.bus.Follows [o] w'.bus)
    (hboards : w'.boards.map (·.registration) = w.boards.map (·.registration))
    (htells : ∀ (i : Nat) p, w.progresses[i]? = some p → o.Tells i p) (hwatch : w'.watch = w.watch) :
    w.Flow [o] w' where
  trace := htrace
  signals := hsignals
  progresses := hprogresses
  bus := hbus
  boards := keepsBoards_of_follows hboards hbus
  truthful i p hp := ⟨htells i p hp, trivial⟩
  watch := hwatch ▸ .refl _

theorem Flow.note {o : Occurrence} (h : o.IsInert) (w : World) : w.Flow [o] (w.note o) := by
  refine .single rfl ?_ ?_ ⟨?_, ?_, ?_⟩ rfl ?_ rfl
  · cases o <;> first | rfl | exact h.elim
  · intro i
    have hp : ∀ p : Progress, p.notice i o = p := by
      intro p
      cases o with
      | answered l a => cases l <;> cases a <;> first | rfl | exact h.elim
      | issued => exact h.elim
      | _ => rfl
    simp [World.note, hp]
  · cases o <;> first | rfl | exact h.elim
  · cases o <;> first | rfl | exact h.elim
  · cases o <;> first | exact h.elim | simp [Occurrence.registered?]
  · intro i p hp
    cases o <;> trivial

theorem getElem?_onProgress (w : World) (i j : Nat) (f : Progress → Progress) :
    (w.onProgress i f).progresses[j]? = w.progresses[j]?.map (fun p => if i = j then f p else p) := by
  simp only [onProgress, List.getElem?_modify]
  split <;> simp [*]

/-- A change of a board that leaves what `g` reads off it. -/
theorem map_onBoard {α : Type} (w : World) (i : Nat) {f : Board → Board} {g : Board → α}
    (hf : ∀ b, g (f b) = g b) : (w.onBoard i f).boards.map g = w.boards.map g := by
  apply List.ext_getElem?
  intro j
  simp only [onBoard, List.getElem?_map, List.getElem?_modify]
  cases w.boards[j]? <;> by_cases h : i = j <;> simp [h, hf]

/-- A command that acts on no more than the clock, the log, one progress and one board. -/
private theorem flow_of_local {w w' : World} {o : Occurrence} (htrace : w'.trace = w.trace ++ [o])
    (hsignals : w'.signals = w.signals) (hheed : ∀ s : Signals, s.heed o = s)
    (hprogresses : ∀ i, w'.progresses[i]? = w.progresses[i]?.map (Progress.notice i · o))
    (hbus : w'.bus = w.bus) (henrol : ∀ es, Record.enrol es o = es) (hnone : o.registered? = none)
    (hboards : w'.boards.map (·.registration) = w.boards.map (·.registration))
    (htells : ∀ (i : Nat) p, w.progresses[i]? = some p → o.Tells i p) (hwatch : w'.watch = w.watch) :
    w.Flow [o] w' := by
  refine .single htrace ?_ hprogresses ⟨?_, ?_, ?_⟩ hboards htells hwatch
  · rw [hsignals, hheed]
  · simp [hbus, Record.enrolled, henrol]
  · simp [hbus, hnone]
  · simp [hnone]

/-- A board that the engine has leave takes the id off the bus that the reply tells. -/
private theorem leave_flow (l : Option Nat) (w : World) (j : Nat) :
    w.Flow [.issued l (.leave j) (w.perform l (.leave j)).1] (w.perform l (.leave j)).2 := by
  let v : World := { w with clock := w.clock + 1 }
  have hwaited : w.KeepsBoards v := .of_eq rfl rfl
  have hnoted : (v.dismissBoard j).KeepsBoards (w.perform l (.leave j)).2 := .of_eq rfl rfl
  refine ⟨⟨?_, v.signals_dismissBoard j, fun i => ?_, v.follows_dismissBoard l j,
    hwaited.trans ((v.dismissBoard_keepsBoards j).trans hnoted), fun _ _ _ => ⟨trivial, trivial⟩⟩, ?_⟩
  · exact congrArg (· ++ [_]) (v.trace_dismissBoard j)
  · exact (congrArg (·[i]?) (v.progresses_dismissBoard j)).trans (by cases l <;> exact (Option.map_id' ..).symm)
  · exact show w.watch.Continues (v.dismissBoard j).watch from v.watch_dismissBoard j ▸ .refl v.watch

theorem perform_flow (l : Option Nat) (w : World) (c : Command) :
    w.Flow [.issued l c (w.perform l c).1] (w.perform l c).2 := by
  have hsame : ∀ i : Nat, w.progresses[i]? = w.progresses[i]?.map id := by simp
  have hsilent : ∀ (i : Nat) (p : Progress), w.progresses[i]? = some p → True := fun _ _ _ => trivial
  cases c with
  | notify n =>
      cases l with
      | none => exact flow_of_local rfl rfl (fun _ => rfl) hsame rfl (fun _ => rfl) rfl rfl hsilent rfl
      | some j =>
          refine flow_of_local rfl rfl (fun _ => rfl) ?_ rfl (fun _ => rfl) rfl rfl hsilent rfl
          exact fun i => getElem?_onProgress _ j i _
  | complete j action =>
      refine flow_of_local rfl rfl (fun _ => rfl) ?_ rfl (fun _ => rfl) rfl rfl hsilent rfl
      intro i
      have h := getElem?_onProgress w j i (·.complete action)
      cases l <;> exact h
  | deliver j event =>
      refine flow_of_local rfl rfl (fun _ => rfl) ?_ rfl (fun _ => rfl) rfl ?_ hsilent rfl
      · cases l <;> exact hsame
      · exact map_onBoard _ j (fun b => b.registration_receive _ event)
  | countReport j =>
      refine flow_of_local rfl rfl (fun _ => rfl) ?_ rfl (fun _ => rfl) rfl ?_ hsilent rfl
      · cases l <;> exact hsame
      · exact map_onBoard _ j (fun _ => rfl)
  | leave j => exact leave_flow l w j
  | register name =>
      refine .single rfl rfl ?_ ⟨rfl, rfl, ?_⟩ rfl hsilent rfl
      · cases l <;> exact hsame
      · simp [Occurrence.registered?, perform, execute, Bus.register, Bus.takeId, Bus.push, World.note]
  | unregister id =>
      refine .single rfl rfl ?_ ⟨rfl, rfl, ?_⟩ rfl hsilent rfl
      · cases l <;> exact hsame
      · simp [Occurrence.registered?]
  | cancel token =>
      refine .single rfl rfl ?_ ⟨rfl, rfl, ?_⟩ rfl hsilent rfl
      · cases l <;> exact hsame
      · simp [Occurrence.registered?]
  | readCompleted j | readEnqueued j =>
      refine flow_of_local rfl rfl (fun _ => rfl) ?_ rfl (fun _ => rfl) rfl rfl ?_ rfl
      · cases l <;> exact hsame
      · rintro i p hp rfl
        simp [perform, execute, readProgress, hp]
  | readRunning _ | readReports _ | logReport _ _ | readListeners | readCancelled _ | rest _ | observe _ =>
      refine flow_of_local rfl rfl (fun _ => rfl) ?_ rfl (fun _ => rfl) rfl rfl hsilent rfl
      cases l <;> exact hsame

/-! ## The watchdog -/

/-- What a question of the watchdog may change: its own wait and report, the log and how many reports boards show. -/
structure Aside (w w' : World) : Prop where
  clock : w'.clock = w.clock
  turns : w'.turns = w.turns
  trace : w'.trace = w.trace
  signals : w'.signals = w.signals
  progresses : w'.progresses = w.progresses
  bus : w'.bus = w.bus
  boards : w'.boards.map Board.silent = w.boards.map Board.silent
  progress : w'.watch.progress = w.watch.progress
  board : w'.watch.board = w.watch.board
  exclusive : w'.watch.exclusive = w.watch.exclusive
  dog : w'.watch.dog = w.watch.dog

theorem Aside.refl (w : World) : w.Aside w :=
  ⟨rfl, rfl, rfl, rfl, rfl, rfl, rfl, rfl, rfl, rfl, rfl⟩

theorem Aside.registrations {w w' : World} (h : w.Aside w') :
    w'.boards.map (·.registration) = w.boards.map (·.registration) := by
  simpa [Function.comp_def, Board.silent] using congrArg (List.map Board.registration) h.boards

theorem advanceReport_aside (author : Author) (w : World) : w.Aside (w.advanceReport author).2 := by
  cases h : w.watch.stage with
  | idle =>
      simp only [advanceReport, h]
      split <;> exact ⟨rfl, rfl, rfl, rfl, rfl, rfl, rfl, rfl, rfl, rfl, rfl⟩
  | readCompleted | readEnqueued _ | say _ =>
      simp only [advanceReport, h]
      exact ⟨rfl, rfl, rfl, rfl, rfl, rfl, rfl, rfl, rfl, rfl, rfl⟩
  | render progress =>
      simp only [advanceReport, h]
      split <;> exact ⟨rfl, rfl, rfl, rfl, rfl, rfl, rfl, rfl, rfl, rfl, rfl⟩
  | tally =>
      simp only [advanceReport, h]
      exact ⟨rfl, rfl, rfl, rfl, rfl, rfl, map_onBoard _ _ (fun _ => rfl), rfl, rfl, rfl, rfl⟩

theorem checkWait_aside (w : World) (call : Wait) : w.Aside (w.checkWait call).2 :=
  ⟨rfl, rfl, rfl, rfl, rfl, rfl, rfl, rfl, rfl, rfl, rfl⟩

theorem isSome_call_checkWait {w : World} {call : Wait} (h : (w.checkWait call).1 = none) :
    (w.checkWait call).2.watch.call.isSome = true := by
  simp only [checkWait] at h ⊢
  simp [h]

/-- A step of the watchdog's thread asks at most one question. -/
theorem advance_aside (interval : Nanos) (stopping : Bool) (loop : Loop) (w : World) :
    w.Aside (Watchdog.advance surroundings interval stopping loop w).2 := by
  cases loop with
  | head | ask | judge | ended _ => exact .refl w
  | enter started => exact checkWait_aside w _
  | asleep started =>
      cases h : w.watch.call with
      | none => simp only [Watchdog.advance, surroundings, h]; exact .refl w
      | some call => simp only [Watchdog.advance, surroundings, h]; exact checkWait_aside w call
  | report =>
      have h := advanceReport_aside .watchdog w
      simp only [Watchdog.advance, surroundings]
      rcases hr : w.advanceReport .watchdog with ⟨_ | reported, w'⟩
      all_goals
        simp only [hr] at h ⊢
        exact h
  | note reported => exact ⟨rfl, rfl, rfl, rfl, rfl, rfl, rfl, rfl, rfl, rfl, rfl⟩

theorem isSome_call_advance {interval : Nanos} {stopping : Bool} {loop : Loop} {w : World}
    (hw : ∀ started, loop = .asleep started → w.watch.call.isSome = true) {started : Bool}
    (h : (Watchdog.advance surroundings interval stopping loop w).1 = .asleep started) :
    (Watchdog.advance surroundings interval stopping loop w).2.watch.call.isSome = true := by
  cases loop with
  | head | judge => cases stopping <;> cases h
  | ask | note _ | ended _ => cases h
  | enter _ => exact isSome_call_checkWait (Loop.afterWait_eq_asleep h)
  | asleep started =>
      obtain ⟨call, hcall⟩ := Option.isSome_iff_exists.mp (hw started rfl)
      simp only [Watchdog.advance, surroundings, hcall] at h ⊢
      exact isSome_call_checkWait (Loop.afterWait_eq_asleep h)
  | report =>
      simp only [Watchdog.advance, surroundings] at h
      rcases hr : w.advanceReport .watchdog with ⟨_ | reported, w'⟩ <;> simp [hr] at h

theorem moveWatchdog_flow (w : World) : w.Flow [] w.moveWatchdog := by
  unfold moveWatchdog Watchdog.step
  cases hthread : w.watch.dog.thread with
  | none => exact .refl w
  | some loop =>
      have h := advance_aside w.watch.dog.interval w.watch.dog.stopping loop w
      refine .of_eq h.trace h.signals h.progresses h.bus h.registrations ⟨h.progress, h.board, rfl, ?_, ?_⟩
      · simp [withDog, Watchdog.isRunning, hthread]
      · intro hattended started heq
        simp only [withDog, Option.some.injEq] at heq
        exact isSome_call_advance (fun started' hs => hattended started' (hs ▸ hthread)) heq

/-! ## Taking turns -/

theorem move_flow (w : World) (m : Move) : ∃ t : Record, t.Noise ∧ w.Flow t (w.move m) := by
  cases m with
  | pass duration => exact ⟨[], by simp [Record.Noise], .of_eq rfl rfl rfl rfl rfl (.refl _)⟩
  | watch => exact ⟨[], by simp [Record.Noise], w.moveWatchdog_flow⟩
  | cancel token =>
      refine ⟨[.cancelled token], by simp [Record.Noise],
        .single rfl rfl ?_ ⟨rfl, rfl, ?_⟩ rfl (fun _ _ _ => trivial) rfl⟩
      · intro i
        exact (Option.map_id' ..).symm
      · simp [Occurrence.registered?]

theorem moves_flow (ms : List Move) (w : World) : ∃ t : Record, t.Noise ∧ w.Flow t (ms.foldl move w) := by
  induction ms generalizing w with
  | nil => exact ⟨[], by simp [Record.Noise], .refl w⟩
  | cons m ms ih =>
      obtain ⟨t, ht, h⟩ := w.move_flow m
      obtain ⟨u, hu, k⟩ := ih (w.move m)
      exact ⟨t ++ u, ht.append hu, h.trans k⟩

theorem turn_flow (s : Schedule) (w : World) : ∃ t : Record, t.Noise ∧ w.Flow t (w.turn s) := by
  obtain ⟨t, ht, h⟩ := moves_flow (s w.turns) w
  have k : ((s w.turns).foldl move w).Flow [] (w.turn s) := .of_eq rfl rfl rfl rfl rfl (.refl _)
  exact ⟨t, ht, by simpa using h.trans k⟩

/-! ## Taking in what an evaluation brought -/

/-- A progress takes in the values of its evaluation after the answer was noted; others may have cancelled
in between. -/
theorem Flow.takeIn {w w' w'' : World} {t n : Record} {j : Nat} {result : EvaluationResult}
    (h : w.Flow t w') (hn : n.Noise) (k : (w'.note (.answered (some j) (.ok result))).Flow n w'') :
    w.Flow (t ++ .answered (some j) (.ok result) :: n)
      (w''.onProgress j (fun p => { p with built := p.built.extend result.values })) where
  trace := by
    have hk : w''.trace = w'.trace ++ [.answered (some j) (.ok result)] ++ n := k.trace
    simp [onProgress, hk, h.trace]
  signals := by
    have hk : w''.signals = w'.signals.after n := k.signals
    simp [onProgress, hk, h.signals, Signals.heed]
  progresses i := by
    have hk : w''.progresses[i]? = w'.progresses[i]?.map (Progress.after i · n) := k.progresses i
    rw [getElem?_onProgress, hk, h.progresses]
    cases w.progresses[i]? with
    | none => rfl
    | some p => simp [Progress.notice, hn.after_progress]
  bus := by
    have hk : w'.bus.Follows ([.answered (some j) (.ok result)] ++ n) w''.bus := by
      refine Bus.Follows.trans ⟨rfl, rfl, ?_⟩ k.bus
      simp [Occurrence.registered?]
    exact h.bus.trans hk
  boards :=
    have hnoted : w'.KeepsBoards (w'.note (.answered (some j) (.ok result))) := .of_eq rfl rfl
    have htaken : w''.KeepsBoards (w''.onProgress j (fun p => { p with built := p.built.extend result.values })) :=
      .of_eq rfl rfl
    h.boards.trans (hnoted.trans (k.boards.trans htaken))
  truthful i p hp := Record.truthful_append.mpr ⟨h.truthful i p hp, trivial, hn.truthful i _⟩
  watch := h.watch.trans k.watch

end World

/-! ## Programs -/

/-- A whole program: the record tells all it did, interleaved with what others cancelled. -/
theorem Program.run_flow {α : Type} (s : World.Schedule) (l : Option Nat) (p : Program α) (w : World) :
    ∃ t : Record, t.Beside l ∧ w.Flow t (p.run s l w).2 := by
  induction p generalizing w with
  | done a => exact ⟨[], by simp [Record.Beside], .refl w⟩
  | issue c next ih =>
      obtain ⟨t, ht, h⟩ := w.turn_flow s
      have hc := (w.turn s).perform_flow l c
      obtain ⟨u, hu, k⟩ := ih ((w.turn s).perform l c).1 ((w.turn s).perform l c).2
      exact ⟨_, (ht.beside l).append ((Record.beside_issued l c _).append hu), h.trans (hc.trans k)⟩

end BuildRound
