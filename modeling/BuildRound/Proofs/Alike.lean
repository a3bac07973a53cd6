import BuildRound.Proofs.Parts

/-!
# Alike worlds

Nothing that happens in a round depends on what was logged, or on the failure policy that requests in the trace were
made under. Two worlds that differ in no more than that stay alike as long as the same is done in both.
-/

namespace BuildRound

/-! ## Without the policy -/

def Request.neutral (q : Request) : Request :=
  { q with keepGoing := false }

def Call.neutral : Call → Call
  | .evaluate q => .evaluate q.neutral
  | call => call

def Occurrence.neutral : Occurrence → Occurrence
  | .called call => .called call.neutral
  | o => o

theorem Call.listener_eq {call call' : Call} (h : call'.neutral = call.neutral) : call'.listener = call.listener := by
  have hneutral : ∀ c : Call, c.neutral.listener = c.listener := fun c => by cases c <;> rfl
  rw [← hneutral, h, hneutral]

namespace World

variable {α : Type} {w w' : World}

/-- The worlds differ in their logs at most, and in their traces by the policies of requests. -/
def Alike (w w' : World) : Prop :=
  ∃ log trace, w' = { w with log, trace } ∧ trace.map Occurrence.neutral = w.trace.map Occurrence.neutral

namespace Alike

theorem refl (w : World) : w.Alike w :=
  ⟨w.log, w.trace, rfl, rfl⟩

/-- A change that neither looks at the log and the trace nor adds to them. -/
theorem map {f : World → World} (hf : ∀ (w : World) log trace, f { w with log, trace } = { f w with log, trace })
    (h : w.Alike w') : (f w).Alike (f w') := by
  obtain ⟨log, trace, rfl, h⟩ := h
  have hkept : (f w).trace = w.trace := (congrArg World.trace (hf w w.log w.trace) :)
  exact ⟨log, trace, hf w log trace, by rw [hkept, h]⟩

/-- What can be read of a world besides its log and its trace. -/
theorem read {f : World → α} (hf : ∀ (w : World) log trace, f { w with log, trace } = f w) (h : w.Alike w') :
    f w' = f w := by
  obtain ⟨log, trace, rfl, -⟩ := h
  exact hf w log trace

theorem say (h : w.Alike w') (author : Author) (entries entries' : List Log.Entry) :
    (w.say author entries).Alike (w'.say author entries') := by
  obtain ⟨log, trace, rfl, h⟩ := h
  exact ⟨_, trace, rfl, h⟩

theorem note (h : w.Alike w') {o o' : Occurrence} (ho : o'.neutral = o.neutral) :
    (w.note o).Alike (w'.note o') := by
  obtain ⟨log, trace, rfl, h⟩ := h
  exact ⟨log, _, rfl, by simp [World.note, h, ho]⟩

theorem trace_eq (h : w.Alike w') : w'.trace.map Occurrence.neutral = w.trace.map Occurrence.neutral := by
  obtain ⟨log, trace, rfl, h⟩ := h
  exact h

end Alike

/-- What is done with alike worlds brings the same answer and leaves alike worlds. -/
def Agree (f f' : World → α × World) : Prop :=
  ∀ w w', w.Alike w' → (f' w').1 = (f w).1 ∧ (f w).2.Alike (f' w').2

/-- What neither looks at the log and the trace nor adds to them. -/
theorem Agree.of_frame {f : World → α × World}
    (hf : ∀ (w : World) log trace, f { w with log, trace } = ((f w).1, { (f w).2 with log, trace })) : Agree f f :=
  fun _ _ h => ⟨h.read (f := fun w => (f w).1) (fun w log trace => by rw [hf]),
    h.map (f := fun w => (f w).2) (fun w log trace => by rw [hf])⟩

theorem Agree.advanceReport (author : Author) : Agree (advanceReport author) (advanceReport author) := by
  rintro w _ ⟨log, trace, rfl, h⟩
  obtain ⟨clock, turns, signals, bus, progresses, boards, ⟨dog, i, j, exclusive, call, stage⟩, _, _⟩ := w
  cases stage with
  | idle => cases exclusive <;> exact ⟨rfl, log, trace, rfl, h⟩
  | readCompleted | readEnqueued _ | tally => exact ⟨rfl, log, trace, rfl, h⟩
  | say report => exact ⟨rfl, _, trace, rfl, h⟩
  | render progress =>
      simp only [World.advanceReport, readBoard]
      split <;> exact ⟨by trivial, log, trace, rfl, h⟩

theorem Agree.advance (interval : Nanos) (stopping : Bool) (loop : Loop) :
    Agree (Watchdog.advance surroundings interval stopping loop)
      (Watchdog.advance surroundings interval stopping loop) := by
  intro w w' halike
  cases loop with
  | report =>
      have hreport := Agree.advanceReport .watchdog w w' halike
      revert hreport
      simp only [Watchdog.advance, surroundings]
      rcases w.advanceReport .watchdog with ⟨reply, v⟩
      rcases w'.advanceReport .watchdog with ⟨reply', v'⟩
      rintro ⟨hreply, hv⟩
      obtain rfl : reply' = reply := hreply
      cases reply' <;> exact ⟨rfl, hv⟩
  | note reported =>
      refine ⟨rfl, ?_⟩
      exact halike.say ..
  | asleep started =>
      obtain ⟨log, trace, rfl, h⟩ := halike
      simp only [Watchdog.advance, surroundings]
      split <;> exact ⟨by trivial, log, trace, rfl, h⟩
  | _ =>
      obtain ⟨log, trace, rfl, h⟩ := halike
      exact ⟨rfl, log, trace, rfl, h⟩

theorem Alike.moveWatchdog (h : w.Alike w') : w.moveWatchdog.Alike w'.moveWatchdog := by
  have hdog : w'.watch.dog = w.watch.dog := h.read (f := (·.watch.dog)) (fun _ _ _ => rfl)
  unfold World.moveWatchdog Watchdog.step
  rw [hdog]
  cases w.watch.dog.thread with
  | none => exact h.map (f := fun v => withDog (w.watch.dog, v)) (fun _ _ _ => rfl)
  | some loop =>
      obtain ⟨hloop, log, trace, heq, htrace⟩ := Agree.advance w.watch.dog.interval w.watch.dog.stopping loop w w' h
      simp only [hloop]
      exact ⟨log, trace, by simp only [withDog, heq], htrace⟩

theorem Alike.move (h : w.Alike w') (m : Move) : (w.move m).Alike (w'.move m) := by
  cases m with
  | pass duration => exact h.map (f := fun w => { w with clock := w.clock + duration }) (fun _ _ _ => rfl)
  | watch => exact h.moveWatchdog
  | cancel token =>
      exact (h.map (f := fun w => { w with signals := w.signals.cancel token }) (fun _ _ _ => rfl)).note rfl

theorem Alike.moves (ms : List Move) (h : w.Alike w') : (ms.foldl World.move w).Alike (ms.foldl World.move w') := by
  induction ms generalizing w w' with
  | nil => exact h
  | cons m ms ih => exact ih (h.move m)

theorem Alike.turn (h : w.Alike w') (s : Schedule) : (w.turn s).Alike (w'.turn s) := by
  have hturns : w'.turns = w.turns := h.read (f := World.turns) (fun _ _ _ => rfl)
  obtain ⟨log, trace, heq, htrace⟩ := h.moves (s w.turns)
  exact ⟨log, trace, by simp only [World.turn, hturns, heq], htrace⟩

theorem Agree.execute (l : Option Nat) (c : Command) : Agree (execute l · c) (execute l · c) := by
  intro w w' halike
  cases c with
  | notify n =>
      cases l with
      | none => exact ⟨rfl, halike⟩
      | some i =>
          obtain ⟨log, trace, rfl, h⟩ := halike
          exact ⟨rfl, _, trace, rfl, h⟩
  | logReport i progress =>
      obtain ⟨log, trace, rfl, h⟩ := halike
      exact ⟨rfl, _, trace, rfl, h⟩
  | leave i =>
      refine Agree.of_frame (f := (World.execute l · (.leave i))) (fun w log trace => ?_) w w' halike
      simp only [World.execute, dismissBoard_eq]
      rfl
  | _ =>
      obtain ⟨log, trace, rfl, h⟩ := halike
      exact ⟨rfl, log, trace, rfl, h⟩

theorem Agree.perform (l : Option Nat) (c : Command) : Agree (perform l · c) (perform l · c) := by
  intro w w' halike
  have hclock : Alike { w with clock := w.clock + 1 } { w' with clock := w'.clock + 1 } :=
    halike.map (f := fun w => { w with clock := w.clock + 1 }) (fun _ _ _ => rfl)
  obtain ⟨hreply, hnext⟩ := Agree.execute l c _ _ hclock
  simp only [World.perform, hreply]
  exact ⟨by trivial, hnext.note rfl⟩

end World

theorem Program.run_agree {α : Type} (s : World.Schedule) (l : Option Nat) (p : Program α) :
    World.Agree (p.run s l) (p.run s l) := by
  intro w w' h
  induction p generalizing w w' with
  | done a => exact ⟨rfl, h⟩
  | issue c next ih =>
      obtain ⟨hreply, hnext⟩ := World.Agree.perform l c _ _ (h.turn s)
      simp only [Program.run, hreply]
      exact ih _ _ _ hnext

namespace Round

variable {σ α β : Type}

/-! ## Parts of a round -/

/-- The same engine in alike worlds. -/
structure Stage.Alike (s s' : Stage σ) : Prop where
  world : s.world.Alike s'.world
  engine : s'.engine = s.engine

/-- Done on alike stages, the two parts answer the same and leave alike stages. -/
def Act.Agree (part part' : Act σ α) : Prop :=
  ∀ s s' : Stage σ, s.Alike s' → (part'.on s').1 = (part.on s).1 ∧ (part.on s).2.Alike (part'.on s').2

def Attempt.Agree (part part' : Attempt σ α) : Prop :=
  Act.Agree part.run part'.run

theorem Attempt.Agree.on {part part' : Attempt σ α} {s s' m : Stage σ} {r : Except BuildError α}
    (h : part.Agree part') (hs : s.Alike s') (hon : Act.on part.run s = (r, m)) :
    ∃ m', Act.on part'.run s' = (r, m') ∧ m.Alike m' := by
  obtain ⟨hr, hm⟩ := h s s' hs
  rw [hon] at hr hm
  exact ⟨(Act.on part'.run s').2, Prod.ext hr rfl, hm⟩

theorem Act.Agree.pure (a : α) : Act.Agree (Pure.pure a : Act σ α) (Pure.pure a) :=
  fun _ _ h => ⟨rfl, h⟩

theorem Act.Agree.bind {part part' : Act σ α} {rest rest' : α → Act σ β} (h : part.Agree part')
    (k : ∀ a, (rest a).Agree (rest' a)) : (part >>= rest).Agree (part' >>= rest') := by
  intro s s' hs
  obtain ⟨ha, hnext⟩ := h s s' hs
  have hrest := k (part.on s).1 _ _ hnext
  show (Act.on (rest' (part'.on s').1) (part'.on s').2).1 = (Act.on (rest (part.on s).1) (part.on s).2).1 ∧
    Stage.Alike (Act.on (rest (part.on s).1) (part.on s).2).2 (Act.on (rest' (part'.on s').1) (part'.on s').2).2
  rw [ha]
  exact hrest

theorem Attempt.Agree.bind {part part' : Attempt σ α} {rest rest' : α → Attempt σ β} (h : part.Agree part')
    (k : ∀ a, (rest a).Agree (rest' a)) : (part >>= rest).Agree (part' >>= rest') := by
  show Act.Agree (part.run >>= ExceptT.bindCont rest) (part'.run >>= ExceptT.bindCont rest')
  refine Act.Agree.bind h (fun a => ?_)
  cases a with
  | error e => exact Act.Agree.pure _
  | ok a => exact k a

theorem Act.Agree.lift {part part' : Act σ α} (h : part.Agree part') : (lift part).Agree (lift part') :=
  Act.Agree.bind h (fun a => .pure (Except.ok a))

theorem Attempt.Agree.orFail (answer : Except BuildError α) :
    Attempt.Agree (orFail answer : Attempt σ α) (Round.orFail answer) :=
  Act.Agree.pure answer

theorem act_agree (host : Host) {f f' : World → α × World} (h : World.Agree f f') :
    Act.Agree (act host f : Act σ α) (act host f') := by
  intro s s' hs
  obtain ⟨ha, hw⟩ := h _ _ (hs.world.turn host.schedule)
  exact ⟨ha, hw, hs.engine⟩

theorem change_agree (host : Host) {f f' : World → World} (h : ∀ w w', w.Alike w' → (f w).Alike (f' w')) :
    Act.Agree (change host f : Act σ Unit) (change host f') :=
  act_agree host (fun w w' hw => ⟨rfl, h w w' hw⟩)

theorem say_agree (host : Host) (entries entries' : List Log.Entry) :
    Act.Agree (say host entries : Act σ Unit) (say host entries') :=
  change_agree host (fun _ _ hw => hw.say .caller entries entries')

theorem note_agree (host : Host) {o o' : Occurrence} (ho : o'.neutral = o.neutral) :
    Act.Agree (change host (·.note o) : Act σ Unit) (change host (·.note o')) :=
  change_agree host (fun _ _ hw => hw.note ho)

theorem ask_agree (host : Host) {call call' : Call} (hcall : call'.neutral = call.neutral)
    (program : σ → Program (α × σ)) : (ask host call program).Agree (ask host call' program) := by
  intro s s' hs
  have hcalled : (Occurrence.called call').neutral = (Occurrence.called call).neutral :=
    congrArg Occurrence.called hcall
  have hnote := (hs.world.turn host.schedule).note hcalled
  have hrun := (program s.engine).run_agree host.schedule call.listener _ _ hnote
  simp only [Act.on, ask, hs.engine, Call.listener_eq hcall]
  exact ⟨congrArg (·.1) hrun.1, hrun.2, congrArg (·.2) hrun.1⟩

theorem tell_agree (host : Host) {call call' : Call} (hcall : call'.neutral = call.neutral)
    (program : σ → Program σ) : Act.Agree (tell host call program) (tell host call' program) :=
  ask_agree host hcall _

theorem reportCycles_agree (host : Host) (engine : Engine σ) (reports : List EvaluationResult.CycleReport) :
    Act.Agree (reportCycles host engine reports) (reportCycles host engine reports) := by
  induction reports with
  | nil => exact .pure ()
  | cons report rest ih => exact (tell_agree host rfl (engine.reportCycles report)).bind (fun _ => ih)

end Round

end BuildRound
