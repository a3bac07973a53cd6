import BuildRound.Proofs.Passage

/-!
# Cleaning up

Whatever the work brought, cleaning up joins the watchdog if it runs, detaches from the engine, takes the board
off the bus and gives the built set back, in this order and each once.
-/

namespace BuildRound

/-- The record of cleaning up after a round whose watchdog was at work or not. -/
inductive Record.Closing (watched : Bool) : Record → Prop
  | intro {n t m : Record} (hn : n.Noise) (ht : t.Calls .detach) (hm : m.Noise) :
      Closing watched (n ++ ((if watched then [.joined] else []) ++ (t ++ .released :: m)))

namespace World

/-- What changed from `w` to `w'` is told by `t`, apart from the watchdog and what only it looks at. -/
structure Settles (w : World) (t : Record) (w' : World) : Prop where
  trace : w'.trace = w.trace ++ t
  built : ∀ i : Nat, w'.progresses[i]?.map Progress.built = w.progresses[i]?.map Progress.built
  bus : w.bus.Follows t w'.bus
  boards : w.KeepsBoards w'

theorem Settles.trans {w w' w'' : World} {t u : Record} (h : w.Settles t w') (k : w'.Settles u w'') :
    w.Settles (t ++ u) w'' where
  trace := by rw [k.trace, h.trace, List.append_assoc]
  built i := (k.built i).trans (h.built i)
  bus := h.bus.trans k.bus
  boards := h.boards.trans k.boards

theorem Records.settles {w w' : World} {t ms : Record} (h : w.Records t w') (ht : t.Plain ms) :
    w.Settles t w' where
  trace := h.trace
  built i := by
    rw [h.progresses, Option.map_map]
    exact congrArg (Option.map · _) (funext (Progress.built_after_plain ht i))
  bus := h.bus
  boards := h.boards

theorem Settles.length {w w' : World} {t : Record} (h : w.Settles t w') :
    w'.progresses.length = w.progresses.length := by
  have hbuilt : w'.progresses.map Progress.built = w.progresses.map Progress.built :=
    List.ext_getElem? (fun i => by simpa using h.built i)
  simpa using congrArg List.length hbuilt

theorem settles_interrupt (w : World) : w.Settles [] (surroundings.interrupt w) where
  trace := (List.append_nil _).symm
  built i := by
    simp only [surroundings, getElem?_onProgress, Option.map_map]
    refine congrArg (Option.map · _) (funext fun p => ?_)
    simp only [Function.comp]
    split <;> rfl
  bus := .refl _
  boards := .of_eq rfl rfl

theorem Joinable.settles {w : World} (h : w.Joinable) :
    w.Settles [.joined] w.joinWatchdog ∧ w.joinWatchdog.watch.dog.isRunning = false := by
  obtain ⟨joined, w', haside, hjoin⟩ := h.join
  rw [hjoin]
  refine ⟨⟨congrArg (· ++ [_]) haside.trace, fun i => ?_, ?_, .of_eq haside.registrations haside.bus⟩, rfl⟩
  · exact congrArg (fun ps : List Progress => ps[i]?.map Progress.built) haside.progresses
  · show w.bus.Follows [.joined] w'.bus
    rw [haside.bus]
    exact ⟨rfl, rfl, by simp [Occurrence.registered?]⟩

/-- The world in which a running watchdog is joined, after it was told to stop and its wait was interrupted. -/
def toldToStop (s : Schedule) (w : World) : World :=
  let w := (w.turn s).turn s
  let w := (withDog ({ w.watch.dog with stopping := true }, w)).turn s
  (surroundings.interrupt w).turn s

/-- Wherever its thread stands, a watchdog that was told to stop can be joined. -/
theorem toldToStop_settles (s : Schedule) {w : World} (hrunning : w.watch.dog.isRunning = true)
    (hattended : w.watch.Attended) (hprogress : (w.progresses[w.watch.progress]?).isSome = true) :
    ∃ n : Record, n.Noise ∧ w.Settles n (w.toldToStop s) ∧ (w.toldToStop s).Joinable := by
  obtain ⟨n₁, hn₁, h₁⟩ := w.turn_flow s
  obtain ⟨n₂, hn₂, h₂⟩ := (w.turn s).turn_flow s
  let w₂ := (w.turn s).turn s
  let raised := withDog ({ w₂.watch.dog with stopping := true }, w₂)
  obtain ⟨n₃, hn₃, h₃⟩ := raised.turn_flow s
  obtain ⟨n₄, hn₄, h₄⟩ := (surroundings.interrupt (raised.turn s)).turn_flow s
  have hflag : w₂.Settles [] raised := (Records.withDog _ w₂).settles .nil
  have hwatch : w.watch.Continues w₂.watch := h₁.watch.trans h₂.watch
  have hwatch' : (raised.turn s).watch.Continues (w.toldToStop s).watch := h₄.watch
  have hpost : (raised.turn s).watch.progress = w.watch.progress := h₃.watch.progress.trans hwatch.progress
  have hsame : (raised.turn s).progresses = w.progresses :=
    (h₃.toRecords.progresses_eq hn₃).trans ((h₂.toRecords.progresses_eq hn₂).trans
      (h₁.toRecords.progresses_eq hn₁))
  have hsettles := ((h₁.trans h₂).toRecords.settles (hn₁.append hn₂).plain).trans (hflag.trans
    ((h₃.toRecords.settles hn₃.plain).trans ((raised.turn s).settles_interrupt.trans
      (h₄.toRecords.settles hn₄.plain))))
  simp only [List.nil_append] at hsettles
  refine ⟨_, (hn₁.append hn₂).append (hn₃.append hn₄), hsettles, ?_, ?_, ?_, ?_⟩
  · exact hwatch'.running.trans (h₃.watch.running.trans (hwatch.running.trans hrunning))
  · exact hwatch'.stopping.trans h₃.watch.stopping
  · exact hwatch'.attended (h₃.watch.attended (hwatch.attended hattended))
  · obtain ⟨p, hp⟩ := Option.isSome_iff_exists.mp hprogress
    refine ⟨p.interruptWaiters, ?_, rfl⟩
    rw [hwatch'.progress, hpost, show (w.toldToStop s).progresses = _ from h₄.toRecords.progresses_eq hn₄]
    simp [surroundings, getElem?_onProgress, hsame, hpost, hp]

theorem numbered_dismissBoard {w : World} (h : w.bus.Numbered) (k : Nat) : (w.dismissBoard k).bus.Numbered :=
  fun e he => w.next_dismissBoard k ▸ h e (w.entries_dismissBoard_subset k he)

/-- The world after cleaning up, by what that recorded: no watchdog runs, and the board has left the bus. -/
structure Closes (board : Nat) (w : World) (t : Record) (w' : World) : Prop where
  trace : w'.trace = w.trace ++ t
  idle : w'.watch.dog.isRunning = false
  bus : ∀ id others, w.Posts board id → w.bus.Hosts id others → w'.bus.entries = t.enrolled others
  numbered : w.bus.Numbered → w'.bus.Numbered
  boards : w.KeepsBoards w'
  left : ∀ id, w.Posts board id → w'.Left board
  length : w'.progresses.length = w.progresses.length

end World

namespace Round

variable {σ : Type}

/-! ## Stopping the watchdog -/

theorem change_on (host : Host) (f : World → World) (s : Stage σ) :
    ∃ (n : Record) (w : World), n.Noise ∧ s.world.Flow n w ∧
      (change host f).on s = ((), s.inWorld (f w)) :=
  act_on host (fun w => ((), f w)) s

theorem stopWatchdog_on (host : Host) (s : Stage σ) :
    (stopWatchdog host).on s = ((), s.inWorld
      (if (s.world.turn host.schedule).watch.dog.isRunning then (s.world.toldToStop host.schedule).joinWatchdog
        else s.world.turn host.schedule)) := by
  have hread : (stopWatchdog host).on s =
      Act.on (if (s.world.turn host.schedule).watch.dog.isRunning then do
        change host (fun w => World.withDog ({ w.watch.dog with stopping := true }, w))
        change host World.surroundings.interrupt
        change host World.joinWatchdog else pure ()) (s.inWorld (s.world.turn host.schedule)) := rfl
  rw [hread]
  cases (s.world.turn host.schedule).watch.dog.isRunning <;> rfl

/-- Stopping the watchdog always ends, wherever its thread stands. -/
theorem stopWatchdog_settles (host : Host) {s : Stage σ} (hattended : s.world.watch.Attended)
    (hprogress : (s.world.progresses[s.world.watch.progress]?).isSome = true) :
    ∃ (n : Record) (s' : Stage σ), n.Noise ∧ (stopWatchdog host).on s = ((), s') ∧
      s.world.Settles (n ++ if s.world.watch.dog.isRunning then [.joined] else []) s'.world ∧
      s'.world.watch.dog.isRunning = false := by
  obtain ⟨n, hn, h⟩ := s.world.turn_flow host.schedule
  have hon := stopWatchdog_on host s
  rw [h.watch.running] at hon
  cases hrunning : s.world.watch.dog.isRunning with
  | false =>
      simp only [hrunning, Bool.false_eq_true, ↓reduceIte] at hon ⊢
      exact ⟨n, _, hn, hon, by simpa using h.toRecords.settles hn.plain, h.watch.running.trans hrunning⟩
  | true =>
      simp only [hrunning, ↓reduceIte] at hon ⊢
      obtain ⟨m, hm, hsettles, hjoinable⟩ := World.toldToStop_settles host.schedule hrunning hattended hprogress
      exact ⟨m, _, hm, hon, hsettles.trans hjoinable.settles.1, hjoinable.settles.2⟩

/-! ## Cleaning up -/

theorem cleanUp_closes (host : Host) (engine : Engine σ) (objects : Attachment) {s : Stage σ} {p : Progress}
    (hprogress : s.world.progresses[objects.progress]? = some p)
    (hpost : s.world.watch.progress = objects.progress) (hattended : s.world.watch.Attended) :
    ∃ (v : Record) (s' : Stage σ), v.Closing s.world.watch.dog.isRunning ∧
      (cleanUp host engine objects).on s = (p.built, s') ∧ s.world.Closes objects.board v s'.world := by
  obtain ⟨n, s₁, hn, e₁, h₁, hdone⟩ := stopWatchdog_settles host hattended (by rw [hpost, hprogress]; rfl)
  obtain ⟨t, s₂, ht, h₂⟩ := tell_calls host .detach trivial (engine.attach none) s₁
  obtain ⟨m₃, w₃, hm₃, h₃, e₃⟩ := change_on host (·.dismissBoard objects.board) s₂
  obtain ⟨m₄, w₄, hm₄, h₄, e₄⟩ := act_on host (fun w =>
    (w.readProgress objects.progress Progress.built .empty,
      (w.onProgress objects.progress (fun p => { p with built := .empty })).note .released))
    (s₂.inWorld (w₃.dismissBoard objects.board))
  obtain ⟨m₅, s₅, hm₅, h₅⟩ := say_leads host
    [.event .debug "build round cleaned up" [("built", toString p.built.size)]]
    (s₂.inWorld ((w₄.onProgress objects.progress (fun p => { p with built := .empty })).note .released))
  have hprogresses := w₃.progresses_dismissBoard objects.board
  have hcall := ht.append_noise hm₃
  have hbefore := h₁.trans ((h₂.flow.toRecords.trans h₃.toRecords).settles (hcall.plain trivial))
  have hbuilt : w₄.readProgress objects.progress Progress.built .empty = p.built := by
    have hget := hbefore.built objects.progress
    rw [hprogress, Option.map_some, Option.map_eq_some_iff] at hget
    obtain ⟨q, hq, hqb⟩ := hget
    have hsame : w₄.progresses = w₃.progresses := (h₄.toRecords.progresses_eq hm₄).trans hprogresses
    simp [World.readProgress, hsame, hq, hqb]
  have hafter : s₅.world.progresses.length = w₃.progresses.length := by
    have e₄ := h₄.toRecords.progresses_length
    have e₅ := h₅.flow.toRecords.progresses_length
    simp only [World.note, World.onProgress, List.length_modify] at e₅
    rw [e₅, e₄, hprogresses]
  have hrelease : s₅.world.bus = (w₃.dismissBoard objects.board).bus :=
    (h₅.flow.bus.eq_of_noise hm₅).trans (h₄.bus.eq_of_noise hm₄)
  have hreleased : w₄.KeepsBoards
      ((w₄.onProgress objects.progress (fun p => { p with built := .empty })).note .released) := .of_eq rfl rfl
  have hend : (w₃.dismissBoard objects.board).KeepsBoards s₅.world :=
    h₄.boards.trans (hreleased.trans h₅.flow.boards)
  refine ⟨_, s₅, .intro hn (hcall.append_noise hm₄) hm₅, ?_, ?_, ?_, ?_, ?_, ?_, ?_, ?_⟩
  · simp only [cleanUp, Act.on_bind, e₁, h₂.eq, e₃, e₄, hbuilt, h₅.eq]
    rfl
  · have e₄ : w₄.trace = (w₃.dismissBoard objects.board).trace ++ m₄ := h₄.trace
    have e₅ : s₅.world.trace = w₄.trace ++ [.released] ++ m₅ := h₅.flow.trace
    simp [e₅, e₄, hbefore.trace]
  · have e₃ : w₄.watch.dog.isRunning = w₃.watch.dog.isRunning :=
      h₄.watch.running.trans (congrArg (·.dog.isRunning) (w₃.watch_dismissBoard objects.board))
    have e₅ : s₅.world.watch.dog.isRunning = w₄.watch.dog.isRunning := h₅.flow.watch.running
    rw [e₅, e₃, h₃.watch.running, h₂.flow.watch.running, hdone]
  · intro id others hposts hosts
    rw [hrelease, (hbefore.boards.posts _ id hposts).entries_dismissBoard, (hosts.follows hbefore.bus).others]
    have hquiet : ∀ es, Record.enrolled (.released :: m₅) es = es := hm₅.enrolled
    simp only [Record.enrolled_append, hm₄.enrolled, hquiet]
  · intro hnumbered
    rw [hrelease]
    exact World.numbered_dismissBoard (hnumbered.follows hbefore.bus) objects.board
  · exact hbefore.boards.trans ((w₃.dismissBoard_keepsBoards objects.board).trans hend)
  · exact fun id hposts => hend.left _ (hbefore.boards.posts _ id hposts).left_dismissBoard
  · rw [hafter, hbefore.length]

end Round

end BuildRound
