import BuildRound.Proofs.Hosting
import BuildRound.Proofs.Joining
import BuildRound.Proofs.Parts

/-!
# The passage of a round

A round with valid options opens, works and closes. Opening puts a progress, a board and a watchdog in place;
closing stops the watchdog, detaches, takes the board off the bus and the built set out of the progress. What
the record shows of the three stretches, and what closing gives back, does not depend on how the work ended.
-/

namespace BuildRound

/-! ## Outside the evaluations -/

theorem Progress.built_after_plain {t ms : Record} (ht : t.Plain ms) (i : Nat) (p : Progress) :
    (p.after i t).built = p.built := by
  have h := ht.plain
  clear ht
  induction t generalizing p with
  | nil => rfl
  | cons o t ih =>
      refine (ih _ (fun o ho => h o (by simp [ho]))).trans ?_
      have hplain := h o (by simp)
      cases o with
      | answered l a => exact hplain.elim
      | issued l c r =>
          cases hplain
          cases c with
          | complete j action =>
              simp only [notice, complete]
              split
              · split <;> rfl
              · rfl
          | _ => rfl
      | _ => rfl

namespace World

theorem Records.progresses_length {w w' : World} {t : Record} (h : w.Records t w') :
    w'.progresses.length = w.progresses.length := by
  have hle : ∀ i, w'.progresses.length ≤ i ↔ w.progresses.length ≤ i := by
    intro i
    rw [← List.getElem?_eq_none_iff, ← List.getElem?_eq_none_iff, h.progresses, Option.map_eq_none_iff]
  exact Nat.le_antisymm ((hle _).mpr (Nat.le_refl _)) ((hle _).mp (Nat.le_refl _))

theorem Records.boards_length {w w' : World} {t : Record} (h : w.Records t w') :
    w'.boards.length = w.boards.length :=
  h.boards.length

theorem Records.progresses_eq {w w' : World} {n : Record} (h : w.Records n w') (hn : n.Noise) :
    w'.progresses = w.progresses := by
  apply List.ext_getElem?
  intro i
  rw [h.progresses]
  simp [hn.after_progress]

/-! ## Opening -/

/-- The world in which a round has opened: its progress, its board and its watchdog are in place. -/
structure Opened (requested built : ArtifactSet) (w : World) (t : Record) (w' : World) : Prop where
  trace : w'.trace = w.trace ++ t
  signals : w'.signals = w.signals.after t
  progress : ∃ p, w'.progresses[w.progresses.length]? = some p ∧ p.requested = requested ∧ p.built = built
  board : ∃ id, w'.Posts w.boards.length id ∧ (w.bus.Numbered → w'.bus.Hosts id (t.enrolled w.bus.entries))
  left (k : Nat) : w.Left k → w'.Left k
  numbered : w.bus.Numbered → w'.bus.Numbered
  lengths : w'.progresses.length = w.progresses.length + 1 ∧ w'.boards.length = w.boards.length + 1
  post : w'.watch.progress = w.progresses.length ∧ w'.watch.board = w.boards.length
  idle : w'.watch.dog.isRunning = false

/-- The world in which a round is about to attach what it has put in place. -/
structure Provided (requested built : ArtifactSet) (w : World) (t : Record) (w' : World) : Prop
    extends Opened requested built w t w' where
  fresh : w'.progresses[w.progresses.length]? = some { requested := requested, built := built }
  clean : w.watch.dog.isRunning = false →
    ∃ registration, w'.boards[w.boards.length]? = some { registration := some registration }

theorem Opened.after {requested built : ArtifactSet} {w w' w'' : World} {t u : Record}
    (h : w.Records t w') (k : w'.Opened requested built u w'') : w.Opened requested built (t ++ u) w'' where
  trace := by rw [k.trace, h.trace, List.append_assoc]
  signals := by rw [k.signals, h.signals, Signals.after_append]
  progress := by rw [← h.progresses_length]; exact k.progress
  board := by
    obtain ⟨id, hid, hosts⟩ := k.board
    refine ⟨id, h.boards_length ▸ hid, fun hnum => ?_⟩
    rw [Record.enrolled_append, ← h.bus.entries]
    exact hosts (hnum.follows h.bus)
  left j hleft := k.left j (h.boards.left j hleft)
  numbered hnum := k.numbered (hnum.follows h.bus)
  lengths := by rw [k.lengths.1, k.lengths.2, h.progresses_length, h.boards_length]; exact ⟨rfl, rfl⟩
  post := by rw [k.post.1, k.post.2, h.progresses_length, h.boards_length]; exact ⟨rfl, rfl⟩
  idle := k.idle

theorem Provided.after {requested built : ArtifactSet} {w w' w'' : World} {t u : Record}
    (h : w.Flow t w') (k : w'.Provided requested built u w'') : w.Provided requested built (t ++ u) w'' where
  toOpened := k.toOpened.after h.toRecords
  fresh := by rw [← h.progresses_length]; exact k.fresh
  clean hidle := by rw [← h.boards_length]; exact k.clean (h.watch.running.trans hidle)

theorem Opened.flow {requested built : ArtifactSet} {w w' w'' : World} {t u ms : Record}
    (h : w.Opened requested built t w') (hu : u.Plain ms) (k : w'.Flow u w'') :
    w.Opened requested built (t ++ u) w'' where
  trace := by rw [k.trace, h.trace, List.append_assoc]
  signals := by rw [k.signals, h.signals, Signals.after_append]
  progress := by
    obtain ⟨p, hp, hr, hb⟩ := h.progress
    exact ⟨_, by rw [k.progresses, hp]; rfl, (p.requested_after ..).trans hr,
      (p.built_after_plain hu ..).trans hb⟩
  board := by
    obtain ⟨id, hid, hosts⟩ := h.board
    refine ⟨id, k.boards.posts _ id hid, fun hnum => ?_⟩
    rw [Record.enrolled_append]
    exact (hosts hnum).follows k.bus
  left j hleft := k.boards.left j (h.left j hleft)
  numbered hnum := (h.numbered hnum).follows k.bus
  lengths := by rw [k.progresses_length, k.boards_length]; exact h.lengths
  post := by rw [k.watch.progress, k.watch.board]; exact h.post
  idle := by rw [k.watch.running, h.idle]

/-- A new progress, then a new board, then a watchdog for both, while others only cancel. -/
theorem opened_of_new {requested built : ArtifactSet} {w w₁ w₂ w₃ : World} {n₁ n₂ n₃ : Record}
    (h₁ : w.Records n₁ w₁) (hn₁ : n₁.Noise) (h₂ : (w₁.newProgress requested built).2.Records n₂ w₂)
    (hn₂ : n₂.Noise) (h₃ : w₂.newBoard.2.Records n₃ w₃) (hn₃ : n₃.Noise) {watch : Watch}
    (hpost : watch.progress = w.progresses.length ∧ watch.board = w.boards.length)
    (hidle : watch.dog.isRunning = false) :
    w.Opened requested built (n₁ ++ (n₂ ++ n₃)) { w₃ with watch } ∧
      w₃.progresses[w.progresses.length]? = some { requested := requested, built := built } := by
  have hprogresses : w₃.progresses = w.progresses ++ [{ requested := requested, built := built }] := by
    have e₂ : w₂.progresses = w₁.progresses ++ [{ requested := requested, built := built }] := h₂.progresses_eq hn₂
    have e₃ : w₃.progresses = w₂.progresses := h₃.progresses_eq hn₃
    rw [e₃, e₂, h₁.progresses_eq hn₁]
  have hfresh : w₃.progresses[w.progresses.length]? = some { requested := requested, built := built } := by
    simp [hprogresses]
  have e₁ : w₁.bus = w.bus := h₁.bus.eq_of_noise hn₁
  have e₂ : w₂.bus = w₁.bus := h₂.bus.eq_of_noise hn₂
  have e₃ : w₃.bus = w₂.newBoard.2.bus := h₃.bus.eq_of_noise hn₃
  have hlength : w₂.boards.length = w.boards.length := h₂.boards_length.trans h₁.boards_length
  have hkept : w₂.newBoard.2.KeepsBoards { w₃ with watch } := h₃.boards.trans (.of_eq rfl rfl)
  refine ⟨⟨?_, ?_, ⟨_, hfresh, rfl, rfl⟩, ?_, fun k hleft => ?_, fun hnum => ?_, ⟨by simp [hprogresses], ?_⟩, hpost,
    hidle⟩, hfresh⟩
  · have e₂ : w₂.trace = w₁.trace ++ n₂ := h₂.trace
    have e₃ : w₃.trace = w₂.trace ++ n₃ := h₃.trace
    simp [e₃, e₂, h₁.trace]
  · have e₂ : w₂.signals = w₁.signals.after n₂ := h₂.signals
    have e₃ : w₃.signals = w₂.signals.after n₃ := h₃.signals
    simp [e₃, e₂, h₁.signals]
  · refine ⟨⟨w₂.bus.next⟩, hlength ▸ hkept.posts _ _ w₂.posts_newBoard, fun hnum => ?_⟩
    rw [(hn₁.append (hn₂.append hn₃)).enrolled, ← e₁, ← e₂]
    rw [← e₁, ← e₂] at hnum
    exact e₃ ▸ hnum.hosts (.board w₂.boards.length)
  · have hleft₂ : w₂.Left k := h₂.boards.left k (h₁.boards.left k hleft)
    exact hkept.left k hleft₂.newBoard
  · rw [← e₁, ← e₂] at hnum
    exact e₃ ▸ hnum.register (.board w₂.boards.length)
  · have hnew : w₂.newBoard.2.boards.length = w₂.boards.length + 1 := List.length_append
    rw [← hlength, ← hnew]
    exact h₃.boards_length

/-! ## Beside a round without a watchdog -/

theorem moves_idle (ms : List Move) {w : World} (h : w.watch.dog.isRunning = false) :
    (ms.foldl move w).boards = w.boards ∧ (ms.foldl move w).watch = w.watch := by
  induction ms generalizing w with
  | nil => exact ⟨rfl, rfl⟩
  | cons m ms ih =>
      have hm : (w.move m).boards = w.boards ∧ (w.move m).watch = w.watch := by
        cases m with
        | pass _ | cancel _ => exact ⟨rfl, rfl⟩
        | watch =>
            have hthread : w.watch.dog.thread = none := by simpa [Watchdog.isRunning] using h
            simp [move, moveWatchdog, Watchdog.step, hthread, withDog]
      obtain ⟨hboards, hwatch⟩ := ih (w := w.move m) (by rw [hm.2, h])
      exact ⟨hboards.trans hm.1, hwatch.trans hm.2⟩

theorem turn_idle (s : Schedule) {w : World} (h : w.watch.dog.isRunning = false) :
    (w.turn s).boards = w.boards ∧ (w.turn s).watch = w.watch :=
  moves_idle (s w.turns) h

end World

namespace Round

variable {σ α β : Type}

theorem Act.on_bind (part : Act σ α) (rest : α → Act σ β) (s : Stage σ) :
    (part >>= rest).on s = (rest (part.on s).1).on (part.on s).2 := rfl

/-- Without a watchdog at work, nothing happens to a new board while the rest is put in place. -/
theorem setUp_boards (host : Host) (setup : Setup) (order : Order) (built : ArtifactSet) {s : Stage σ}
    (hidle : s.world.watch.dog.isRunning = false) :
    ∃ registration, ((setUp host setup order built).on s).2.world.boards =
      s.world.boards ++ [{ registration := some registration }] := by
  let w := ((s.world.turn host.schedule).newProgress order.requested built).2
  let v := ((w.turn host.schedule).newBoard).2
  let u := (v.turn host.schedule).say .caller (Watchdog.creationLog setup.options.reportInterval)
  have hw := World.turn_idle host.schedule hidle
  have hwidle : w.watch.dog.isRunning = false := (congrArg (·.dog.isRunning) hw.2).trans hidle
  have hv := World.turn_idle host.schedule hwidle
  have hvidle : v.watch.dog.isRunning = false := (congrArg (·.dog.isRunning) hv.2).trans hwidle
  have hu := World.turn_idle host.schedule hvidle
  have huidle : u.watch.dog.isRunning = false := (congrArg (·.dog.isRunning) hu.2).trans hvidle
  have hnew : v.boards = (w.turn host.schedule).boards ++
      [{ registration := some ⟨(w.turn host.schedule).bus.next⟩ }] := rfl
  have hboards : ((setUp host setup order built).on s).2.world.boards = (u.turn host.schedule).boards := rfl
  refine ⟨⟨(w.turn host.schedule).bus.next⟩, ?_⟩
  rw [hboards, (World.turn_idle host.schedule huidle).1, show u.boards = v.boards from hu.1, hnew, hv.1,
    show w.boards = s.world.boards from hw.1]

theorem setUp_provides (host : Host) (setup : Setup) (order : Order) (built : ArtifactSet) (s : Stage σ) :
    ∃ (n : Record) (s' : Stage σ), n.Noise ∧
      (setUp host setup order built).on s = (⟨s.world.progresses.length, s.world.boards.length⟩, s') ∧
      s.world.Provided order.requested built n s'.world := by
  obtain ⟨n₁, w₁, hn₁, h₁, e₁⟩ := act_on host (·.newProgress order.requested built) s
  obtain ⟨n₂, w₂, hn₂, h₂, e₂⟩ := act_on host World.newBoard
    (s.inWorld (w₁.newProgress order.requested built).2)
  obtain ⟨n₃, s₃, hn₃, h₃⟩ := say_leads host (Watchdog.creationLog setup.options.reportInterval)
    (s.inWorld w₂.newBoard.2)
  let watch : Watch :=
    ⟨.ofInterval setup.options.reportInterval, w₁.progresses.length, w₂.boards.length, false, none, .idle⟩
  obtain ⟨n₄, w₄, hn₄, h₄, e₄⟩ := act_on host (fun w => ((), { w with watch })) s₃
  have hlength : w₂.boards.length = s.world.boards.length := h₂.boards_length.trans h₁.boards_length
  have hon : (setUp host setup order built).on s =
      (⟨s.world.progresses.length, s.world.boards.length⟩, s₃.inWorld { w₄ with watch }) := by
    rw [← h₁.progresses_length, ← hlength]
    simp only [setUp, Act.on_bind, e₁, e₂, h₃.eq]
    exact congrArg (fun r => (Attachment.mk w₁.progresses.length w₂.boards.length, r.2)) e₄
  obtain ⟨hopened, hfresh⟩ := World.opened_of_new h₁.toRecords hn₁ h₂.toRecords hn₂
    (h₃.flow.trans h₄).toRecords (hn₃.append hn₄) (show watch.progress = _ ∧ watch.board = _ from
      ⟨h₁.progresses_length, hlength⟩) rfl
  refine ⟨_, _, hn₁.append (hn₂.append (hn₃.append hn₄)), hon, hopened, hfresh, fun hidle => ?_⟩
  obtain ⟨registration, hboards⟩ := setUp_boards host setup order built hidle
  rw [hon] at hboards
  exact ⟨registration, by rw [hboards]; simp⟩

/-- What a round does before it attaches anything. -/
def provide (host : Host) (engine : Engine σ) (setup : Setup) (order : Order) (built : ArtifactSet) :
    Act σ Attachment := do
  tell host .prepare engine.prepare
  tell host .setFileCache (engine.setFileCache setup.fileCache)
  setUp host setup order built

theorem provide_provides (host : Host) (engine : Engine σ) (setup : Setup) (order : Order)
    (built : ArtifactSet) (s : Stage σ) :
    ∃ (t : Record) (s' : Stage σ), t.Plain [.called .prepare, .called .setFileCache] ∧
      (provide host engine setup order built).on s = (⟨s.world.progresses.length, s.world.boards.length⟩, s') ∧
      s.world.Provided order.requested built t s'.world := by
  obtain ⟨t₁, s₁, ht₁, h₁⟩ := tell_plain host .prepare trivial engine.prepare s
  obtain ⟨t₂, s₂, ht₂, h₂⟩ :=
    tell_plain host .setFileCache trivial (engine.setFileCache setup.fileCache) s₁
  obtain ⟨n, s₃, hn, e₃, h₃⟩ := setUp_provides host setup order built s₂
  have hflow := h₁.flow.trans h₂.flow
  rw [hflow.progresses_length, hflow.boards_length] at e₃
  refine ⟨t₁ ++ t₂ ++ n, s₃, (ht₁.append ht₂).append hn.plain, ?_, h₃.after hflow⟩
  simp only [provide, Act.on_bind, h₁.eq, h₂.eq, e₃]

/-! ## Working -/

theorem start_of_idle {d : Watchdog} (h : d.isRunning = false) (canSpawn : Bool) :
    (d.start canSpawn).1 = canSpawn ∧ (d.start canSpawn).2.isRunning = canSpawn ∧
      ∀ started, (d.start canSpawn).2.thread ≠ some (.asleep started) := by
  have hthread : d.thread = none := by simpa [Watchdog.isRunning] using h
  cases canSpawn <;> simp [Watchdog.start, Watchdog.isRunning, hthread]

theorem startWatchdog_on (host : Host) {s : Stage σ} (hidle : s.world.watch.dog.isRunning = false) :
    ∃ (n : Record) (s' : Stage σ), n.Noise ∧ s.world.Records n s'.world ∧
      Act.on (startWatchdog host).run s =
        (host.spawn.mapError unwatched, s') ∧
      s'.world.watch.progress = s.world.watch.progress ∧
      s'.world.watch.dog.isRunning = host.canSpawn ∧ s'.world.watch.Attended := by
  obtain ⟨n, w, hn, hw, hon⟩ := act_on host (spawnWatchdog host) s
  obtain ⟨hstarted, hrunning, hthread⟩ := start_of_idle (hw.watch.running.trans hidle) host.canSpawn
  have hanswer : (spawnWatchdog host w).1 = host.spawn.mapError unwatched := by
    show (if (w.watch.dog.start host.canSpawn).1 then .ok () else host.spawn.mapError unwatched) = _
    rw [hstarted, Host.canSpawn]
    cases host.spawn <;> rfl
  have hrecords := hw.toRecords.trans (.withDog (w.watch.dog.start host.canSpawn).2 w)
  rw [List.append_nil] at hrecords
  refine ⟨n, s.inWorld (spawnWatchdog host w).2, hn, hrecords, ?_, hw.watch.progress, hrunning,
    fun started hs => absurd hs (hthread started)⟩
  simp only [startWatchdog, Attempt.on_bind, on_lift, hon, hanswer]
  rfl

/-- What the round does with its watchdog at work, or without one. -/
theorem work_passes (host : Host) (engine : Engine σ) (setup : Setup) (order : Order) (progress : Nat)
    {s : Stage σ} (hidle : s.world.watch.dog.isRunning = false) :
    ∃ (t : Record) (r : Except BuildError Bool) (s' : Stage σ),
      Work host.spawn setup.options.keepGoing order.context.cancellation order.modified s.world.signals
        (requests setup order progress) t r ∧
      s.world.Records t s'.world ∧ Act.on (work host engine setup order progress).run s = (r, s') ∧
      s'.world.watch.progress = s.world.watch.progress ∧
      s'.world.watch.dog.isRunning = host.canSpawn ∧ s'.world.watch.Attended := by
  obtain ⟨n, s₁, hn, h₁, e₁, hpost, hrunning, hattended⟩ := startWatchdog_on host hidle
  unfold work
  cases hspawn : host.spawn with
  | error reason =>
      rw [hspawn] at e₁
      refine ⟨n, .error (unwatched reason), s₁, .unwatched rfl hn, h₁, ?_, hpost, hrunning, hattended⟩
      simp only [Attempt.on_bind, e₁]
      rfl
  | ok =>
      rw [hspawn] at e₁
      obtain ⟨t, r, s₂, ht, h₂⟩ := build_leads host engine setup order progress s₁
      rw [h₁.signals] at ht
      refine ⟨n ++ t, r, s₂, ht.after_noise hn, h₁.trans h₂.flow.toRecords, ?_, ?_, ?_, ?_⟩
      · simp only [Attempt.on_bind, e₁]
        exact h₂.eq
      · rw [h₂.flow.watch.progress, hpost]
      · rw [h₂.flow.watch.running, hrunning]
      · exact h₂.flow.watch.attended hattended

end Round

end BuildRound
