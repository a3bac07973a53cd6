import Mathlib.Data.List.Basic
import BuildRound.Proofs.Lockstep

/-!
# Objects of earlier rounds

Objects of earlier rounds are veiled from the world: of a progress nothing is left, of a board only whether it is on
the bus, and from the trace goes what was done to them. What reaches other objects acts on what is left, and so does
a watchdog over others.
-/

namespace BuildRound

/-! ## Veiled lists -/

/-- The list with what stands below `k` replaced. -/
def veiled {α : Type} (k : Nat) (veil : α → α) (as : List α) : List α :=
  as.mapIdx (fun i a => if i < k then veil a else a)

section Veiled

variable {α : Type} {k : Nat} {veil : α → α}

theorem getElem?_veiled (as : List α) (i : Nat) :
    (veiled k veil as)[i]? = as[i]?.map (fun a => if i < k then veil a else a) :=
  List.getElem?_mapIdx

theorem getElem?_veiled_of_le (as : List α) {i : Nat} (h : k ≤ i) : (veiled k veil as)[i]? = as[i]? := by
  simp [getElem?_veiled, Nat.not_lt.mpr h]

@[simp] theorem length_veiled (as : List α) : (veiled k veil as).length = as.length :=
  List.length_mapIdx

variable (veil)

/-- The veil over more covers the veil over less. -/
theorem veiled_veiled {k' : Nat} (h : k ≤ k') (hveil : ∀ a, veil (veil a) = veil a) (as : List α) :
    veiled k' veil (veiled k veil as) = veiled k' veil as := by
  apply List.ext_getElem?
  intro i
  simp only [getElem?_veiled]
  cases as[i]? with
  | none => rfl
  | some a => by_cases hi : i < k <;> by_cases hi' : i < k' <;> simp [hi, hi', hveil]; omega

theorem veiled_append (hveil : ∀ a, veil (veil a) = veil a) (as : List α) (a : α) :
    veiled k veil (veiled k veil as ++ [a]) = veiled k veil (as ++ [a]) := by
  simp only [veiled, List.mapIdx_append, List.length_mapIdx]
  -- The new element is last in both, whether it stands under the veil or not.
  congr 1
  exact veiled_veiled veil (Nat.le_refl k) hveil as

theorem veiled_modify (hveil : ∀ a, veil (veil a) = veil a) {f : α → α} (hf : ∀ a, veil (f (veil a)) = veil (f a))
    (as : List α) (i : Nat) : veiled k veil ((veiled k veil as).modify i f) = veiled k veil (as.modify i f) := by
  apply List.ext_getElem?
  intro j
  simp only [getElem?_veiled, List.getElem?_modify]
  cases as[j]? with
  | none => simp
  | some a => by_cases hj : j < k <;> by_cases hij : i = j <;> simp [hj, hij, hf, hveil]

/-- Changes under the veil are not seen. -/
theorem veiled_modify_of_lt {f : α → α} (hf : ∀ a, veil (f a) = veil a) (as : List α) {i : Nat}
    (h : i < k ∨ as.length ≤ k) : veiled k veil (as.modify i f) = veiled k veil as := by
  apply List.ext_getElem?
  intro j
  simp only [getElem?_veiled, List.getElem?_modify]
  cases hj : as[j]? with
  | none => simp
  | some a =>
      have hlt : j < as.length := (List.getElem?_eq_some_iff.mp hj).1
      by_cases hij : i = j
      · have hjk : j < k := by omega
        simp [hij, hjk, hf]
      · simp [hij]

end Veiled

/-! ## Objects of earlier rounds -/

/-- Whether a command reaches no more than progresses below `k` and boards below `m`. -/
def Command.isPast (k m : Nat) : Command → Bool
  | .complete i _ | .readCompleted i | .readEnqueued i => i < k
  | .deliver j _ | .readRunning j | .readReports j | .logReport j _ | .countReport j | .leave j => j < m
  | .rest duration => duration = 0
  | _ => false

def Occurrence.isPast (k m : Nat) : Occurrence → Bool
  | .issued _ c _ => c.isPast k m
  | _ => false

theorem Command.isPast_mono {k k' m m' : Nat} (hk : k ≤ k') (hm : m ≤ m') {c : Command}
    (h : c.isPast k m = true) : c.isPast k' m' = true := by
  cases c <;> simp only [isPast, decide_eq_true_eq, Bool.false_eq_true] at h ⊢ <;> omega

theorem Occurrence.isPast_mono {k k' m m' : Nat} (hk : k ≤ k') (hm : m ≤ m') {o : Occurrence}
    (h : o.isPast k m = true) : o.isPast k' m' = true := by
  cases o with
  | issued l c reply => exact Command.isPast_mono hk hm h
  | _ => cases h

def Progress.veil (_ : Progress) : Progress :=
  { requested := .empty, built := .empty }

def Board.veil (b : Board) : Board :=
  { registration := b.registration }

@[simp] theorem Progress.veiled_veiled (k : Nat) (ps : List Progress) :
    veiled k Progress.veil (veiled k Progress.veil ps) = veiled k Progress.veil ps :=
  BuildRound.veiled_veiled Progress.veil (Nat.le_refl k) (fun _ => rfl) ps

@[simp] theorem Board.veiled_veiled (m : Nat) (bs : List Board) :
    veiled m Board.veil (veiled m Board.veil bs) = veiled m Board.veil bs :=
  BuildRound.veiled_veiled Board.veil (Nat.le_refl m) (fun _ => rfl) bs

namespace World

/-- The world as a round sees it that has the progresses from `k` and the boards from `m` to itself. -/
def since (k m : Nat) (w : World) : World :=
  { w with
    progresses := veiled k Progress.veil w.progresses
    boards := veiled m Board.veil w.boards
    log := []
    trace := w.trace.filter (!·.isPast k m) }

variable {k m : Nat} {w w' : World}

theorem since_of_le {k' m' : Nat} (hk : k ≤ k') (hm : m ≤ m') (w : World) :
    (w.since k m).since k' m' = w.since k' m' := by
  have htrace : (w.trace.filter (!·.isPast k m)).filter (!·.isPast k' m') = w.trace.filter (!·.isPast k' m') := by
    rw [List.filter_filter]
    congr 1
    funext o
    cases hpast : o.isPast k m with
    | false => simp
    | true => simp [Occurrence.isPast_mono hk hm hpast]
  simp only [since, htrace, veiled_veiled Progress.veil hk (fun _ => rfl),
    veiled_veiled Board.veil hm (fun _ => rfl)]

@[simp] theorem since_since (w : World) : (w.since k m).since k m = w.since k m :=
  since_of_le (Nat.le_refl k) (Nat.le_refl m) w

@[simp] theorem since_withWatch (w : World) (watch : Watch) :
    ({ w.since k m with watch := watch }).since k m = ({ w with watch := watch }).since k m :=
  since_since { w with watch := watch }

theorem since_say (w : World) (author : Author) (entries : List Log.Entry) :
    (w.say author entries).since k m = w.since k m := rfl

theorem since_note (w : World) (o : Occurrence) : ((w.since k m).note o).since k m = (w.note o).since k m := by
  simp [since, note]

theorem since_note_of_isPast (w : World) {o : Occurrence} (h : o.isPast k m = true) :
    (w.note o).since k m = w.since k m := by
  simp [since, note, h]

theorem since_onProgress (w : World) (i : Nat) (f : Progress → Progress) :
    ((w.since k m).onProgress i f).since k m = (w.onProgress i f).since k m := by
  have h := veiled_modify (k := k) Progress.veil (fun _ => rfl) (f := f) (fun _ => rfl) w.progresses i
  simp only [onProgress, since] at h ⊢
  simp [h]

theorem since_onProgress_of_lt (w : World) {i : Nat} (h : i < k) (f : Progress → Progress) :
    (w.onProgress i f).since k m = w.since k m := by
  simp only [onProgress, since, veiled_modify_of_lt Progress.veil (f := f) (fun _ => rfl) w.progresses (.inl h)]

theorem since_onBoard (w : World) (j : Nat) {f : Board → Board} (hf : ∀ b, (f b).registration = b.registration) :
    ((w.since k m).onBoard j f).since k m = (w.onBoard j f).since k m := by
  have h := veiled_modify (k := m) Board.veil (fun _ => rfl) (f := f)
    (fun b => by simp [Board.veil, hf]) w.boards j
  simp only [onBoard, since] at h ⊢
  simp [h]

theorem since_onBoard_of_lt (w : World) {j : Nat} (h : j < m ∨ w.boards.length ≤ m) {f : Board → Board}
    (hf : ∀ b, (f b).registration = b.registration) : (w.onBoard j f).since k m = w.since k m := by
  simp only [onBoard, since,
    veiled_modify_of_lt Board.veil (f := f) (fun b => by simp [Board.veil, hf]) w.boards h]

theorem readProgress_since {α : Type} (w : World) {i : Nat} (h : k ≤ i) (f : Progress → α) (missing : α) :
    (w.since k m).readProgress i f missing = w.readProgress i f missing := by
  simp only [readProgress, since, getElem?_veiled_of_le _ h]

theorem readBoard_since {α : Type} (w : World) {j : Nat} (h : m ≤ j) (f : Board → α) (missing : α) :
    (w.since k m).readBoard j f missing = w.readBoard j f missing := by
  simp only [readBoard, since, getElem?_veiled_of_le _ h]

theorem since_dismissBoard (w : World) (j : Nat) :
    ((w.since k m).dismissBoard j).since k m = (w.dismissBoard j).since k m := by
  have hboards := veiled_modify (k := m) Board.veil (fun _ => rfl)
    (f := fun b => { b with registration := none }) (fun _ => rfl) w.boards j
  -- Leaving looks at the registration, which is all that is left of a board under the veil.
  have hregistration : (veiled m Board.veil w.boards)[j]?.bind Board.registration =
      w.boards[j]?.bind Board.registration := by
    rw [getElem?_veiled]
    cases w.boards[j]? with
    | none => rfl
    | some b => by_cases hj : j < m <;> simp [hj, Board.veil]
  simp only [dismissBoard_eq, since, hregistration, hboards, Progress.veiled_veiled, List.filter_filter, Bool.and_self]

/-! ## Commands -/

theorem execute_since (l : Option Nat) {c : Command} (hc : c.isPast k m = false) :
    Respects (since k m) (execute l · c) := by
  intro w
  cases c with
  | notify n =>
      cases l with
      | none => exact ⟨rfl, w.since_since⟩
      | some i => exact ⟨rfl, w.since_onProgress i (·.notify n)⟩
  | complete i action => exact ⟨rfl, w.since_onProgress i (·.complete action)⟩
  | readCompleted i | readEnqueued i =>
      have hi : k ≤ i := Nat.le_of_not_lt (of_decide_eq_false hc)
      exact ⟨w.readProgress_since hi _ 0, w.since_since⟩
  | deliver j event => exact ⟨rfl, w.since_onBoard j (fun b => b.registration_receive w.clock event)⟩
  | readRunning j | readReports j =>
      have hj : m ≤ j := Nat.le_of_not_lt (of_decide_eq_false hc)
      exact ⟨w.readBoard_since hj _ 0, w.since_since⟩
  | logReport j progress =>
      have hj : m ≤ j := Nat.le_of_not_lt (of_decide_eq_false hc)
      exact ⟨congrArg Option.isSome (w.readBoard_since hj _ none), w.since_since⟩
  | countReport j => exact ⟨rfl, w.since_onBoard j (fun _ => rfl)⟩
  | leave j =>
      have hj : m ≤ j := Nat.le_of_not_lt (of_decide_eq_false hc)
      exact ⟨w.readBoard_since hj _ none, w.since_dismissBoard j⟩
  | register name => exact ⟨rfl, since_since { w with bus := (w.bus.register (.own name)).2 }⟩
  | unregister id => exact ⟨rfl, since_since { w with bus := (w.bus.unregister id).2 }⟩
  | cancel token => exact ⟨rfl, since_since { w with signals := w.signals.cancel token }⟩
  | rest duration => exact ⟨rfl, since_since { w with clock := w.clock + duration }⟩
  | readListeners | readCancelled _ | observe _ => exact ⟨rfl, w.since_since⟩

/-- The boards of earlier rounds are off the bus. -/
def PastLeft (m : Nat) (w : World) : Prop :=
  ∀ j < m, w.Left j

theorem KeepsBoards.pastLeft (h : w.KeepsBoards w') (hw : w.PastLeft m) : w'.PastLeft m :=
  fun j hj => h.left j (hw j hj)

theorem execute_since_of_isPast (l : Option Nat) (hw : w.PastLeft m) {c : Command} (hc : c.isPast k m = true) :
    (execute l w c).2.since k m = w.since k m := by
  cases c with
  | complete i action => exact w.since_onProgress_of_lt (of_decide_eq_true hc) _
  | deliver j event =>
      exact w.since_onBoard_of_lt (.inl (of_decide_eq_true hc)) (fun b => b.registration_receive w.clock event)
  | countReport j => exact w.since_onBoard_of_lt (.inl (of_decide_eq_true hc)) (fun _ => rfl)
  | leave j => exact congrArg (since k m) (hw j (of_decide_eq_true hc)).dismissBoard
  | readCompleted _ | readEnqueued _ | readRunning _ | readReports _ | logReport _ _ => rfl
  | rest duration =>
      obtain rfl : duration = 0 := of_decide_eq_true hc
      rfl
  | _ => cases hc

theorem SameBy.wait (h : w.SameBy (since k m) w') (duration : Nanos) :
    SameBy (since k m) { w with clock := w.clock + duration } { w' with clock := w'.clock + duration } :=
  h.map (f := fun w => { w with clock := w.clock + duration })
    (fun w => since_since { w with clock := w.clock + duration })

theorem perform_since (l : Option Nat) {c : Command} (hc : c.isPast k m = false) :
    World.Carries (SameBy (since k m)) (SameBy (since k m)) (perform l · c) (perform l · c) := by
  intro w w' hw
  obtain ⟨hreply, hnext⟩ := (execute_since l hc).carries _ _ (SameBy.wait hw 1)
  simp only [perform, hreply]
  exact ⟨by trivial, hnext.map (f := (·.note (.issued l c _))) (fun w => w.since_note _)⟩

/-- What reaches only objects of earlier rounds takes its time and is not seen otherwise. -/
theorem perform_since_of_isPast (l : Option Nat) (hw : w.PastLeft m) {c : Command} (hc : c.isPast k m = true) :
    (w.perform l c).2.since k m = { w with clock := w.clock + 1 }.since k m := by
  have hwaited : PastLeft m { w with clock := w.clock + 1 } := hw
  simp only [perform]
  rw [since_note_of_isPast _ (o := .issued l c _) hc, execute_since_of_isPast l hwaited hc]

/-! ## Putting in place and taking away -/

theorem since_newProgress (requested built : ArtifactSet) : Respects (since k m) (·.newProgress requested built) := by
  intro w
  refine ⟨length_veiled _, ?_⟩
  simp [newProgress, since, veiled_append Progress.veil (fun _ => rfl)]

theorem since_newBoard : Respects (since k m) newBoard := by
  intro w
  refine ⟨length_veiled _, ?_⟩
  simp [newBoard, since, veiled_append Board.veil (fun _ => rfl)]

/-! ## The watchdog -/

theorem advanceReport_since (author : Author) {w : World} (hk : k ≤ w.watch.progress) (hm : m ≤ w.watch.board) :
    (advanceReport author (w.since k m)).1 = (advanceReport author w).1 ∧
      (advanceReport author (w.since k m)).2.since k m = (advanceReport author w).2.since k m := by
  have hwatch : (w.since k m).watch = w.watch := rfl
  have hclock : (w.since k m).clock = w.clock := rfl
  cases hstage : w.watch.stage with
  | idle =>
      simp only [advanceReport, hwatch, hstage]
      split <;> exact ⟨by trivial, since_withWatch w _⟩
  | readCompleted | readEnqueued _ =>
      simp only [advanceReport, hwatch, hstage, w.readProgress_since hk]
      exact ⟨by trivial, since_withWatch w _⟩
  | render progress =>
      simp only [advanceReport, hwatch, hstage, hclock, w.readBoard_since hm]
      split <;> exact ⟨by trivial, since_withWatch w _⟩
  | say report =>
      simp only [advanceReport, hwatch, hstage, since_say]
      exact ⟨by trivial, since_withWatch w _⟩
  | tally =>
      simp only [advanceReport, hwatch, hstage]
      exact ⟨by trivial, since_onBoard { w with watch := { w.watch with stage := .idle } } _ (fun _ => rfl)⟩

theorem checkWait_since {w : World} (hk : k ≤ w.watch.progress) (call : Wait) :
    (checkWait (w.since k m) call).1 = (checkWait w call).1 ∧
      (checkWait (w.since k m) call).2.since k m = (checkWait w call).2.since k m := by
  have hwatch : (w.since k m).watch = w.watch := rfl
  have hclock : (w.since k m).clock = w.clock := rfl
  simp only [checkWait, hwatch, hclock, w.readProgress_since hk]
  exact ⟨by trivial, since_withWatch w _⟩

theorem advance_since (interval : Nanos) (stopping : Bool) (loop : Loop) {w : World} (hk : k ≤ w.watch.progress)
    (hm : m ≤ w.watch.board) :
    (Watchdog.advance surroundings interval stopping loop (w.since k m)).1 =
        (Watchdog.advance surroundings interval stopping loop w).1 ∧
      (Watchdog.advance surroundings interval stopping loop (w.since k m)).2.since k m =
        (Watchdog.advance surroundings interval stopping loop w).2.since k m := by
  have hwatch : (w.since k m).watch = w.watch := rfl
  have hclock : (w.since k m).clock = w.clock := rfl
  cases loop with
  | head | judge | ended _ => exact ⟨rfl, w.since_since⟩
  | ask =>
      simp only [Watchdog.advance, surroundings, hwatch, w.readProgress_since hk]
      exact ⟨by trivial, w.since_since⟩
  | enter started =>
      simp only [Watchdog.advance, surroundings, hwatch, hclock, w.readProgress_since hk]
      obtain ⟨hanswer, hnext⟩ := checkWait_since (m := m) hk
        (Wait.enter interval w.clock (w.readProgress w.watch.progress Progress.activity {}))
      exact ⟨congrArg _ hanswer, hnext⟩
  | asleep started =>
      simp only [Watchdog.advance, surroundings, hwatch]
      cases w.watch.call with
      | none => exact ⟨rfl, w.since_since⟩
      | some call =>
          obtain ⟨hanswer, hnext⟩ := checkWait_since (m := m) hk call
          exact ⟨congrArg _ hanswer, hnext⟩
  | report =>
      have h := advanceReport_since .watchdog hk hm
      simp only [Watchdog.advance, surroundings]
      rcases hr : w.advanceReport .watchdog with ⟨_ | reported, v⟩
      all_goals
        rcases hr' : (w.since k m).advanceReport .watchdog with ⟨reply, v'⟩
        simp only [hr, hr'] at h ⊢
        obtain ⟨rfl, hv⟩ := h
        exact ⟨rfl, hv⟩
  | note reported => exact ⟨rfl, w.since_since⟩

end World

end BuildRound
