import BuildRound.Progress.Signal
import Mathlib.Logic.Relation

/-!
# No wake-up is lost

A thread that changes something wakes the sleepers only after it let go of the lock. A waiter that should go on
may so be asleep for a moment without a notification, but then the one who changed something is still about to
wake it.
-/

namespace BuildRound

/-! ## What a waiter waits for -/

/-- Whether a call has something to tell before its time is up. -/
def Wait.IsDue (w : Wait) (a : Activity) : Prop :=
  a.interrupted = true ∨ w.before < a.completed.length

theorem Wait.not_isDue_of_check {w : Wait} {now : Nanos} {a : Activity} (h : w.check now a = none) :
    ¬ w.IsDue a := by
  unfold check at h
  split at h
  · cases h
  · rename_i hinterrupted
    split at h
    · cases h
    · rename_i hcompleted
      rintro (hdue | hdue)
      · exact hinterrupted hdue
      · exact hcompleted (Nat.sub_pos_of_lt hdue)

namespace Signal

theorem Thread.ofCheck_cases (call : Wait) (now : Nanos) (a : Activity) :
    (∃ result, ofCheck call now a = returned result) ∨ (ofCheck call now a = holding call ∧ ¬ call.IsDue a) := by
  unfold ofCheck
  cases h : call.check now a with
  | some result => exact .inl ⟨result, rfl⟩
  | none => exact .inr ⟨rfl, Wait.not_isDue_of_check h⟩

namespace Crowd

variable {c : Crowd} {i : Nat} {s t : Thread}

theorem mem_put (h : s ∈ (c.put i t).threads) : s ∈ c.threads ∨ s = t :=
  List.mem_or_eq_of_mem_set h

theorem mem_put_of_ne (hi : c.threads[i]? = some s) (ht : t ∈ c.threads) (hne : s ≠ t) (t' : Thread) :
    t ∈ (c.put i t').threads := by
  obtain ⟨j, hj⟩ := List.mem_iff_getElem?.mp ht
  have hij : i ≠ j := by
    rintro rfl
    exact hne (Option.some.inj (hi.symm.trans hj))
  refine List.mem_iff_getElem?.mpr ⟨j, ?_⟩
  rw [put, List.getElem?_set_ne hij]
  exact hj

theorem not_mem_of_unlocked (h : c.isLocked = false) (call : Wait) : .holding call ∉ c.threads := by
  intro hmem
  have := List.any_eq_false.mp h _ hmem
  exact this rfl

/-! ## The invariant -/

/-- Nobody falls asleep on something it should go on for, and who sleeps on it unnotified will be woken. -/
structure Sound (c : Crowd) : Prop where
  holding : ∀ call, .holding call ∈ c.threads → ¬ call.IsDue c.activity
  asleep : ∀ call, .asleep call false ∈ c.threads → call.IsDue c.activity → .waking ∈ c.threads

/-- A thread that is not the one to wake the sleepers may go on to sleep or hold the lock with a call that has
nothing to tell. -/
theorem Sound.put (h : c.Sound) (hi : c.threads[i]? = some s) (hs : s ≠ .waking)
    (hholding : ∀ call, t = .holding call → ¬ call.IsDue c.activity)
    (hasleep : ∀ call, t = .asleep call false → ¬ call.IsDue c.activity) : (c.put i t).Sound where
  holding call hmem := by
    rcases mem_put hmem with hmem | heq
    · exact h.holding call hmem
    · exact hholding call heq.symm
  asleep call hmem hdue := by
    rcases mem_put hmem with hmem | heq
    · exact mem_put_of_ne hi (h.asleep call hmem hdue) hs t
    · exact absurd hdue (hasleep call heq.symm)

theorem Sound.check (h : c.Sound) (hi : c.threads[i]? = some s) (hs : s ≠ .waking) (call : Wait) :
    (c.put i (.ofCheck call c.clock c.activity)).Sound := by
  rcases Thread.ofCheck_cases call c.clock c.activity with ⟨result, hreturned⟩ | ⟨hholding, hdue⟩
  · rw [hreturned]
    exact h.put hi hs (by simp) (by simp)
  · rw [hholding]
    refine h.put hi hs (fun call' heq => ?_) (by simp)
    cases heq
    exact hdue

theorem Sound.change (hlock : c.isLocked = false) (hi : c.threads[i]? = some s) (a : Activity) :
    Sound { c with activity := a, threads := c.threads.set i .waking } where
  holding call hmem := by
    rcases mem_put hmem with hmem | heq
    -- The lock was free, so nobody has checked against the activity before the change and is yet to fall asleep.
    · exact absurd hmem (not_mem_of_unlocked hlock call)
    · cases heq
  asleep call _ _ := by
    obtain ⟨hlt, -⟩ := List.getElem?_eq_some_iff.mp hi
    exact List.mem_set hlt _

theorem Sound.wakeAll (h : c.Sound) (i : Nat) : (c.wakeAll.put i .finished).Sound where
  holding call hmem := by
    rcases mem_put hmem with hmem | heq
    · obtain ⟨t, ht, heq⟩ := List.mem_map.mp hmem
      cases t with
      | holding call' =>
          cases heq
          exact h.holding call ht
      | _ => cases heq
    · cases heq
  asleep call hmem _ := by
    rcases mem_put hmem with hmem | heq
    · obtain ⟨t, ht, heq⟩ := List.mem_map.mp hmem
      cases t <;> cases heq
    · cases heq

theorem Sound.advance (h : c.Sound) (i : Nat) : (c.advance i).Sound := by
  unfold Crowd.advance
  cases hi : c.threads[i]? with
  | none => exact h
  | some thread =>
      cases thread with
      | calling timeout =>
          dsimp only
          split
          · exact h
          · exact h.check hi (by simp) _
      | holding call =>
          have hdue := h.holding call (List.mem_of_getElem? hi)
          refine h.put hi (by simp) (by simp) (fun call' heq => ?_)
          cases heq
          exact hdue
      | asleep call notified => exact h.put hi (by simp) (by simp) (by simp)
      | roused call =>
          dsimp only
          split
          · exact h
          · exact h.check hi (by simp) call
      | completing action =>
          refine h.put hi (by simp) ?_ ?_ <;>
          · intro call heq
            unfold Thread.ofAction at heq
            split at heq <;> cases heq
      | changing change =>
          dsimp only
          split
          · exact h
          · rename_i hlock
            exact Sound.change (by simpa using hlock) hi _
      | waking => exact h.wakeAll i
      | returned result => exact h
      | finished => exact h

theorem Sound.join (h : c.Sound) (hholding : ∀ call, t ≠ .holding call)
    (hasleep : ∀ call, t ≠ .asleep call false) : (c.join t).Sound where
  holding call hmem := by
    rcases List.mem_append.mp hmem with hmem | heq
    · exact h.holding call hmem
    · exact absurd (List.mem_singleton.mp heq).symm (hholding call)
  asleep call hmem hdue := by
    rcases List.mem_append.mp hmem with hmem | heq
    · exact List.mem_append_left _ (h.asleep call hmem hdue)
    · exact absurd (List.mem_singleton.mp heq).symm (hasleep call)

theorem Sound.step {c c' : Crowd} (h : c.Sound) (hstep : Step c c') : c'.Sound := by
  cases hstep with
  | advance i => exact h.advance i
  | pass duration => exact ⟨h.holding, h.asleep⟩
  | call timeout => exact h.join (by simp) (by simp)
  | complete action => exact h.join (by simp) (by simp)
  | interrupt => exact h.join (by simp) (by simp)

/-! ## Reachable crowds -/

/-- Whatever the threads did since nobody was there. -/
def Reachable (c : Crowd) : Prop :=
  ∃ start : Crowd, start.threads = [] ∧ Relation.ReflTransGen Step start c

theorem Reachable.sound (h : c.Reachable) : c.Sound := by
  obtain ⟨start, hstart, hsteps⟩ := h
  induction hsteps with
  | refl => exact ⟨by simp [hstart], by simp [hstart]⟩
  | tail _ hstep ih => exact ih.step hstep

/-- A waiter that is asleep although it was interrupted or more actions are complete than when it began carries a
notification, or someone made a change and is still to wake the sleepers. When nobody is, all such waiters are
notified. -/
theorem due_sleeper_notified (h : c.Reachable) :
    (∀ call notified, .asleep call notified ∈ c.threads →
      c.activity.interrupted = true ∨ call.before < c.activity.completed.length →
        notified = true ∨ .waking ∈ c.threads) ∧
    (.waking ∉ c.threads → ∀ call, .asleep call false ∈ c.threads →
      c.activity.interrupted = false ∧ c.activity.completed.length ≤ call.before) := by
  have hsound := h.sound
  constructor
  · intro call notified hmem hdue
    cases notified with
    | true => exact .inl rfl
    | false => exact .inr (hsound.asleep call hmem hdue)
  · intro hwaking call hmem
    have hdue : ¬ call.IsDue c.activity := fun hdue => hwaking (hsound.asleep call hmem hdue)
    rw [Wait.IsDue, not_or, Bool.not_eq_true, Nat.not_lt] at hdue
    exact hdue

/-- A waiter has fallen asleep, and an action has completed, but nobody has been woken yet. -/
def beforeNotice : Crowd :=
  ((((((({} : Crowd).join (.calling 5)).advance 0).advance 0).join
    (.completing ⟨⟨"a"⟩, "Compile", .normal, []⟩)).advance 1).advance 1)

theorem due_sleeper_notified_beforeNotice : beforeNotice.Reachable ∧
    .asleep ⟨5, 0, 0⟩ false ∈ beforeNotice.threads ∧ 0 < beforeNotice.activity.completed.length ∧
      .waking ∈ beforeNotice.threads := by
  have hreachable : beforeNotice.Reachable := by
    refine ⟨{}, rfl, ?_⟩
    have hasleep := ((Relation.ReflTransGen.single (Step.call {} 5)).tail (.advance _ 0)).tail (.advance _ 0)
    exact ((hasleep.tail (.complete _ ⟨⟨"a"⟩, "Compile", .normal, []⟩)).tail (.advance _ 1)).tail (.advance _ 1)
  have hasleep : .asleep ⟨5, 0, 0⟩ false ∈ beforeNotice.threads := List.mem_cons_self
  have hdue : 0 < beforeNotice.activity.completed.length := by decide
  have hwoken := (due_sleeper_notified hreachable).1 ⟨5, 0, 0⟩ false hasleep (.inr hdue)
  exact ⟨hreachable, hasleep, hdue, hwoken.resolve_left (by decide)⟩

end Crowd

end Signal

end BuildRound
