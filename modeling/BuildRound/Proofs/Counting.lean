import BuildRound.Proofs.Completion
import BuildRound.Proofs.Ticker
import Mathlib.Data.List.TakeWhile

/-!
# Counting through a whole round

The objects of a round stay attached from the main evaluation through all exclusive ones, but only the main
evaluation has a listener. So while every action that completes there was enqueued before, actions that complete in
an exclusive evaluation were never enqueued for anyone, and count all the same: they are the only excess of the
completed over the enqueued actions that anybody ever reads.
-/

namespace BuildRound

/-! ## What reaches a progress -/

namespace Occurrence

/-- The message that reaches progress number `i`, if there is one. -/
def message? (i : Nat) : Occurrence → Option Message
  | .issued (some j) (.notify n) _ => if j = i then some (.notify n) else none
  | .issued _ (.complete j action) _ => if j = i then some (.complete action) else none
  | _ => none

def enqueued? (i : Nat) (o : Occurrence) : Option ActionId :=
  (o.message? i).bind Message.enqueued?

def completed? (i : Nat) (o : Occurrence) : Option ActionId :=
  (o.message? i).bind Message.completed?

/-- The action that counts as complete although nobody listened to the call in which it did. -/
def unheard? (i : Nat) : Occurrence → Option ActionId
  | .issued none c r => (issued none c r).completed? i
  | _ => none

/-- What reading the completed actions of progress number `i` brought. -/
def completedRead? (i : Nat) : Occurrence → Option Nat
  | .issued _ (.readCompleted j) count => if j = i then some count else none
  | _ => none

/-- What reading the enqueued actions of progress number `i` brought. -/
def enqueuedRead? (i : Nat) : Occurrence → Option Nat
  | .issued _ (.readEnqueued j) count => if j = i then some count else none
  | _ => none

variable {i count : Nat} {o : Occurrence} {id : ActionId} {p : Progress}

theorem Tells.completedCount (h : o.Tells i p) (hread : o.completedRead? i = some count) :
    count = p.completedCount := by
  unfold completedRead? at hread
  split at hread
  · split at hread
    · rename_i hji
      exact (Option.some.inj hread) ▸ h hji
    · cases hread
  · cases hread

theorem Tells.enqueuedCount (h : o.Tells i p) (hread : o.enqueuedRead? i = some count) :
    count = p.enqueuedCount := by
  unfold enqueuedRead? at hread
  split at hread
  · split at hread
    · rename_i hji
      exact (Option.some.inj hread) ▸ h hji
    · cases hread
  · cases hread

theorem eq_of_completed? (h : o.completed? i = some id) : ∃ l action, o = .issued l (.complete i action) () ∧
    action.isReportWorthy = true ∧ action.id = id := by
  obtain ⟨m, hm, hid⟩ := Option.bind_eq_some_iff.mp h
  unfold message? at hm
  split at hm
  · split at hm
    · cases hm
      cases hid
    · cases hm
  · rename_i l j action reply
    split at hm
    · rename_i hji
      subst hji
      cases hm
      simp only [Message.completed?] at hid
      split at hid
      · rename_i hworthy
        exact ⟨l, action, rfl, hworthy, Option.some.inj hid⟩
      · cases hid
    · cases hm
  · cases hm

end Occurrence

namespace Progress

variable {i : Nat} {p : Progress} {t u : Record} {id : ActionId}

theorem notice_frame (i : Nat) (p : Progress) (o : Occurrence) :
    (p.notice i o).enqueued = entered p.enqueued (o.enqueued? i) ∧
      (p.notice i o).activity.completed = entered p.activity.completed (o.completed? i) := by
  have hhear : ∀ m, (p.hear m).enqueued = entered p.enqueued m.enqueued? ∧
      (p.hear m).activity.completed = entered p.activity.completed m.completed? := fun m => (p.hear_frame m).2
  cases o with
  | issued l c r =>
      cases c with
      | notify n =>
          cases l with
          | none => exact ⟨rfl, rfl⟩
          | some j =>
              by_cases hj : j = i
              · simpa [notice, Occurrence.enqueued?, Occurrence.completed?, Occurrence.message?, hj, hear] using
                  hhear (.notify n)
              · simp [notice, Occurrence.enqueued?, Occurrence.completed?, Occurrence.message?, hj, entered]
      | complete j action =>
          by_cases hj : j = i
          · cases l <;> simpa [notice, Occurrence.enqueued?, Occurrence.completed?, Occurrence.message?, hj, hear]
              using hhear (.complete action)
          · cases l <;> simp [notice, Occurrence.enqueued?, Occurrence.completed?, Occurrence.message?, hj, entered]
      | _ => cases l <;> exact ⟨rfl, rfl⟩
  | answered l a =>
      cases l with
      | none => exact ⟨rfl, rfl⟩
      | some j =>
          cases a with
          | error e => exact ⟨rfl, rfl⟩
          | ok result =>
              simp only [notice]
              split <;> exact ⟨rfl, rfl⟩
  | _ => exact ⟨rfl, rfl⟩

theorem enqueued_after (i : Nat) (p : Progress) (t : Record) :
    (p.after i t).enqueued = (t.map (·.enqueued? i)).foldl entered p.enqueued := by
  induction t generalizing p with
  | nil => rfl
  | cons o t ih => rw [after_cons, ih, (p.notice_frame i o).1, List.map_cons, List.foldl_cons]

theorem completed_after (i : Nat) (p : Progress) (t : Record) :
    (p.after i t).activity.completed = (t.map (·.completed? i)).foldl entered p.activity.completed := by
  induction t generalizing p with
  | nil => rfl
  | cons o t ih => rw [after_cons, ih, (p.notice_frame i o).2, List.map_cons, List.foldl_cons]

theorem length_le_foldl_entered (ids : List ActionId) (os : List (Option ActionId)) :
    ids.length ≤ (os.foldl entered ids).length := by
  induction os generalizing ids with
  | nil => exact Nat.le_refl _
  | cons o os ih => exact Nat.le_trans (length_le_entered ids o) (ih _)

theorem counts_le_after (i : Nat) (p : Progress) (t : Record) : p.counts ≤ (p.after i t).counts := by
  refine ⟨?_, ?_⟩
  · simp only [counts, completedCount, completed_after]
    exact length_le_foldl_entered _ _
  · simp only [counts, enqueuedCount, enqueued_after]
    exact length_le_foldl_entered _ _

end Progress

/-! ## The excess -/

namespace Record

/-- Who listens learns of each action that counts before it is complete. -/
def Announced (i : Nat) (t : Record) : Prop :=
  ∀ past future j action reply, t = past ++ .issued (some j) (.complete i action) reply :: future →
    action.isReportWorthy = true → ∃ o ∈ past, o.enqueued? i = some action.id

/-- The actions, each once, that completed while nobody listened and were not enqueued for anyone. -/
def strays (i : Nat) (t : Record) : List ActionId :=
  ((t.map (·.unheard? i)).foldl entered []).filter fun id => ∀ o ∈ t, o.enqueued? i ≠ some id

variable {i : Nat} {p : Progress} {t u v rest : Record}

theorem Announced.of_append (h : (t ++ u).Announced i) : t.Announced i :=
  fun past future j action reply hsplit => h past (future ++ u) j action reply (by simp [hsplit])

/-- Whether the completion with this number, if it is one, was announced. -/
def isAnnouncedAt (i : Nat) (t : Record) (k : Nat) : Bool :=
  match t[k]?.bind Occurrence.completion? with
  | some (some _, j, action) =>
      j ≠ i || !action.isReportWorthy || (t.take k).any (·.enqueued? i = some action.id)
  | _ => true

theorem announced_of_forall (h : ∀ k < t.length, t.isAnnouncedAt i k = true) : t.Announced i := by
  rintro past future j action reply rfl hworthy
  have hat := h past.length (by simp)
  simpa [isAnnouncedAt, Occurrence.completion?, hworthy] using hat

/-- What completed was enqueued or is a stray. -/
theorem Announced.completed_subset (h : t.Announced i) (hcompleted : p.activity.completed = []) :
    (p.after i t).activity.completed ⊆ (p.after i t).enqueued ++ t.strays i := by
  intro id hid
  by_cases henqueued : ∃ o ∈ t, o.enqueued? i = some id
  · refine List.mem_append_left _ ?_
    rw [Progress.enqueued_after, mem_foldl_entered]
    exact .inr (List.mem_map.mpr henqueued)
  · refine List.mem_append_right _ ?_
    rw [Progress.completed_after, mem_foldl_entered, hcompleted, List.mem_map] at hid
    obtain ⟨o, ho, hid⟩ := hid.resolve_left (by simp)
    obtain ⟨l, action, rfl, hworthy, rfl⟩ := Occurrence.eq_of_completed? hid
    -- Under a listener the action would have been enqueued before.
    cases l with
    | some j =>
        obtain ⟨past, future, hsplit⟩ := List.append_of_mem ho
        obtain ⟨o, ho, hfound⟩ := h past future j action () hsplit hworthy
        exact absurd ⟨o, by simp [hsplit, ho], hfound⟩ henqueued
    | none =>
        refine List.mem_filter.mpr ⟨mem_foldl_entered.mpr (.inr (List.mem_map.mpr ⟨_, ho, hid⟩)), ?_⟩
        simpa using henqueued

theorem Truthful.tells (h : t.Truthful i p) {k : Nat} {o : Occurrence} (hk : t[k]? = some o) :
    o.Tells i (p.after i (t.take k)) := by
  rw [eq_take_cons_drop hk] at h
  exact (truthful_append.mp h).2.1

theorem after_take_of_le {j k : Nat} (hjk : j ≤ k) :
    p.after i (t.take k) = (p.after i (t.take j)).after i ((t.take k).drop j) := by
  have hsplit := List.take_append_drop j (t.take k)
  rw [List.take_take, Nat.min_eq_left hjk] at hsplit
  rw [← Progress.after_append, hsplit]

/-- The completed actions that someone counts exceed the enqueued ones, counted later, by the strays at most. -/
theorem Truthful.completed_le (h : t.Truthful i p) (hannounced : t.Announced i)
    (hcompleted : p.activity.completed = []) {j k completed enqueued : Nat}
    (hj : t[j]?.bind (·.completedRead? i) = some completed) (hk : t[k]?.bind (·.enqueuedRead? i) = some enqueued)
    (hjk : j ≤ k) : completed ≤ enqueued + (strays i (t.take j)).length := by
  obtain ⟨o, ho, hcount⟩ := Option.bind_eq_some_iff.mp hj
  obtain ⟨o', ho', hcount'⟩ := Option.bind_eq_some_iff.mp hk
  obtain rfl := (h.tells ho).completedCount hcount
  obtain rfl := (h.tells ho').enqueuedCount hcount'
  let q := p.after i (t.take j)
  have hnodup : q.activity.completed.Nodup := by
    rw [Progress.completed_after, hcompleted]
    exact nodup_foldl_entered .nil _
  have hbefore : Announced i (t.take j) := Announced.of_append ((List.take_append_drop j t).symm ▸ hannounced)
  calc q.completedCount
      ≤ (q.enqueued ++ strays i (t.take j)).length :=
        (List.subperm_of_subset hnodup (hbefore.completed_subset hcompleted)).length_le
    _ = q.enqueuedCount + (strays i (t.take j)).length := List.length_append
    _ ≤ (p.after i (t.take k)).enqueuedCount + (strays i (t.take j)).length := by
        rw [after_take_of_le hjk]
        exact Nat.add_le_add_right (q.counts_le_after i _).2 _

end Record

/-! ## A whole round -/

def Occurrence.attaches : Occurrence → Bool
  | .called (.attach _) => true
  | _ => false

def Occurrence.detaches : Occurrence → Bool
  | .called .detach => true
  | _ => false

theorem Record.Truthful.of_prefix {i : Nat} {p : Progress} {t u : Record} (h : t.Truthful i p) (hu : u <+: t) :
    u.Truthful i p := by
  obtain ⟨v, rfl⟩ := hu
  exact (truthful_append.mp h).1

theorem Record.Plain.not_attaches {t ms : Record} (h : t.Plain ms) (hms : ∀ o ∈ ms, o.attaches = false) :
    ∀ o ∈ t, (!o.attaches) = true := by
  intro o ho
  cases hstep : o.isStep with
  | true => simp [hms o (h.steps ▸ List.mem_filter.mpr ⟨ho, hstep⟩)]
  | false => cases o <;> first | rfl | simp [Occurrence.isStep] at hstep

theorem takeWhile_prefix_of_cut {α : Type} {f : α → Bool} {t u : List α} {a : α} (ha : f a = false) :
    (t ++ a :: u).takeWhile f <+: t := by
  rw [List.takeWhile_append]
  split
  · simp [ha]
  · exact List.takeWhile_prefix f

/-- Cleaning up comes to detaching without anybody reading. -/
theorem Record.Closing.before_detach {watched : Bool} {v : Record} (h : v.Closing watched) :
    ∃ before after : Record, v = before ++ .called .detach :: after ∧
      ∀ (i : Nat) (p : Progress), before.Truthful i p := by
  obtain ⟨hn, ⟨hm, hu⟩, -⟩ := h
  rename_i n k m u
  refine ⟨n ++ ((if watched then [.joined] else []) ++ m), u ++ .released :: k, by simp, fun i p => ?_⟩
  refine truthful_append.mpr ⟨hn.truthful i p, truthful_append.mpr ⟨?_, hm.truthful i _⟩⟩
  cases watched with
  | false => trivial
  | true => exact ⟨trivial, trivial⟩

namespace Launch

variable {σ : Type}

/-- What happened from attaching the objects of the round on, until they were detached. -/
def during (l : Launch σ) : Record :=
  (l.record.dropWhile (!·.attaches)).takeWhile (!·.detaches)

theorem during_of_invalid (l : Launch σ) {e : ConfigError} (hinvalid : l.setup.options.validate = .error e) :
    l.during = [] := by
  obtain ⟨-, -, hnoise, -⟩ := l.of_invalid hinvalid
  have hnone : l.record.dropWhile (!·.attaches) = [] :=
    List.dropWhile_eq_nil_iff.mpr (hnoise.plain.not_attaches (by simp))
  rw [during, hnone, List.takeWhile_nil]

/-- While the objects are attached, whoever reads the counts reads what a new progress has by then. -/
theorem during_truthful (l : Launch σ) (hvalid : l.setup.options.validate = .ok ()) :
    l.during.Truthful l.progress { requested := l.order.requested, built := l.built } := by
  obtain ⟨t, ht, -, hprovided⟩ := l.provides
  obtain ⟨a, ha, -, hattach⟩ := l.attaches
  obtain ⟨u, p, -, h₂, ⟨-, -, hp⟩, hpost, -, hattended⟩ := l.works
  obtain ⟨v, hv, -, -, hcloses⟩ := l.closes hvalid hp hpost hattended
  obtain ⟨x, y, rfl, hx⟩ := hv.before_detach
  have hwork := (hattach.toRecords.trans h₂).truthful l.progress _ hprovided.fresh
  obtain ⟨hn, hb⟩ := ha
  rename_i n b
  -- The record, cut where the objects are attached and where they are detached.
  have hrecord : l.record = (t ++ n) ++ .called (.attach l.objects) :: ((b ++ (u ++ x)) ++ .called .detach :: y) := by
    simp [record, hcloses.trace, h₂.trace, hattach.trace, hprovided.trace]
  have hbefore : ∀ o ∈ t ++ n, (!o.attaches) = true :=
    (ht.append hn.plain).not_attaches (by simp [Occurrence.attaches])
  have hdrop : l.record.dropWhile (!·.attaches) =
      (.called (.attach l.objects) :: (b ++ (u ++ x))) ++ .called .detach :: y := by
    rw [hrecord, List.dropWhile_append_of_pos hbefore]
    simp [Occurrence.attaches]
  have hcut : l.during <+: .called (.attach l.objects) :: (b ++ (u ++ x)) := by
    rw [during, hdrop]
    exact takeWhile_prefix_of_cut rfl
  refine Record.Truthful.of_prefix ?_ hcut
  have hwhole := Record.truthful_append.mpr ⟨hwork, hx _ _⟩
  rw [List.append_assoc, List.append_assoc] at hwhole
  have hafter := (Record.truthful_append.mp hwhole).2
  rw [hn.after_progress] at hafter
  simpa using hafter

/-- If the listener of the main evaluation learns of each action before it is complete, then whoever counts the
completed and later the enqueued actions of an attached progress gets no more completed ones than enqueued ones,
apart from those that by then were complete in a call without a listener and enqueued for nobody. -/
theorem completed_le_enqueued_add_strays (l : Launch σ) (hannounced : l.during.Announced l.progress)
    {j k completed enqueued : Nat} (hj : l.during[j]?.bind (·.completedRead? l.progress) = some completed)
    (hk : l.during[k]?.bind (·.enqueuedRead? l.progress) = some enqueued) (hjk : j ≤ k) :
    completed ≤ enqueued + (Record.strays l.progress (l.during.take j)).length := by
  cases hvalidate : l.setup.options.validate with
  | error e => simp [l.during_of_invalid hvalidate] at hj
  | ok valid => exact (l.during_truthful hvalidate).completed_le hannounced rfl hj hk hjk

/-- The main evaluation runs one action and the exclusive one another, and both look at the progress. -/
def countedTwice : Launch Scripted :=
  scripted false
    [{ steps := [.run [compile], .progress] },
      { steps := [.complete ⟨⟨"b"⟩, "Compile", .normal, []⟩, .progress] }]
    [] [⟨⟨"b.o"⟩, .derived⟩]

theorem completed_le_enqueued_add_strays_countedTwice :
    countedTwice.during.Announced countedTwice.progress ∧
      countedTwice.during[24]?.bind (·.completedRead? countedTwice.progress) = some 2 ∧
      countedTwice.during[25]?.bind (·.enqueuedRead? countedTwice.progress) = some 1 ∧
      2 ≤ 1 + (Record.strays countedTwice.progress (countedTwice.during.take 24)).length := by
  have hannounced : countedTwice.during.Announced countedTwice.progress :=
    Record.announced_of_forall (by decide +kernel)
  have hcompleted : countedTwice.during[24]?.bind (·.completedRead? countedTwice.progress) = some 2 := by
    decide +kernel
  have henqueued : countedTwice.during[25]?.bind (·.enqueuedRead? countedTwice.progress) = some 1 := by
    decide +kernel
  exact ⟨hannounced, hcompleted, henqueued,
    completed_le_enqueued_add_strays countedTwice hannounced hcompleted henqueued (by decide)⟩

/-- Only the exclusive evaluation runs an action. -/
def countedAlone : Launch Scripted :=
  scripted false [{}, { steps := [.run [compile], .progress] }] [] compile.outputs

/-- In an exclusive evaluation an action is enqueued for nobody, and complete all the same: whoever looks then gets
more completed than enqueued actions. -/
theorem completed_of_none_enqueued_countedAlone :
    countedAlone.during.Announced countedAlone.progress ∧ ∃ j k : Nat, j ≤ k ∧
      countedAlone.during[j]?.bind (·.completedRead? countedAlone.progress) = some 1 ∧
      countedAlone.during[k]?.bind (·.enqueuedRead? countedAlone.progress) = some 0 :=
  ⟨Record.announced_of_forall (by decide +kernel), 16, 17, by decide +kernel, by decide +kernel, by decide +kernel⟩

end Launch

end BuildRound
