import BuildRound.Proofs.Record
import Mathlib.Data.List.Nodup

/-!
# The books of a progress

Any number of threads tell a progress of nodes and actions, each call in one step under a lock. Which messages
were delivered so far determines its three sets: so they only grow, hearing a message again changes nothing, and
neither the order nor the threads matter.
-/

namespace BuildRound

/-! ## Sets -/

namespace ArtifactSet

variable {s t : ArtifactSet}

theorem insert_of_contains {a : Artifact} (h : s.contains a = true) : s.insert a = s := by
  simp [insert, h]

theorem extend_of_contains {as : List Artifact} (h : ∀ a ∈ as, s.contains a = true) : s.extend as = s := by
  induction as with
  | nil => rfl
  | cons a as ih =>
      have hinsert : s.insert a = s := insert_of_contains (h a (by simp))
      simp only [extend, List.foldl_cons, hinsert]
      exact ih (fun b hb => h b (by simp [hb]))

theorem mem_identities {a : Artifact} : a.identity ∈ s.toList.map Artifact.identity ↔ s.contains a = true := by
  simp [contains_iff]

theorem nodup_identities (s : ArtifactSet) : (s.toList.map Artifact.identity).Nodup :=
  List.pairwise_map.mpr s.distinct

/-- Sets that hold the same artifacts are equally large. -/
theorem size_eq (h : ∀ a, s.contains a = true ↔ t.contains a = true) : s.size = t.size := by
  have hmem : ∀ i, i ∈ s.toList.map Artifact.identity ↔ i ∈ t.toList.map Artifact.identity := by
    intro i
    constructor
    · intro hi
      obtain ⟨a, -, rfl⟩ := List.mem_map.mp hi
      exact mem_identities.mpr ((h a).mp (mem_identities.mp hi))
    · intro hi
      obtain ⟨a, -, rfl⟩ := List.mem_map.mp hi
      exact mem_identities.mpr ((h a).mpr (mem_identities.mp hi))
  have hperm := (List.perm_ext_iff_of_nodup s.nodup_identities t.nodup_identities).mpr hmem
  simpa [size] using hperm.length_eq

end ArtifactSet

/-- The ids with one more entered, if there is one to enter. -/
def entered (ids : List ActionId) (id? : Option ActionId) : List ActionId :=
  id?.elim ids (ids.insert ·)

theorem mem_foldl_entered {ids : List ActionId} {os : List (Option ActionId)} {id : ActionId} :
    id ∈ os.foldl entered ids ↔ id ∈ ids ∨ some id ∈ os := by
  induction os generalizing ids with
  | nil => simp
  | cons o os ih =>
      rw [List.foldl_cons, ih]
      cases o with
      | none => simp [entered]
      | some other => simp [entered, or_assoc, or_left_comm]

theorem nodup_foldl_entered {ids : List ActionId} (h : ids.Nodup) (os : List (Option ActionId)) :
    (os.foldl entered ids).Nodup := by
  induction os generalizing ids with
  | nil => exact h
  | cons o os ih =>
      refine ih ?_
      cases o with
      | none => exact h
      | some id => exact h.insert

/-! ## Messages -/

/-- What one call tells a progress: something about a node, or that an action is complete. -/
inductive Message where
  | notify (notification : Notification)
  | complete (action : Action)
  deriving DecidableEq, Repr

namespace Message

def Shows (a : Artifact) : Message → Prop
  | notify n => n.Shows a
  | complete _ => False

/-- The action that a message says is enqueued, if it counts. -/
def enqueued? : Message → Option ActionId
  | notify (.enqueueing (.action action)) => if action.isReportWorthy then some action.id else none
  | _ => none

/-- The action that a message says is complete, if it counts. -/
def completed? : Message → Option ActionId
  | complete action => if action.isReportWorthy then some action.id else none
  | notify _ => none

end Message

namespace Progress

def hear (p : Progress) : Message → Progress
  | .notify n => p.notify n
  | .complete action => p.complete action

def hearAll (p : Progress) (ms : List Message) : Progress :=
  ms.foldl hear p

/-! ## One message -/

variable {p q : Progress} {m : Message} {ms : List Message} {a : Artifact} {id : ActionId}

theorem exists_vouched_iff {key : NodeKey} {state : Freshness} :
    (∃ b ∈ p.vouched key state, b.identity = a.identity) ↔
      p.requested.contains a = true ∧ (Notification.evaluated key state).Shows a := by
  cases key with
  | artifact b =>
      simp only [vouched, Notification.Shows]
      constructor
      · rintro ⟨c, hc, hca⟩
        split at hc
        · rename_i hshows
          obtain rfl := List.mem_singleton.mp hc
          simp only [showsBuilt, Bool.and_eq_true, Bool.or_eq_true, decide_eq_true_eq] at hshows
          exact ⟨ArtifactSet.contains_congr hca ▸ hshows.2, hca, hshows.1⟩
        · simp at hc
      · rintro ⟨hrequested, hba, hstate⟩
        have hshows : p.showsBuilt b state = true := by
          simp [showsBuilt, hstate, ArtifactSet.contains_congr hba, hrequested]
        exact ⟨b, by simp [hshows], hba⟩
  | action action =>
      simp only [vouched, Notification.Shows, List.mem_filter]
      constructor
      · rintro ⟨b, ⟨hb, hrequested⟩, hba⟩
        exact ⟨ArtifactSet.contains_congr hba ▸ hrequested, b, hb, hba⟩
      · rintro ⟨hrequested, b, hb, hba⟩
        exact ⟨b, ⟨hb, (ArtifactSet.contains_congr hba).trans hrequested⟩, hba⟩
  | other => simp [vouched, Notification.Shows]

theorem contains_notify {n : Notification} : (p.notify n).built.contains a = true ↔
    p.built.contains a = true ∨ p.requested.contains a = true ∧ n.Shows a := by
  cases n with
  | invalidated key => simp [notify, Notification.Shows]
  | enqueueing key =>
      cases key with
      | action action => by_cases h : action.isReportWorthy <;> simp [notify, h, Notification.Shows]
      | artifact | other => simp [notify, Notification.Shows]
  | evaluated key state =>
      simp only [notify, ArtifactSet.contains_extend]
      exact or_congr_right exists_vouched_iff

theorem contains_hear : (p.hear m).built.contains a = true ↔
    p.built.contains a = true ∨ p.requested.contains a = true ∧ m.Shows a := by
  cases m with
  | notify n => exact contains_notify
  | complete action => by_cases h : action.isReportWorthy <;> simp [hear, complete, h, Message.Shows]

/-- What a message leaves as it is, and the ids it enters. -/
theorem hear_frame (p : Progress) (m : Message) : (p.hear m).requested = p.requested ∧
    (p.hear m).enqueued = entered p.enqueued m.enqueued? ∧
    (p.hear m).activity.completed = entered p.activity.completed m.completed? := by
  cases m with
  | complete action =>
      by_cases h : action.isReportWorthy
      · exact ⟨by simp [hear, complete, h], by simp [hear, complete, h, Message.enqueued?, entered],
          by simp [hear, complete, h, Message.completed?, entered, Activity.complete]⟩
      · exact ⟨by simp [hear, complete, h], by simp [hear, complete, h, Message.enqueued?, entered],
          by simp [hear, complete, h, Message.completed?, entered]⟩
  | notify n =>
      cases n with
      | enqueueing key =>
          cases key with
          | action action =>
              by_cases h : action.isReportWorthy <;>
                simp [hear, notify, h, Message.enqueued?, Message.completed?, entered]
          | artifact | other => exact ⟨rfl, rfl, rfl⟩
      | invalidated | evaluated => exact ⟨rfl, rfl, rfl⟩

/-- A message that brings nothing new changes nothing. -/
theorem hear_eq_self (hbuilt : ∀ a, p.requested.contains a = true → m.Shows a → p.built.contains a = true)
    (henqueued : ∀ id, m.enqueued? = some id → id ∈ p.enqueued)
    (hcompleted : ∀ id, m.completed? = some id → id ∈ p.activity.completed) : p.hear m = p := by
  cases m with
  | complete action =>
      by_cases h : action.isReportWorthy
      · have hmem := hcompleted action.id (by simp [Message.completed?, h])
        simp [hear, complete, h, Activity.complete, hmem]
      · simp [hear, complete, h]
  | notify n =>
      cases n with
      | invalidated key => rfl
      | enqueueing key =>
          cases key with
          | action action =>
              by_cases h : action.isReportWorthy
              · have hmem := henqueued action.id (by simp [Message.enqueued?, h])
                simp [hear, notify, h, hmem]
              · simp [hear, notify, h]
          | artifact | other => rfl
      | evaluated key state =>
          have hextend : p.built.extend (p.vouched key state) = p.built := by
            refine ArtifactSet.extend_of_contains (fun b hb => ?_)
            obtain ⟨hrequested, hshows⟩ := exists_vouched_iff.mp ⟨b, hb, rfl⟩
            exact hbuilt b hrequested hshows
          simp [hear, notify, hextend]

/-! ## Many messages -/

theorem hearAll_append (p : Progress) (ms ns : List Message) :
    p.hearAll (ms ++ ns) = (p.hearAll ms).hearAll ns :=
  List.foldl_append

theorem requested_hearAll (p : Progress) (ms : List Message) : (p.hearAll ms).requested = p.requested := by
  induction ms generalizing p with
  | nil => rfl
  | cons m ms ih => exact (ih _).trans (p.hear_frame m).1

theorem contains_hearAll : (p.hearAll ms).built.contains a = true ↔
    p.built.contains a = true ∨ p.requested.contains a = true ∧ ∃ m ∈ ms, m.Shows a := by
  induction ms generalizing p with
  | nil => simp [hearAll]
  | cons m ms ih =>
      have h := ih (p := p.hear m)
      rw [(p.hear_frame m).1, contains_hear, or_assoc] at h
      refine h.trans (or_congr_right ?_)
      simp [← and_or_left]

theorem enqueued_hearAll (p : Progress) (ms : List Message) :
    (p.hearAll ms).enqueued = (ms.map Message.enqueued?).foldl entered p.enqueued := by
  induction ms generalizing p with
  | nil => rfl
  | cons m ms ih =>
      rw [List.map_cons, List.foldl_cons, ← (p.hear_frame m).2.1]
      exact ih _

theorem completed_hearAll (p : Progress) (ms : List Message) :
    (p.hearAll ms).activity.completed = (ms.map Message.completed?).foldl entered p.activity.completed := by
  induction ms generalizing p with
  | nil => rfl
  | cons m ms ih =>
      rw [List.map_cons, List.foldl_cons, ← (p.hear_frame m).2.2]
      exact ih _

theorem mem_enqueued_hearAll :
    id ∈ (p.hearAll ms).enqueued ↔ id ∈ p.enqueued ∨ ∃ m ∈ ms, m.enqueued? = some id := by
  rw [enqueued_hearAll, mem_foldl_entered, List.mem_map]

theorem mem_completed_hearAll :
    id ∈ (p.hearAll ms).activity.completed ↔
      id ∈ p.activity.completed ∨ ∃ m ∈ ms, m.completed? = some id := by
  rw [completed_hearAll, mem_foldl_entered, List.mem_map]

/-- Hearing once more what was heard already changes nothing. -/
theorem hear_of_mem (h : m ∈ ms) : (p.hearAll ms).hear m = p.hearAll ms := by
  refine hear_eq_self (fun a hrequested hshows => ?_) (fun id hid => ?_) (fun id hid => ?_)
  · rw [requested_hearAll] at hrequested
    exact contains_hearAll.mpr (.inr ⟨hrequested, m, h, hshows⟩)
  · exact mem_enqueued_hearAll.mpr (.inr ⟨m, h, hid⟩)
  · exact mem_completed_hearAll.mpr (.inr ⟨m, h, hid⟩)

/-- Everything that one progress has recorded, the other has too. -/
structure Within (p q : Progress) : Prop where
  built : ∀ a, p.built.contains a = true → q.built.contains a = true
  enqueued : p.enqueued ⊆ q.enqueued
  completed : p.activity.completed ⊆ q.activity.completed

theorem within_hearAll (p : Progress) (ms : List Message) : p.Within (p.hearAll ms) where
  built _ h := contains_hearAll.mpr (.inl h)
  enqueued _ h := mem_enqueued_hearAll.mpr (.inl h)
  completed _ h := mem_completed_hearAll.mpr (.inl h)

/-- Two progresses with equal sets and equal counts. -/
structure Agrees (p q : Progress) : Prop where
  built : ∀ a, p.built.contains a = true ↔ q.built.contains a = true
  enqueued : ∀ id, id ∈ p.enqueued ↔ id ∈ q.enqueued
  completed : ∀ id, id ∈ p.activity.completed ↔ id ∈ q.activity.completed
  builtSize : p.built.size = q.built.size
  enqueuedCount : p.enqueuedCount = q.enqueuedCount
  completedCount : p.completedCount = q.completedCount

/-- Of two ways to deliver the same messages none makes a difference. -/
theorem agrees_of_perm {ns : List Message} (henqueued : p.enqueued.Nodup)
    (hcompleted : p.activity.completed.Nodup) (h : ms.Perm ns) : (p.hearAll ms).Agrees (p.hearAll ns) := by
  have hbuilt : ∀ a, (p.hearAll ms).built.contains a = true ↔ (p.hearAll ns).built.contains a = true := by
    intro a
    simp only [contains_hearAll, h.mem_iff]
  have henqueued' : (p.hearAll ms).enqueued.Perm (p.hearAll ns).enqueued := by
    rw [enqueued_hearAll, enqueued_hearAll]
    refine (List.perm_ext_iff_of_nodup (nodup_foldl_entered henqueued _)
      (nodup_foldl_entered henqueued _)).mpr (fun id => ?_)
    simp only [mem_foldl_entered, (h.map _).mem_iff]
  have hcompleted' : (p.hearAll ms).activity.completed.Perm (p.hearAll ns).activity.completed := by
    rw [completed_hearAll, completed_hearAll]
    refine (List.perm_ext_iff_of_nodup (nodup_foldl_entered hcompleted _)
      (nodup_foldl_entered hcompleted _)).mpr (fun id => ?_)
    simp only [mem_foldl_entered, (h.map _).mem_iff]
  exact ⟨hbuilt, fun _ => henqueued'.mem_iff, fun _ => hcompleted'.mem_iff, ArtifactSet.size_eq hbuilt,
    henqueued'.length_eq, hcompleted'.length_eq⟩

end Progress

/-! ## Many threads -/

/-- Threads that have these messages left to deliver to one progress, and what it has heard so far. -/
structure Chorus where
  progress : Progress
  threads : List (List Message)
  heard : List Message := []

namespace Chorus

/-- The threads before their first messages, around a new progress. -/
def start (requested built : ArtifactSet) (threads : List (List Message)) : Chorus where
  progress := { requested, built }
  threads

/-- Let a thread deliver its next message, if it has one left. -/
def advance (c : Chorus) (i : Nat) : Chorus :=
  match c.threads[i]? with
  | some (m :: rest) =>
      { progress := c.progress.hear m, threads := c.threads.set i rest, heard := c.heard ++ [m] }
  | _ => c

/-- Let the threads take turns as a schedule says. Every prefix of an interleaving is such a run. -/
def run (c : Chorus) (schedule : List Nat) : Chorus :=
  schedule.foldl advance c

theorem heard_run (c : Chorus) (schedule : List Nat) : ∃ ms, (c.run schedule).heard = c.heard ++ ms := by
  induction schedule generalizing c with
  | nil => exact ⟨[], by simp [run]⟩
  | cons i schedule ih =>
      obtain ⟨ms, hms⟩ := ih (c.advance i)
      have hnext : ∃ ns, (c.advance i).heard = c.heard ++ ns := by
        unfold advance
        split
        · exact ⟨_, rfl⟩
        · exact ⟨[], by simp⟩
      obtain ⟨ns, hns⟩ := hnext
      exact ⟨ns ++ ms, by rw [← List.append_assoc, ← hns]; exact hms⟩

variable {c : Chorus} {p : Progress}

/-- The progress has heard just what was delivered, and all messages are either delivered or left. -/
structure Keeps (p : Progress) (all : List Message) (c : Chorus) : Prop where
  progress : c.progress = p.hearAll c.heard
  messages : (c.heard ++ c.threads.flatten).Perm all

theorem perm_of_next {threads : List (List Message)} {i : Nat} {m : Message} {rest : List Message}
    (h : threads[i]? = some (m :: rest)) : (m :: (threads.set i rest).flatten).Perm threads.flatten := by
  have hsplit := eq_take_cons_drop h
  obtain ⟨hi, -⟩ := List.getElem?_eq_some_iff.mp h
  have hset : threads.set i rest = threads.take i ++ rest :: threads.drop (i + 1) :=
    List.set_eq_take_append_cons_drop.trans (by simp [hi])
  rw [hset]
  conv => rhs; rw [hsplit]
  simpa using List.perm_middle.symm

theorem Keeps.advance {all : List Message} (h : c.Keeps p all) (i : Nat) : (c.advance i).Keeps p all := by
  unfold Chorus.advance
  split
  · rename_i m rest hnext
    refine ⟨?_, ?_⟩
    · simp [h.progress, Progress.hearAll]
    · have hperm : (c.heard ++ [m] ++ (c.threads.set i rest).flatten).Perm (c.heard ++ c.threads.flatten) := by
        rw [List.append_assoc]
        exact (perm_of_next hnext).append_left c.heard
      exact hperm.trans h.messages
  · exact h

theorem Keeps.run {all : List Message} (h : c.Keeps p all) (schedule : List Nat) :
    (c.run schedule).Keeps p all := by
  induction schedule generalizing c with
  | nil => exact h
  | cons i schedule ih => exact ih (h.advance i)

theorem keeps_start (requested built : ArtifactSet) (threads : List (List Message)) :
    (start requested built threads).Keeps { requested, built } threads.flatten :=
  ⟨rfl, by simp [start]⟩

/-- Whenever a progress hears these threads, in whatever order and however far: it has built what it began with and
the requested artifacts that some message so far shows, and each action that was enqueued or completed so far counts
once. Its sets only grow, a message it heard already changes nothing, and whoever else delivers the same messages in
any order brings the same sets and counts. -/
theorem books_exact (requested built : ArtifactSet) (threads : List (List Message)) (schedule : List Nat) :
    let c := (start requested built threads).run schedule
    (c.heard ++ c.threads.flatten).Perm threads.flatten ∧
    (∀ a, c.progress.built.contains a = true ↔
      built.contains a = true ∨ requested.contains a = true ∧ ∃ m ∈ c.heard, m.Shows a) ∧
    (c.progress.enqueued.Nodup ∧
      ∀ id, id ∈ c.progress.enqueued ↔ ∃ m ∈ c.heard, m.enqueued? = some id) ∧
    (c.progress.activity.completed.Nodup ∧
      ∀ id, id ∈ c.progress.activity.completed ↔ ∃ m ∈ c.heard, m.completed? = some id) ∧
    (∀ more, c.progress.Within (c.run more).progress) ∧
    (∀ m ∈ c.heard, c.progress.hear m = c.progress) ∧
    (∀ threads' schedule', let c' := (start requested built threads').run schedule'
      c.heard.Perm c'.heard → c.progress.Agrees c'.progress) := by
  intro c
  have hc : c.Keeps { requested, built } threads.flatten := (keeps_start requested built threads).run schedule
  refine ⟨hc.messages, fun a => ?_, ⟨?_, fun id => ?_⟩, ⟨?_, fun id => ?_⟩, fun more => ?_, fun m hm => ?_, ?_⟩
  · rw [hc.progress, Progress.contains_hearAll]
  · rw [hc.progress, Progress.enqueued_hearAll]
    exact nodup_foldl_entered .nil _
  · rw [hc.progress, Progress.mem_enqueued_hearAll]
    simp
  · rw [hc.progress, Progress.completed_hearAll]
    exact nodup_foldl_entered .nil _
  · rw [hc.progress, Progress.mem_completed_hearAll]
    simp
  · obtain ⟨ms, hms⟩ := heard_run c more
    have hmore : (c.run more).progress = c.progress.hearAll ms := by
      rw [(hc.run more).progress, hms, Progress.hearAll_append, ← hc.progress]
    exact hmore ▸ c.progress.within_hearAll ms
  · rw [hc.progress]
    exact Progress.hear_of_mem hm
  · intro threads' schedule' c' hperm
    have hc' : c'.Keeps { requested, built } threads'.flatten :=
      (keeps_start requested built threads').run schedule'
    rw [hc.progress, hc'.progress]
    exact Progress.agrees_of_perm .nil .nil hperm

end Chorus

end BuildRound
