import BuildRound.Proofs.Bookkeeping
import Mathlib.Data.List.Basic
import Mathlib.Data.List.Induction
import Mathlib.Data.List.Perm.Subperm

/-!
# Reading the progress text beside the workers

Worker threads tell a progress of nodes and actions while other threads read its text, which takes two steps: the
completed actions are counted first, and anything may happen before the enqueued ones are. That the text still
never shows more completed than enqueued actions rests on this order and on both sets only growing.
-/

namespace BuildRound

/-! ## Counts -/

theorem mem_entered {ids : List ActionId} {id? : Option ActionId} {id : ActionId} :
    id ∈ entered ids id? ↔ id ∈ ids ∨ id? = some id := by
  cases id? with
  | none => simp [entered]
  | some other => simp [entered, or_comm, eq_comm]

/-- The completed and the enqueued actions, counted. -/
structure Counts where
  completed : Nat
  enqueued : Nat

namespace Counts

variable {r s u : Counts}

instance : LE Counts where
  le r s := r.completed ≤ s.completed ∧ r.enqueued ≤ s.enqueued

theorem le_refl (r : Counts) : r ≤ r :=
  ⟨Nat.le_refl _, Nat.le_refl _⟩

theorem le_trans (hrs : r ≤ s) (hsu : s ≤ u) : r ≤ u :=
  ⟨Nat.le_trans hrs.1 hsu.1, Nat.le_trans hrs.2 hsu.2⟩

def text (r : Counts) : String :=
  Progress.countsText r.completed r.enqueued

theorem slash_notMem_toDigits (n : Nat) : '/' ∉ Nat.toDigits 10 n :=
  fun h => absurd (Nat.isDigit_of_mem_toDigits (by decide) (by decide) h) (by decide)

theorem toDigits_injective {m n : Nat} (h : Nat.toDigits 10 m = Nat.toDigits 10 n) : m = n := by
  rw [← Nat.ofDigitChars_ten_toDigits (n := m), h, Nat.ofDigitChars_ten_toDigits]

/-- A text shows one pair of counts only. -/
theorem text_injective (h : r.text = s.text) : r = s := by
  have hlist : Nat.toDigits 10 r.completed ++ '/' :: (Nat.toDigits 10 r.enqueued ++ [']'])
      = Nat.toDigits 10 s.completed ++ '/' :: (Nat.toDigits 10 s.enqueued ++ [']']) := by
    simpa [text, Progress.countsText] using congrArg String.toList h
  have hrest : '/' ∉ Nat.toDigits 10 r.enqueued ++ [']'] := by simp [slash_notMem_toDigits]
  obtain ⟨hcompleted, -, henqueued⟩ :=
    (List.append_cons_inj_of_notMem (slash_notMem_toDigits _) hrest).mp hlist
  cases r
  cases s
  congr
  · exact toDigits_injective hcompleted
  · exact toDigits_injective (List.append_cancel_right henqueued)

end Counts

namespace Progress

variable {p : Progress}

def counts (p : Progress) : Counts where
  completed := p.completedCount
  enqueued := p.enqueuedCount

theorem length_le_entered (ids : List ActionId) (id? : Option ActionId) :
    ids.length ≤ (entered ids id?).length := by
  cases id? with
  | none => exact Nat.le_refl _
  | some id => exact List.length_le_length_insert

theorem counts_le_hear (p : Progress) (m : Message) : p.counts ≤ (p.hear m).counts := by
  obtain ⟨-, henqueued, hcompleted⟩ := p.hear_frame m
  refine ⟨?_, ?_⟩
  · simp only [counts, completedCount, hcompleted]
    exact length_le_entered _ _
  · simp only [counts, enqueuedCount, henqueued]
    exact length_le_entered _ _

/-- While every completed action was enqueued, the completed ones are no more. -/
theorem completedCount_le_enqueuedCount (hnodup : p.activity.completed.Nodup)
    (hsub : p.activity.completed ⊆ p.enqueued) : p.completedCount ≤ p.enqueuedCount :=
  (List.subperm_of_subset hnodup hsub).length_le

end Progress

/-! ## Threads -/

/-- The command by which a message reaches progress number `i`. -/
def Message.command (i : Nat) : Message → Command
  | notify n => .notify n
  | complete action => .complete i action

/-- A worker with the messages it has left, or a reader with what it has left to do for the next text and the texts
it got so far. -/
inductive Ticker.Thread where
  | telling (left : List Message)
  /-- The call has begun, but nobody has noticed anything yet. -/
  | inside (m : Message) (left : List Message)
  /-- The progress has heard the message, but the call has not returned. -/
  | leaving (m : Message) (left : List Message)
  | reading (text : Program String) (texts : List String)

/-- When the call that delivers a message began and when it returned. -/
inductive Ticker.Mark where
  | began (m : Message)
  | returned (m : Message)

/-- A progress, the threads around it and the calls so far. -/
structure Ticker where
  world : World
  progress : Nat
  threads : List Ticker.Thread
  history : List Ticker.Mark := []

namespace Ticker

/-- Workers and readers before their first calls, around a new progress. -/
def start (w : World) (requested built : ArtifactSet) (workers : List (List Message)) (readers : Nat) : Ticker :=
  let (progress, world) := w.newProgress requested built
  { world, progress,
    threads := workers.map .telling ++ List.replicate readers (.reading (Program.progressText progress) []) }

def put (t : Ticker) (i : Nat) (thread : Thread) : Ticker :=
  { t with threads := t.threads.set i thread }

def mark (t : Ticker) (m : Mark) : Ticker :=
  { t with history := t.history ++ [m] }

/-- Let a thread take its next step. -/
def advance (t : Ticker) (i : Nat) : Ticker :=
  match t.threads[i]? with
  | none => t
  | some (.telling []) => t
  | some (.telling (m :: left)) => (t.put i (.inside m left)).mark (.began m)
  | some (.inside m left) =>
      { t.put i (.leaving m left) with
        world := (t.world.perform (some t.progress) (m.command t.progress)).2 }
  | some (.leaving m left) => (t.put i (.telling left)).mark (.returned m)
  | some (.reading (.done text) texts) => t.put i (.reading (Program.progressText t.progress) (texts ++ [text]))
  | some (.reading (.issue c next) texts) =>
      let answered := t.world.perform none c
      { t.put i (.reading (next answered.1) texts) with world := answered.2 }

/-- Let the threads take turns as a schedule says. Every prefix of an interleaving is such a run. -/
def run (t : Ticker) (schedule : List Nat) : Ticker :=
  schedule.foldl advance t

/-- No completion of an action that counts begins before some enqueueing of the same action has returned. -/
def Orderly (history : List Mark) : Prop :=
  ∀ past future m id, history = past ++ .began m :: future → m.completed? = some id →
    ∃ n, .returned n ∈ past ∧ n.enqueued? = some id

variable {t : Ticker} {history more : List Mark} {i : Nat} {p q : Progress}

theorem Orderly.of_append (h : Orderly (history ++ more)) : Orderly history :=
  fun past future m id hsplit => h past (future ++ more) m id (by simp [hsplit])

theorem orderly_nil : Orderly [] := by
  intro past future m id hsplit
  simp at hsplit

theorem Orderly.snoc (h : Orderly history) {mark : Mark}
    (hmark : ∀ m id, mark = .began m → m.completed? = some id → ∃ n, .returned n ∈ history ∧ n.enqueued? = some id) :
    Orderly (history ++ [mark]) := by
  intro past future m id hsplit hm
  obtain rfl | ⟨between, last, rfl⟩ := List.eq_nil_or_concat future
  · obtain ⟨rfl, hlast⟩ := List.append_inj' hsplit rfl
    exact hmark m id (List.singleton_inj.mp hlast) hm
  · have hbefore : history ++ [mark] = (past ++ .began m :: between) ++ [last] := by simp [hsplit]
    exact h past between m id (List.append_inj' hbefore rfl).1 hm

theorem history_advance (t : Ticker) (i : Nat) : ∃ more, (t.advance i).history = t.history ++ more := by
  unfold advance
  split
  case h_3 => exact ⟨_, rfl⟩
  case h_5 => exact ⟨_, rfl⟩
  all_goals exact ⟨[], by simp [put]⟩

/-! ## What stays true -/

/-- How far a reader is with its next text, between its earlier texts and what the progress has by now. -/
inductive Place (i : Nat) (p : Progress) (earlier : List Counts) : Program String → Prop where
  | outside (h : ∀ r ∈ earlier, r ≤ p.counts) : Place i p earlier (Program.progressText i)
  | halfway (completed : Nat) (h : ∀ r ∈ earlier, r ≤ ⟨completed, p.enqueuedCount⟩)
      (hcompleted : completed ≤ p.completedCount) (henqueued : completed ≤ p.enqueuedCount) :
      Place i p earlier (.issue (.readEnqueued i) fun enqueued => .done (Counts.text ⟨completed, enqueued⟩))
  | ready (r : Counts) (h : ∀ s ∈ earlier, s ≤ r) (hle : r.completed ≤ r.enqueued) (hnow : r ≤ p.counts) :
      Place i p earlier (.done r.text)

/-- A reader whose texts show counts that are in order and never fell. -/
def Reader (i : Nat) (p : Progress) (text : Program String) (texts : List String) : Prop :=
  ∃ earlier : List Counts, texts = earlier.map Counts.text ∧ (∀ r ∈ earlier, r.completed ≤ r.enqueued) ∧
    earlier.Pairwise (· ≤ ·) ∧ Place i p earlier text

def Thread.Sound (i : Nat) (history : List Mark) (p : Progress) : Thread → Prop
  | telling _ => True
  | inside m _ => .began m ∈ history
  | leaving m _ => ∀ id, m.enqueued? = some id → id ∈ p.enqueued
  | reading text texts => Reader i p text texts

/-- The progress knows the enqueueings that returned, and of no completion that did not begin. -/
structure Sound (t : Ticker) (p : Progress) : Prop where
  here : t.world.progresses[t.progress]? = some p
  nodup : p.activity.completed.Nodup
  returned : ∀ m id, .returned m ∈ t.history → m.enqueued? = some id → id ∈ p.enqueued
  began : ∀ id ∈ p.activity.completed, ∃ m, .began m ∈ t.history ∧ m.completed? = some id
  threads : ∀ thread ∈ t.threads, thread.Sound t.progress t.history p

theorem Place.mono {earlier : List Counts} {text : Program String} (h : Place i p earlier text)
    (hle : p.counts ≤ q.counts) : Place i q earlier text := by
  cases h with
  | outside h => exact .outside (fun r hr => Counts.le_trans (h r hr) hle)
  | halfway completed h hcompleted henqueued =>
      exact .halfway completed (fun r hr => Counts.le_trans (h r hr) ⟨Nat.le_refl _, hle.2⟩)
        (Nat.le_trans hcompleted hle.1) (Nat.le_trans henqueued hle.2)
  | ready r h hcounts hnow => exact .ready r h hcounts (Counts.le_trans hnow hle)

theorem Thread.Sound.mono {thread : Thread} (h : thread.Sound i history p) (hhistory : history ⊆ more)
    (henqueued : p.enqueued ⊆ q.enqueued) (hle : p.counts ≤ q.counts) : thread.Sound i more q := by
  cases thread with
  | telling => trivial
  | inside => exact hhistory h
  | leaving => exact fun id hid => henqueued (h id hid)
  | reading =>
      obtain ⟨earlier, htexts, hcounts, hgrow, hplace⟩ := h
      exact ⟨earlier, htexts, hcounts, hgrow, hplace.mono hle⟩

/-- With its text complete, a reader has one more text and begins anew. -/
theorem Reader.answered {text : String} {texts : List String} (h : Reader i p (.done text) texts) :
    Reader i p (Program.progressText i) (texts ++ [text]) := by
  obtain ⟨earlier, rfl, hcounts, hgrow, hplace⟩ := h
  cases hplace with
  | ready r hearlier hle hnow =>
      refine ⟨earlier ++ [r], by simp, ?_, ?_, .outside ?_⟩
      · exact List.forall_mem_append.mpr ⟨hcounts, List.forall_mem_singleton.mpr hle⟩
      · exact List.pairwise_append.mpr ⟨hgrow, List.pairwise_singleton _ _, fun s hs =>
          List.forall_mem_singleton.mpr (hearlier s hs)⟩
      · exact List.forall_mem_append.mpr ⟨fun s hs => Counts.le_trans (hearlier s hs) hnow,
          List.forall_mem_singleton.mpr hnow⟩

theorem forall_set {P : Thread → Prop} {threads : List Thread} {thread : Thread} (h : ∀ u ∈ threads, P u)
    (hnew : P thread) : ∀ u ∈ threads.set i thread, P u := by
  intro u hu
  obtain hu | rfl := List.mem_or_eq_of_mem_set hu
  · exact h u hu
  · exact hnew

namespace Sound

/-- In an orderly history every completed action was enqueued. -/
theorem completed_le (h : t.Sound p) (horderly : Orderly t.history) : p.completedCount ≤ p.enqueuedCount := by
  refine Progress.completedCount_le_enqueuedCount h.nodup (fun id hid => ?_)
  obtain ⟨m, hm, hcompleted⟩ := h.began id hid
  obtain ⟨past, future, hsplit⟩ := List.append_of_mem hm
  obtain ⟨n, hn, henqueued⟩ := horderly past future m id hsplit hcompleted
  exact h.returned n id (by simp [hsplit, hn]) henqueued

theorem begin (h : t.Sound p) {m : Message} {left : List Message} :
    ((t.put i (.inside m left)).mark (.began m)).Sound p where
  here := h.here
  nodup := h.nodup
  returned n id hn := h.returned n id (by simpa [mark, put] using hn)
  began id hid := by
    obtain ⟨n, hn, hcompleted⟩ := h.began id hid
    exact ⟨n, List.mem_append_left _ hn, hcompleted⟩
  threads := forall_set
    (fun u hu => (h.threads u hu).mono (List.subset_append_left _ _) (List.Subset.refl _) (Counts.le_refl _))
    (List.mem_append_right _ (List.mem_singleton.mpr rfl))

theorem deliver (h : t.Sound p) {m : Message} {left : List Message} (hm : t.threads[i]? = some (.inside m left)) :
    Sound { t.put i (.leaving m left) with
      world := (t.world.perform (some t.progress) (m.command t.progress)).2 } (p.hear m) := by
  obtain ⟨-, henqueued, hcompleted⟩ := p.hear_frame m
  have hwithin := p.within_hearAll [m]
  have hbegan : .began m ∈ t.history := h.threads _ (List.mem_of_getElem? hm)
  refine ⟨?_, ?_, fun n id hn hid => hwithin.enqueued (h.returned n id hn hid), fun id hid => ?_,
    forall_set (fun u hu => (h.threads u hu).mono (List.Subset.refl _) hwithin.enqueued (p.counts_le_hear m)) ?_⟩
  · have hprogresses : (t.world.perform (some t.progress) (m.command t.progress)).2.progresses
        = t.world.progresses.modify t.progress (·.hear m) := by
      cases m with
      | notify | complete => rfl
    simp [hprogresses, put, h.here]
  · rw [hcompleted]
    exact nodup_foldl_entered h.nodup [m.completed?]
  · rw [hcompleted] at hid
    obtain hid | hid := mem_entered.mp hid
    · exact h.began id hid
    · exact ⟨m, hbegan, hid⟩
  · intro id hid
    rw [henqueued]
    exact mem_entered.mpr (.inr hid)

theorem finish (h : t.Sound p) {m : Message} {left : List Message} (hm : t.threads[i]? = some (.leaving m left)) :
    ((t.put i (.telling left)).mark (.returned m)).Sound p where
  here := h.here
  nodup := h.nodup
  returned n id hn hid := by
    obtain hn | hn := List.mem_append.mp hn
    · exact h.returned n id hn hid
    · cases List.mem_singleton.mp hn
      exact h.threads _ (List.mem_of_getElem? hm) id hid
  began id hid := by
    obtain ⟨n, hn, hcompleted⟩ := h.began id hid
    exact ⟨n, List.mem_append_left _ hn, hcompleted⟩
  threads := forall_set
    (fun u hu => (h.threads u hu).mono (List.subset_append_left _ _) (List.Subset.refl _) (Counts.le_refl _)) trivial

theorem read (h : t.Sound p) {w : World} (hw : w.progresses = t.world.progresses)
    {text : Program String} {texts : List String} (hreader : Reader t.progress p text texts) :
    Sound { t.put i (.reading text texts) with world := w } p where
  here := by simpa [put, hw] using h.here
  nodup := h.nodup
  returned := h.returned
  began := h.began
  threads := forall_set h.threads hreader

/-- A reader only reads. By the time it counts the completed actions, all of them are enqueued, and it counts the
enqueued ones no earlier. -/
theorem replied (h : t.Sound p) (horderly : Orderly t.history) {c : Command} {next : c.Reply → Program String}
    {texts : List String} (hreader : Reader t.progress p (.issue c next) texts) :
    (t.world.perform none c).2.progresses = t.world.progresses ∧
      Reader t.progress p (next (t.world.perform none c).1) texts := by
  obtain ⟨earlier, htexts, hcounts, hgrow, hplace⟩ := hreader
  cases hplace with
  | outside hearlier =>
      have hreply : (t.world.perform none (.readCompleted t.progress)).1 = p.completedCount := by
        simp [World.perform, World.execute, World.readProgress, h.here]
      refine ⟨rfl, earlier, htexts, hcounts, hgrow, ?_⟩
      rw [hreply]
      exact .halfway p.completedCount hearlier (Nat.le_refl _) (h.completed_le horderly)
  | halfway completed hearlier hcompleted henqueued =>
      have hreply : (t.world.perform none (.readEnqueued t.progress)).1 = p.enqueuedCount := by
        simp [World.perform, World.execute, World.readProgress, h.here]
      refine ⟨rfl, earlier, htexts, hcounts, hgrow, ?_⟩
      rw [hreply]
      exact .ready ⟨completed, p.enqueuedCount⟩ hearlier henqueued ⟨hcompleted, Nat.le_refl _⟩

/-- One step of any thread. -/
theorem advance (h : t.Sound p) (horderly : Orderly t.history) (i : Nat) : ∃ q, (t.advance i).Sound q := by
  unfold Ticker.advance
  split
  case h_1 | h_2 => exact ⟨p, h⟩
  case h_3 => exact ⟨p, h.begin⟩
  case h_4 m left hm => exact ⟨p.hear m, h.deliver hm⟩
  case h_5 m left hm => exact ⟨p, h.finish hm⟩
  case h_6 text texts hthread =>
    have hreader : Reader t.progress p (.done text) texts := h.threads _ (List.mem_of_getElem? hthread)
    exact ⟨p, h.read (w := t.world) rfl hreader.answered⟩
  case h_7 c next texts hthread =>
    obtain ⟨hworld, hreader⟩ := h.replied horderly (h.threads _ (List.mem_of_getElem? hthread))
    exact ⟨p, h.read hworld hreader⟩

theorem run (h : t.Sound p) (schedule : List Nat) (horderly : Orderly (t.run schedule).history) :
    ∃ q, (t.run schedule).Sound q := by
  -- What comes before the last step has an orderly history too, what comes after the first need not.
  induction schedule using List.reverseRecOn with
  | nil => exact ⟨p, h⟩
  | append_singleton schedule i ih =>
      have hrun : t.run (schedule ++ [i]) = (t.run schedule).advance i := by simp [Ticker.run]
      rw [hrun] at horderly ⊢
      obtain ⟨more, hmore⟩ := history_advance (t.run schedule) i
      have hbefore : Orderly (t.run schedule).history := (hmore ▸ horderly).of_append
      obtain ⟨q, hq⟩ := ih hbefore
      exact hq.advance hbefore i

end Sound

theorem sound_start (w : World) (requested built : ArtifactSet) (workers : List (List Message)) (readers : Nat) :
    (start w requested built workers readers).Sound { requested, built } where
  here := by simp [start, World.newProgress]
  nodup := .nil
  returned := by simp [start]
  began := by simp
  threads thread hthread := by
    obtain hthread | hthread := List.mem_append.mp hthread
    · obtain ⟨left, -, rfl⟩ := List.mem_map.mp hthread
      trivial
    · obtain rfl := List.eq_of_mem_replicate hthread
      exact ⟨[], rfl, by simp, .nil, .outside (by simp)⟩

/-! ## Texts -/

/-- However many workers and readers take turns, whatever the workers tell: if each completion that counts begins
after an enqueueing of the same action has returned, the texts that a reader got show no more completed than enqueued
actions, and neither number ever falls. -/
theorem texts_in_order (w : World) (requested built : ArtifactSet) (workers : List (List Message)) (readers : Nat)
    (schedule : List Nat) (horderly : Orderly ((start w requested built workers readers).run schedule).history)
    (text : Program String) (texts : List String)
    (hreader : .reading text texts ∈ ((start w requested built workers readers).run schedule).threads) :
    (∀ shown ∈ texts, ∃ r : Counts, shown = r.text) ∧
    (∀ r : Counts, r.text ∈ texts → r.completed ≤ r.enqueued) ∧
    (∀ (j k : Nat) (r s : Counts), j ≤ k → texts[j]? = some r.text → texts[k]? = some s.text → r ≤ s) := by
  obtain ⟨q, hq⟩ := (sound_start w requested built workers readers).run schedule horderly
  obtain ⟨counts, rfl, hcounts, hgrow, -⟩ := hq.threads _ hreader
  -- The texts are in order as their counts are, because a text shows one pair of counts only.
  have hat : ∀ (j : Nat) (r : Counts), (counts.map Counts.text)[j]? = some r.text → counts[j]? = some r := by
    intro j r hj
    rw [List.getElem?_map] at hj
    obtain ⟨s, hs, hshown⟩ := Option.map_eq_some_iff.mp hj
    exact Counts.text_injective hshown ▸ hs
  refine ⟨fun shown hshown => ?_, fun r hr => ?_, fun j k r s hjk hj hk => ?_⟩
  · obtain ⟨r, -, rfl⟩ := List.mem_map.mp hshown
    exact ⟨r, rfl⟩
  · obtain ⟨j, hj⟩ := List.getElem?_of_mem hr
    exact hcounts r (List.mem_of_getElem? (hat j r hj))
  · obtain rfl | hlt := Nat.eq_or_lt_of_le hjk
    · rw [Option.some.inj ((hat j r hj).symm.trans (hat j s hk))]
      exact Counts.le_refl s
    · obtain ⟨hj', hr⟩ := List.getElem?_eq_some_iff.mp (hat j r hj)
      obtain ⟨hk', hs⟩ := List.getElem?_eq_some_iff.mp (hat k s hk)
      exact hr ▸ hs ▸ List.pairwise_iff_getElem.mp hgrow j k hj' hk' hlt

private def compileAction : Action := ⟨⟨"a"⟩, "Compile", .normal, []⟩
private def middleman : Action := ⟨⟨"m"⟩, "Middleman", .middleman, []⟩

/-- A worker that completes an action which does not count and one that does, beside a reader that is interrupted
between its two counts. -/
def interrupted : Ticker :=
  (start {} .empty .empty
    [[.complete middleman, .notify (.enqueueing (.action compileAction)), .complete compileAction]] 1).run
    [1, 0, 0, 0, 0, 0, 0, 0, 0, 0, 1, 1, 1, 1, 1]

theorem texts_in_order_interrupted : Orderly interrupted.history ∧
    interrupted.threads[1]? = some (.reading (Program.progressText 0) ["[0/1]", "[1/1]"]) ∧
    ∀ r : Counts, r.text ∈ ["[0/1]", "[1/1]"] → r.completed ≤ r.enqueued := by
  have horderly : Orderly interrupted.history := by
    refine (((((orderly_nil.snoc ?_).snoc ?_).snoc ?_).snoc ?_).snoc ?_).snoc ?_ <;>
      intro m id hmark hm <;> cases hmark <;> cases hm
    exact ⟨.notify (.enqueueing (.action compileAction)), by simp, rfl⟩
  have hreader : interrupted.threads[1]? = some (.reading (Program.progressText 0) ["[0/1]", "[1/1]"]) := rfl
  exact ⟨horderly, hreader, (texts_in_order {} .empty .empty _ 1 _ horderly _ _ (List.mem_of_getElem? hreader)).2.1⟩

end Ticker

end BuildRound
