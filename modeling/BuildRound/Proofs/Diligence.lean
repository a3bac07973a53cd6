import BuildRound.Watchdog.Shift
import BuildRound.Watchdog.Rehearsal

/-!
# What a watchdog asks and reports

The diary of a watchdog's thread is read from its beginning: after each entry it is known where the thread stands, and
so what can come next. From this follows what comes before and after each thing in the diary, for all surroundings and
whenever the flag is raised.
-/

namespace BuildRound

namespace Shift

variable {ε : Type}

/-! ## Reading a diary -/

/-- Where a thread stands, as far as its diary tells. -/
inductive Stance where
  /-- About to look at the flag; `warned` if the last look found it up. -/
  | head (warned : Bool)
  | ask
  | enter (started : Bool)
  | asleep (started : Bool)
  | judge
  | report (begun : Bool)
  | note (reported : Bool)
  | ended (panicked : Bool)
  deriving DecidableEq, Repr

namespace Stance

def loop : Stance → Loop
  | head _ => .head
  | ask => .ask
  | enter started => .enter started
  | asleep started => .asleep started
  | judge => .judge
  | report _ => .report
  | note reported => .note reported
  | ended panicked => .ended panicked

/-- Writing an entry, a thread whose waits last so long comes from one stance to another. -/
inductive Writes (timeout : Nanos) : Stance → Entry → Stance → Prop
  | passed : Writes timeout (head false) (.looked false) ask
  | stopped {warned} : Writes timeout (head warned) (.looked true) (ended false)
  | asked {started} : Writes timeout ask (.asked started) (enter started)
  | waits {started} : Writes timeout (enter started) (.waits timeout) (asleep started)
  | interrupted {started i} : Writes timeout (asleep started) (.woke (.error i)) (ended false)
  | completed {started n} : Writes timeout (asleep started) (.woke (.ok (n + 1))) (head false)
  | early : Writes timeout (asleep false) (.woke (.ok 0)) (head false)
  | idle : Writes timeout (asleep true) (.woke (.ok 0)) judge
  | spared : Writes timeout judge (.looked true) (head true)
  | due : Writes timeout judge (.looked false) (report false)
  | reports : Writes timeout (report false) .reports (report true)
  | panicked : Writes timeout (report true) (.reported none) (ended true)
  | answered {reported} : Writes timeout (report true) (.reported (some reported)) (note reported)
  | counted {reported} : Writes timeout (note reported) .counted (head false)

inductive Goes (timeout : Nanos) : Stance → List Entry → Stance → Prop
  | nil {q} : Goes timeout q [] q
  | cons {q e p l q'} : Writes timeout q e p → Goes timeout p l q' → Goes timeout q (e :: l) q'

variable {t : Nanos} {q q' p : Stance} {e : Entry} {l m : List Entry}

theorem Writes.goes (h : Writes t q e q') : Goes t q [e] q' :=
  .cons h .nil

theorem Goes.append (hl : Goes t q l p) (hm : Goes t p m q') : Goes t q (l ++ m) q' := by
  induction hl with
  | nil => exact hm
  | cons he _ ih => exact .cons he (ih hm)

/-- Before an entry, with it, and after it. -/
theorem Goes.split (h : Goes t q (l ++ e :: m) q') :
    ∃ p p', Goes t q l p ∧ Writes t p e p' ∧ Goes t p' m q' := by
  induction l generalizing q with
  | nil =>
      cases h with
      | cons he hm => exact ⟨q, _, .nil, he, hm⟩
  | cons _ l ih =>
      cases h with
      | cons hfirst h =>
          obtain ⟨p, p', hl, he, hm⟩ := ih h
          exact ⟨p, p', .cons hfirst hl, he, hm⟩

/-- Nothing is written at the end. -/
theorem Goes.of_ended {panicked : Bool} (h : Goes t (ended panicked) l q) : l = [] ∧ q = ended panicked := by
  cases h with
  | nil => exact ⟨rfl, rfl⟩
  | cons he => cases he

/-- After a wait a thread stands where its loop does. -/
theorem writes_woke (started : Bool) (answer : Except Interrupted Nat) :
    ∃ q, Writes t (asleep started) (.woke answer) q ∧ q.loop = .afterWait started (some answer) ∧ q ≠ head true := by
  match started, answer with
  | _, .error _ => exact ⟨_, .interrupted, rfl, nofun⟩
  | _, .ok (n + 1) => exact ⟨_, .completed, rfl, nofun⟩
  | false, .ok 0 => exact ⟨_, .early, rfl, nofun⟩
  | true, .ok 0 => exact ⟨_, .idle, rfl, nofun⟩

/-! ### What comes before -/

theorem Goes.last_cases (h : Goes t q l q') :
    l = [] ∧ q = q' ∨ ∃ m p e, l = m ++ [e] ∧ Goes t q m p ∧ Writes t p e q' := by
  induction h with
  | nil => exact .inl ⟨rfl, rfl⟩
  | @cons q e p l q' he _ ih =>
      rcases ih with ⟨rfl, rfl⟩ | ⟨m, p, e', rfl, hm, he'⟩
      · exact .inr ⟨[], q, e, rfl, .nil, he⟩
      · exact .inr ⟨e :: m, p, e', rfl, .cons he hm, he'⟩

/-- Only a fresh thread has written nothing. -/
theorem Goes.exists_last (h : Goes t (head false) l q) (hq : q ≠ head false) :
    ∃ m p e, l = m ++ [e] ∧ Goes t (head false) m p ∧ Writes t p e q := by
  rcases h.last_cases with ⟨-, rfl⟩ | hlast
  · exact absurd rfl hq
  · exact hlast

theorem Goes.ends_ask (h : Goes t (head false) l ask) : ∃ m, l = m ++ [.looked false] := by
  obtain ⟨m, p, e, rfl, -, he⟩ := h.exists_last nofun
  cases he with
  | passed => exact ⟨m, rfl⟩

theorem Goes.ends_enter {started : Bool} (h : Goes t (head false) l (enter started)) :
    ∃ m, l = m ++ [.looked false, .asked started] := by
  obtain ⟨m, p, e, rfl, hm, he⟩ := h.exists_last nofun
  cases he with
  | asked =>
      obtain ⟨m, rfl⟩ := hm.ends_ask
      exact ⟨m, by simp⟩

theorem Goes.ends_asleep {started : Bool} (h : Goes t (head false) l (asleep started)) :
    ∃ m, l = m ++ [.looked false, .asked started, .waits t] := by
  obtain ⟨m, p, e, rfl, hm, he⟩ := h.exists_last nofun
  cases he with
  | waits =>
      obtain ⟨m, rfl⟩ := hm.ends_enter
      exact ⟨m, by simp⟩

theorem Goes.ends_judge (h : Goes t (head false) l judge) :
    ∃ m, l = m ++ [.looked false, .asked true, .waits t, .woke (.ok 0)] := by
  obtain ⟨m, p, e, rfl, hm, he⟩ := h.exists_last nofun
  cases he with
  | idle =>
      obtain ⟨m, rfl⟩ := hm.ends_asleep
      exact ⟨m, by simp⟩

theorem Goes.ends_report (h : Goes t (head false) l (report false)) :
    ∃ m, l = m ++ [.looked false, .asked true, .waits t, .woke (.ok 0), .looked false] := by
  obtain ⟨m, p, e, rfl, hm, he⟩ := h.exists_last nofun
  cases he with
  | due =>
      obtain ⟨m, rfl⟩ := hm.ends_judge
      exact ⟨m, by simp⟩

/-- Whether a report is in progress shows in the last entry. -/
theorem Goes.reporting (h : Goes t (head false) l q) : l.getLast?.any Entry.isReports = true ↔ q = report true := by
  rcases h.last_cases with ⟨rfl, rfl⟩ | ⟨m, p, e, rfl, -, he⟩
  · simp
  · cases he <;> simp [Entry.isReports]

/-! ### What comes after -/

end Stance

/-- From the head of the loop: a look at the flag, then the end if it is up, and otherwise a question. A thread that
pauses stands where it is after what it has written. -/
inductive Turn : Option Loop → List Entry → Prop
  | pause : Turn (some .head) []
  | stop : Turn (some (.ended false)) [.looked true]
  | look : Turn (some .ask) [.looked false]
  | ask {thread started post} : Turn thread (.looked false :: .asked started :: post)

/-- After a wait in vain: another look at the flag, then a report unless it is up. -/
inductive Verdict : Option Loop → List Entry → Prop
  | pause : Verdict (some .judge) []
  | spare : Verdict (some .head) [.looked true]
  | stop : Verdict (some (.ended false)) [.looked true, .looked true]
  | look : Verdict (some .report) [.looked false]
  | report {thread post} : Verdict thread (.looked false :: .reports :: post)

/-- Next comes such an entry, unless the thread pauses there. -/
def Next (thread : Option Loop) (there : Loop) (p : Entry → Prop) : List Entry → Prop
  | [] => thread = some there
  | e :: _ => p e

namespace Stance

theorem Goes.turn (h : Goes t (head false) l q) : Turn (some q.loop) l := by
  cases h with
  | nil => exact .pause
  | cons he h =>
      cases he with
      | stopped =>
          obtain ⟨rfl, rfl⟩ := h.of_ended
          exact .stop
      | passed =>
          cases h with
          | nil => exact .look
          | cons he => cases he with | asked => exact .ask

theorem Goes.verdict (h : Goes t judge l q) : Verdict (some q.loop) l := by
  cases h with
  | nil => exact .pause
  | cons he h =>
      cases he with
      | spared =>
          cases h with
          | nil => exact .spare
          | cons he h =>
              cases he with
              | stopped =>
                  obtain ⟨rfl, rfl⟩ := h.of_ended
                  exact .stop
      | due =>
          cases h with
          | nil => exact .look
          | cons he => cases he with | reports => exact .report

theorem Goes.next_enter {started : Bool} (h : Goes t (enter started) l q) :
    Next (some q.loop) (.enter started) (· = .waits t) l := by
  cases h with
  | nil => rfl
  | cons he => cases he with | waits => rfl

theorem Goes.next_asleep {started : Bool} (h : Goes t (asleep started) l q) :
    Next (some q.loop) (.asleep started) (fun e => ∃ answer, e = .woke answer) l := by
  cases h with
  | nil => rfl
  | cons he => cases he <;> exact ⟨_, rfl⟩

theorem Goes.next_report (h : Goes t (report true) l q) :
    Next (some q.loop) .report (fun e => ∃ reply, e = .reported reply) l := by
  cases h with
  | nil => rfl
  | cons he => cases he <;> exact ⟨_, rfl⟩

theorem Goes.next_note {reported : Bool} (h : Goes t (note reported) l q) :
    Next (some q.loop) (.note reported) (· = .counted) l := by
  cases h with
  | nil => rfl
  | cons he => cases he with | counted => rfl

/-- A whole wait after a question. -/
theorem Goes.of_waited {started : Bool} {timeout : Nanos} {answer : Except Interrupted Nat}
    (h : Goes t (enter started) (.waits timeout :: .woke answer :: l) q) :
    ∃ p, Writes t (asleep started) (.woke answer) p ∧ Goes t p l q := by
  cases h with
  | cons hwaits h =>
      cases hwaits with
      | waits => cases h with | cons hwoke h => exact ⟨_, hwoke, h⟩

/-! ### Around an entry -/

theorem Goes.around_asked {started : Bool} (h : Goes t (head false) (l ++ .asked started :: m) q) :
    (∃ k, l = k ++ [.looked false]) ∧ Next (some q.loop) (.enter started) (· = .waits t) m := by
  obtain ⟨p, p', hl, he, hm⟩ := h.split
  cases he with
  | asked => exact ⟨hl.ends_ask, hm.next_enter⟩

theorem Goes.around_waits {timeout : Nanos} (h : Goes t (head false) (l ++ .waits timeout :: m) q) :
    timeout = t ∧ ∃ k started, l = k ++ [.looked false, .asked started] ∧
      Next (some q.loop) (.asleep started) (fun e => ∃ answer, e = .woke answer) m := by
  obtain ⟨p, p', hl, he, hm⟩ := h.split
  cases he with
  | @waits started =>
      obtain ⟨k, rfl⟩ := hl.ends_enter
      exact ⟨rfl, k, started, rfl, hm.next_asleep⟩

theorem Goes.after_interrupted {i : Interrupted} (h : Goes t q' (l ++ .woke (.error i) :: m) q) :
    m = [] ∧ q = ended false := by
  obtain ⟨p, p', -, he, hm⟩ := h.split
  cases he with
  | interrupted => exact hm.of_ended

theorem Goes.after_completed {n : Nat} (h : Goes t q' (l ++ .woke (.ok (n + 1)) :: m) q) : Turn (some q.loop) m := by
  obtain ⟨p, p', -, he, hm⟩ := h.split
  cases he with
  | completed => exact hm.turn

theorem Goes.after_early {timeout : Nanos} {n : Nat}
    (h : Goes t q' (l ++ .asked false :: .waits timeout :: .woke (.ok n) :: m) q) : Turn (some q.loop) m := by
  obtain ⟨p, p', -, he, hrest⟩ := h.split
  cases he with
  | asked =>
      obtain ⟨r, hwoke, hm⟩ := hrest.of_waited
      cases hwoke <;> exact hm.turn

theorem Goes.after_idle {timeout : Nanos}
    (h : Goes t q' (l ++ .asked true :: .waits timeout :: .woke (.ok 0) :: m) q) : Verdict (some q.loop) m := by
  obtain ⟨p, p', -, he, hrest⟩ := h.split
  cases he with
  | asked =>
      obtain ⟨r, hwoke, hm⟩ := hrest.of_waited
      cases hwoke with
      | idle => exact hm.verdict

theorem Goes.around_reports (h : Goes t (head false) (l ++ .reports :: m) q) :
    (∃ k, l = k ++ [.looked false, .asked true, .waits t, .woke (.ok 0), .looked false]) ∧
      Next (some q.loop) .report (fun e => ∃ reply, e = .reported reply) m := by
  obtain ⟨p, p', hl, he, hm⟩ := h.split
  cases he with
  | reports => exact ⟨hl.ends_report, hm.next_report⟩

theorem Goes.after_panicked (h : Goes t q' (l ++ .reported none :: m) q) : m = [] ∧ q = ended true := by
  obtain ⟨p, p', -, he, hm⟩ := h.split
  cases he with
  | panicked => exact hm.of_ended

theorem Goes.after_answered {reported : Bool} (h : Goes t q' (l ++ .reported (some reported) :: m) q) :
    Next (some q.loop) (.note reported) (· = .counted) m := by
  obtain ⟨p, p', -, he, hm⟩ := h.split
  cases he with
  | answered => exact hm.next_note

theorem Goes.after_counted (h : Goes t q' (l ++ .counted :: m) q) : Turn (some q.loop) m := by
  obtain ⟨p, p', -, he, hm⟩ := h.split
  cases he with
  | counted => exact hm.turn

theorem Goes.after_warning (h : Goes t q' (l ++ .looked true :: m) q) :
    m = [] ∨ m = [.looked true] ∧ q = ended false := by
  obtain ⟨p, p', -, he, hm⟩ := h.split
  cases he with
  | stopped => exact .inl hm.of_ended.1
  | spared =>
      -- A warned thread does not pass the second look.
      cases hm with
      | nil => exact .inl rfl
      | cons he hm =>
          cases he with
          | stopped =>
              obtain ⟨rfl, hq⟩ := hm.of_ended
              exact .inr ⟨rfl, hq⟩

end Stance

/-! ## What holds of every diary -/

/-- The flag is seen as it is. -/
def Truthful (diary : List Entry) : Prop :=
  ∀ pre post stop, diary = pre ++ .looked stop :: post → (stop = true ↔ .raised ∈ pre)

/-- What the diary tells of a thread that was started with this interval. -/
structure Diligent (s : Surroundings ε) (interval : Nanos) (d : Shift ε) : Prop where
  looked : Truthful d.diary
  first : Turn d.dog.thread d.own
  asked : ∀ pre post started, d.own = pre ++ .asked started :: post →
    (∃ before, pre = before ++ [.looked false]) ∧
    Next d.dog.thread (.enter started) (· = .waits (max interval Watchdog.minInterval)) post
  waits : ∀ pre post timeout, d.own = pre ++ .waits timeout :: post →
    timeout = max interval Watchdog.minInterval ∧
    ∃ before started, pre = before ++ [.looked false, .asked started] ∧
      Next d.dog.thread (.asleep started) (fun e => ∃ answer, e = .woke answer) post
  /-- An interruption ends the thread. -/
  interrupted : ∀ pre post i, d.own = pre ++ .woke (.error i) :: post →
    post = [] ∧ d.dog.thread = some (.ended false)
  /-- There is no report after a completion. -/
  completed : ∀ pre post n, d.own = pre ++ .woke (.ok (n + 1)) :: post → Turn d.dog.thread post
  /-- There is no report of a wait before which no work had begun. -/
  early : ∀ pre post timeout n, d.own = pre ++ .asked false :: .waits timeout :: .woke (.ok n) :: post →
    Turn d.dog.thread post
  /-- A wait in vain is reported unless the flag is up. -/
  idle : ∀ pre post timeout, d.own = pre ++ .asked true :: .waits timeout :: .woke (.ok 0) :: post →
    Verdict d.dog.thread post
  reports : ∀ pre post, d.own = pre ++ .reports :: post →
    (∃ before, pre = before ++ [.looked false, .asked true, .waits (max interval Watchdog.minInterval), .woke (.ok 0),
      .looked false]) ∧
    Next d.dog.thread .report (fun e => ∃ reply, e = .reported reply) post
  /-- A panic ends the thread. -/
  panicked : ∀ pre post, d.own = pre ++ .reported none :: post → post = [] ∧ d.dog.thread = some (.ended true)
  answered : ∀ pre post reported, d.own = pre ++ .reported (some reported) :: post →
    Next d.dog.thread (.note reported) (· = .counted) post
  counted : ∀ pre post, d.own = pre ++ .counted :: post → Turn d.dog.thread post
  /-- Nothing is done once the flag was seen up, other than another look after a wait in vain. -/
  stopped : ∀ pre post, d.own = pre ++ .looked true :: post →
    post = [] ∨ post = [.looked true] ∧ d.dog.thread = some (.ended false)
  /-- A thread goes on, unless it is at its end or has to wait for its surroundings. -/
  proceeds : d.dog.thread.any Loop.isEnded = true ∨ d.entries s ≠ [] ∨
    (∃ started, d.dog.thread = some (.asleep started) ∧ (s.wake d.around).1 = none) ∨
    d.dog.thread = some .report ∧ d.reporting = true ∧ (s.report d.around).1 = .busy

/-- The flag is up once it was raised, and where the thread stands shows in what it wrote. -/
structure Kept (interval : Nanos) (d : Shift ε) : Prop where
  waits : d.dog.interval = max interval Watchdog.minInterval
  flag : d.dog.stopping = true ↔ .raised ∈ d.diary
  looked : Truthful d.diary
  stance : ∃ q, Stance.Goes (max interval Watchdog.minInterval) (.head false) d.own q ∧
    d.dog.thread = some q.loop ∧ (q = .head true → d.dog.stopping = true)

variable {s : Surroundings ε} {interval : Nanos} {d : Shift ε}

/-- Looks are noted one at a time. -/
theorem Truthful.append {diary new : List Entry} (h : Truthful diary)
    (hnew : ∀ stop, .looked stop ∈ new → new = [.looked stop] ∧ (stop = true ↔ .raised ∈ diary)) :
    Truthful (diary ++ new) := by
  intro pre post stop hsplit
  rcases List.append_eq_append_iff.mp hsplit with ⟨before, rfl, hlater⟩ | ⟨after, hdiary, hlater⟩
  · obtain ⟨hone, hlook⟩ := hnew stop (by simp [hlater])
    rcases List.append_eq_singleton_iff.mp (hlater.symm.trans hone) with ⟨rfl, -⟩ | ⟨-, hpost⟩
    · rwa [List.append_nil]
    · cases hpost
  · cases after with
    | nil =>
        rw [List.append_nil] at hdiary
        obtain rfl : _ = new := hlater
        exact hdiary ▸ (hnew stop List.mem_cons_self).2
    | cons e after =>
        obtain ⟨rfl, -⟩ := List.cons.inj hlater
        exact h pre after stop hdiary

theorem isRaised_of_mem_entries {e : Entry} (h : e ∈ d.entries s) : e.isRaised = false := by
  unfold entries at h
  split at h <;> grind [Entry.isRaised]

theorem entries_of_looked {stop : Bool} (h : .looked stop ∈ d.entries s) :
    d.entries s = [.looked stop] ∧ stop = d.dog.stopping := by
  unfold entries at h ⊢
  split at h <;> grind

theorem thread_attend {loop : Loop} (h : d.dog.thread = some loop) :
    (d.attend s).dog.thread = some (Watchdog.advance s d.dog.interval d.dog.stopping loop d.around).1 := by
  simp [attend, Watchdog.step, h]

@[simp]
theorem stopping_attend : (d.attend s).dog.stopping = d.dog.stopping := by
  simp only [attend, Watchdog.step]
  cases d.dog.thread <;> rfl

@[simp]
theorem interval_attend : (d.attend s).dog.interval = d.dog.interval := by
  simp only [attend, Watchdog.step]
  cases d.dog.thread <;> rfl

theorem own_attend : (d.attend s).own = d.own ++ d.entries s := by
  have hentries : (d.entries s).filter (!·.isRaised) = d.entries s :=
    List.filter_eq_self.mpr fun e he => by rw [isRaised_of_mem_entries he]; rfl
  rw [own, attend, List.filter_append, hentries, own]

theorem own_raise : d.raise.own = d.own := by
  simp [own, raise, Entry.isRaised]

/-- What a thread writes in a step takes it to where the step does. -/
theorem attend_goes {q : Stance} (hown : Stance.Goes d.dog.interval (.head false) d.own q)
    (hthread : d.dog.thread = some q.loop) (hwarned : q = .head true → d.dog.stopping = true) :
    ∃ q', Stance.Goes d.dog.interval q (d.entries s) q' ∧ (d.attend s).dog.thread = some q'.loop ∧
      (q' = .head true → d.dog.stopping = true) := by
  rw [thread_attend hthread]
  cases q with
  | head warned =>
      simp only [entries, hthread, Stance.loop, Watchdog.advance]
      cases hstopping : d.dog.stopping with
      | true => exact ⟨_, Stance.Writes.stopped.goes, rfl, nofun⟩
      | false =>
          cases warned with
          | true => exact absurd (hwarned rfl) (by simp [hstopping])
          | false => exact ⟨_, Stance.Writes.passed.goes, rfl, nofun⟩
  | ask =>
      simp only [entries, hthread, Stance.loop, Watchdog.advance]
      exact ⟨_, Stance.Writes.asked.goes, rfl, nofun⟩
  | enter started =>
      simp only [entries, hthread, Stance.loop, Watchdog.advance]
      cases (s.enter d.dog.interval d.around).1 with
      | none => exact ⟨_, Stance.Writes.waits.goes, rfl, nofun⟩
      | some answer =>
          obtain ⟨q, hq, hloop, hhead⟩ := Stance.writes_woke (t := d.dog.interval) started answer
          exact ⟨q, .cons .waits hq.goes, congrArg some hloop.symm, fun h => absurd h hhead⟩
  | asleep started =>
      simp only [entries, hthread, Stance.loop, Watchdog.advance]
      cases (s.wake d.around).1 with
      | none => exact ⟨_, .nil, rfl, nofun⟩
      | some answer =>
          obtain ⟨q, hq, hloop, hhead⟩ := Stance.writes_woke (t := d.dog.interval) started answer
          exact ⟨q, hq.goes, congrArg some hloop.symm, fun h => absurd h hhead⟩
  | judge =>
      simp only [entries, hthread, Stance.loop, Watchdog.advance]
      cases d.dog.stopping with
      | true => exact ⟨_, Stance.Writes.spared.goes, rfl, fun _ => rfl⟩
      | false => exact ⟨_, Stance.Writes.due.goes, rfl, nofun⟩
  | report begun =>
      -- The report begins with this step, or has begun before it.
      have hbegins : Stance.Goes d.dog.interval (.report begun) (if d.reporting then [] else [.reports])
          (.report true) := by
        have hreporting : d.reporting = true ↔ Stance.report begun = .report true := hown.reporting
        cases begun with
        | true => simpa [hreporting.mpr rfl] using .nil
        | false =>
            have hnot : d.reporting = false := Bool.eq_false_iff.mpr fun h => nomatch hreporting.mp h
            simpa [hnot] using Stance.Writes.reports.goes
      simp only [entries, hthread, Stance.loop, Watchdog.advance]
      rcases s.report d.around with ⟨reply, around⟩
      cases reply with
      | busy => exact ⟨_, hbegins.append .nil, rfl, nofun⟩
      | panicked => exact ⟨_, hbegins.append Stance.Writes.panicked.goes, rfl, nofun⟩
      | answered reported => exact ⟨_, hbegins.append Stance.Writes.answered.goes, rfl, nofun⟩
  | note reported =>
      simp only [entries, hthread, Stance.loop, Watchdog.advance]
      exact ⟨_, Stance.Writes.counted.goes, rfl, nofun⟩
  | ended panicked =>
      simp only [entries, hthread, Stance.loop, Watchdog.advance]
      exact ⟨_, .nil, rfl, nofun⟩

namespace Kept

theorem posted (around : ε) : Kept interval (posted interval around) where
  waits := rfl
  flag := by simp [Shift.posted, Watchdog.start, Watchdog.ofInterval, Watchdog.isRunning]
  looked := by simp [Truthful, Shift.posted]
  stance := ⟨.head false, .nil, rfl, nofun⟩

theorem attend (h : Kept interval d) : Kept interval (d.attend s) := by
  obtain ⟨q, hown, hthread, hwarned⟩ := h.stance
  have hraised : .raised ∈ (d.attend s).diary ↔ .raised ∈ d.diary := by
    have hentries : .raised ∉ d.entries s := fun he => nomatch isRaised_of_mem_entries he
    simp [Shift.attend, hentries]
  refine ⟨by simpa using h.waits, by rw [hraised]; simpa using h.flag, h.looked.append fun stop he => ?_, ?_⟩
  · obtain ⟨hone, hstop⟩ := entries_of_looked he
    exact ⟨hone, by rw [hstop, h.flag]⟩
  · rw [← h.waits] at hown ⊢
    obtain ⟨q', hgoes, hthread', hwarned'⟩ := attend_goes (s := s) hown hthread hwarned
    exact ⟨q', own_attend ▸ hown.append hgoes, hthread', by simpa using hwarned'⟩

theorem raise (h : Kept interval d) : Kept interval d.raise := by
  obtain ⟨q, hown, hthread, -⟩ := h.stance
  exact ⟨h.waits, by simp [Shift.raise], h.looked.append (by simp), q, by rwa [own_raise], hthread, fun _ => rfl⟩

theorem run (h : Kept interval d) (moves : List (Move ε)) : Kept interval (d.run s moves) := by
  induction moves generalizing d with
  | nil => exact h
  | cons m moves ih =>
      refine ih ?_
      cases m with
      | thread => exact h.attend
      | raise => exact h.raise
      | others change => exact ⟨h.waits, h.flag, h.looked, h.stance⟩

end Kept

/-! ## What a watchdog asks and reports -/

theorem proceeds {loop : Loop} (h : d.dog.thread = some loop) :
    loop.isEnded = true ∨ d.entries s ≠ [] ∨
      (∃ started, loop = .asleep started ∧ (s.wake d.around).1 = none) ∨
      loop = .report ∧ d.reporting = true ∧ (s.report d.around).1 = .busy := by
  cases loop with
  | head | ask | enter | judge | note => exact .inr (.inl (by simp [entries, h]))
  | ended => exact .inl rfl
  | asleep started =>
      cases hwake : (s.wake d.around).1 with
      | none => exact .inr (.inr (.inl ⟨started, rfl, rfl⟩))
      | some answer => exact .inr (.inl (by simp [entries, h, hwake]))
  | report =>
      by_cases hbusy : d.reporting = true ∧ (s.report d.around).1 = .busy
      · exact .inr (.inr (.inr ⟨rfl, hbusy⟩))
      · refine .inr (.inl ?_)
        cases hreply : (s.report d.around).1 <;> simp_all [entries, reply?]

theorem diligent (s : Surroundings ε) (interval : Nanos) (around : ε) (moves : List (Move ε)) :
    Diligent s interval ((posted interval around).run s moves) := by
  have hkept : Kept interval ((posted interval around).run s moves) := (Kept.posted around).run moves
  generalize (posted interval around).run s moves = d at hkept
  obtain ⟨q, hown, hthread, -⟩ := hkept.stance
  have hended : ∀ {panicked : Bool}, q = .ended panicked → some q.loop = some (.ended panicked) := by
    rintro _ rfl
    rfl
  constructor
  case looked => exact hkept.looked
  all_goals rw [hthread]
  case first => exact hown.turn
  case asked => exact fun pre post started hsplit => (hsplit ▸ hown).around_asked
  case waits => exact fun pre post timeout hsplit => (hsplit ▸ hown).around_waits
  case interrupted => exact fun pre post i hsplit => (hsplit ▸ hown).after_interrupted.imp_right hended
  case completed => exact fun pre post n hsplit => (hsplit ▸ hown).after_completed
  case early => exact fun pre post timeout n hsplit => (hsplit ▸ hown).after_early
  case idle => exact fun pre post timeout hsplit => (hsplit ▸ hown).after_idle
  case reports => exact fun pre post hsplit => (hsplit ▸ hown).around_reports
  case panicked => exact fun pre post hsplit => (hsplit ▸ hown).after_panicked.imp_right hended
  case answered => exact fun pre post reported hsplit => (hsplit ▸ hown).after_answered
  case counted => exact fun pre post hsplit => (hsplit ▸ hown).after_counted
  case stopped => exact fun pre post hsplit => (hsplit ▸ hown).after_warning.imp_right (And.imp_right hended)
  case proceeds => simpa using proceeds hthread

/-- Work had not begun at the first question; the flag is raised after the third wait. -/
example :
    let cues := [⟨false, .ok 0, .panic⟩, ⟨true, .ok 0, .answer true⟩, ⟨true, .ok 0, .panic⟩]
    let moves := List.replicate 12 .thread ++ .raise :: List.replicate 3 .thread
    ((posted 0 { cues }).run Rehearsal.surroundings moves).diary =
      [.looked false, .asked false, .waits Watchdog.minInterval, .woke (.ok 0),
        .looked false, .asked true, .waits Watchdog.minInterval, .woke (.ok 0), .looked false, .reports,
        .reported (some true), .counted, .looked false, .asked true, .waits Watchdog.minInterval, .woke (.ok 0),
        .raised, .looked true, .looked true] := by
  rfl

end Shift

end BuildRound
