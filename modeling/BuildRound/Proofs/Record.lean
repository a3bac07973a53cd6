import BuildRound.Round

/-!
# The record of a round

What a stretch of the trace tells: the calls on the engine, the evaluations with what their listeners heard,
when the round looked at its cancellation signal, and what became of the signals, the progresses and the
listeners on the bus. Nothing here looks at a world.
-/

namespace BuildRound

/-- A stretch of the trace. -/
abbrev Record := List Occurrence

theorem eq_take_cons_drop {α : Type} {t : List α} {k : Nat} {o : α} (h : t[k]? = some o) :
    t = t.take k ++ o :: t.drop (k + 1) := by
  obtain ⟨hlt, ho⟩ := List.getElem?_eq_some_iff.mp h
  rw [← ho, List.getElem_cons_drop, List.take_append_drop]

/-- A moment of two stretches is one of the first or one of the second. -/
theorem append_split {α : Type} {l₁ l₂ v w : List α} {x : α} (h : l₁ ++ l₂ = v ++ x :: w) :
    (∃ w₁, l₁ = v ++ x :: w₁ ∧ w = w₁ ++ l₂) ∨ (∃ v₂, v = l₁ ++ v₂ ∧ l₂ = v₂ ++ x :: w) := by
  rcases List.append_eq_append_iff.mp h with ⟨v₂, hv, hl⟩ | ⟨w₁, hl, hw⟩
  · exact .inr ⟨v₂, hv, hl⟩
  · cases w₁ with
    | nil => exact .inr ⟨[], by simpa using hl.symm, by simpa using hw.symm⟩
    | cons y w₁ =>
        cases hw
        exact .inl ⟨w₁, hl, rfl⟩

/-! ## Calls and evaluations -/

def Occurrence.call? : Occurrence → Option Call
  | .called call => some call
  | _ => none

def Occurrence.request? : Occurrence → Option Request
  | .called (.evaluate request) => some request
  | _ => none

def Occurrence.answer? : Occurrence → Option (Except BuildError EvaluationResult)
  | .answered _ answer => some answer
  | _ => none

/-- What the listener of a call heard. -/
def Occurrence.heard? : Occurrence → Option Notification
  | .issued (some _) (.notify notification) _ => some notification
  | _ => none

/-- One evaluation: what was asked for, what its listener heard until the answer, and the answer. -/
structure Exchange where
  request : Request
  heard : List Notification
  answer : Except BuildError EvaluationResult

namespace Record

def calls (t : Record) : List Call :=
  t.filterMap Occurrence.call?

def answer? (t : Record) : Option (Except BuildError EvaluationResult) :=
  t.findSome? Occurrence.answer?

/-- What listeners heard before the next answer. -/
def heard (t : Record) : List Notification :=
  (t.takeWhile (·.answer?.isNone)).filterMap Occurrence.heard?

/-- The evaluations that were asked for and answered, in order. -/
def exchanges : Record → List Exchange
  | [] => []
  | o :: t =>
      match o.request?, answer? t with
      | some request, some answer => ⟨request, heard t, answer⟩ :: exchanges t
      | _, _ => exchanges t

@[simp] theorem calls_nil : calls [] = [] := rfl

@[simp] theorem calls_append (t u : Record) : calls (t ++ u) = calls t ++ calls u :=
  List.filterMap_append

@[simp] theorem calls_cons (o : Occurrence) (t : Record) : calls (o :: t) = o.call?.toList ++ calls t := by
  cases h : o.call? <;> simp [calls, h]

@[simp] theorem calls_map_called (cs : List Call) : calls (cs.map .called) = cs := by
  induction cs with
  | nil => rfl
  | cons c cs ih => simpa [Occurrence.call?] using ih

@[simp] theorem exchanges_nil : exchanges [] = [] := rfl

theorem exchanges_append {t : Record} (h : ∀ o ∈ t, o.request? = none) (u : Record) :
    exchanges (t ++ u) = exchanges u := by
  induction t with
  | nil => rfl
  | cons o t ih =>
      simp only [List.cons_append, exchanges, h o (by simp)]
      exact ih (fun p hp => h p (by simp [hp]))

theorem answer?_append {t : Record} (h : ∀ o ∈ t, o.answer? = none) (u : Record) :
    answer? (t ++ u) = answer? u := by
  have ht : t.findSome? Occurrence.answer? = none := List.findSome?_eq_none_iff.mpr h
  simp [answer?, List.findSome?_append, ht]

theorem heard_append_answered {t : Record} (h : ∀ o ∈ t, o.answer? = none) (l : Option Nat)
    (a : Except BuildError EvaluationResult) (u : Record) :
    heard (t ++ .answered l a :: u) = t.filterMap Occurrence.heard? := by
  unfold heard
  rw [List.takeWhile_append_of_pos (fun o ho => by simp [h o ho])]
  simp [Occurrence.answer?]

theorem exchanges_asked {t : Record} (ht : ∀ o ∈ t, o.request? = none ∧ o.answer? = none) (q : Request)
    (l : Option Nat) (a : Except BuildError EvaluationResult) (u : Record) :
    exchanges (.called (.evaluate q) :: (t ++ .answered l a :: u)) =
      ⟨q, t.filterMap Occurrence.heard?, a⟩ :: exchanges u := by
  have hrest : exchanges (t ++ .answered l a :: u) = exchanges u := by
    rw [exchanges_append (fun o ho => (ht o ho).1)]
    rfl
  have hanswer : answer? (t ++ .answered l a :: u) = some a := by
    rw [answer?_append (fun o ho => (ht o ho).2)]
    rfl
  simp only [exchanges, Occurrence.request?, hanswer, hrest]
  rw [heard_append_answered (fun o ho => (ht o ho).2)]

end Record

/-- The reports on failed nodes that follow the answer of an evaluation. -/
def reports : Except BuildError EvaluationResult → List Call
  | .ok result => result.cycleReports.map .reportCycles
  | .error _ => []

def Exchange.calls (e : Exchange) : List Call :=
  .evaluate e.request :: reports e.answer

/-! ## Cancellation -/

/-- The signals after one occurrence. -/
def Signals.heed (s : Signals) : Occurrence → Signals
  | .issued _ (.cancel token) _ => s.cancel token
  | .cancelled token => s.cancel token
  | _ => s

def Signals.after (s : Signals) (t : Record) : Signals :=
  t.foldl heed s

@[simp] theorem Signals.after_nil (s : Signals) : s.after [] = s := rfl

@[simp] theorem Signals.after_cons (s : Signals) (o : Occurrence) (t : Record) :
    s.after (o :: t) = (s.heed o).after t := rfl

@[simp] theorem Signals.after_append (s : Signals) (t u : Record) :
    s.after (t ++ u) = (s.after t).after u :=
  List.foldl_append

theorem Signals.isCancelled_heed {s : Signals} {a : Token} (o : Occurrence) (h : s.isCancelled a = true) :
    (s.heed o).isCancelled a = true := by
  unfold heed
  split
  · exact isCancelled_cancel _ h
  · exact isCancelled_cancel _ h
  · exact h

theorem Signals.isCancelled_after {s : Signals} {a : Token} (t : Record) (h : s.isCancelled a = true) :
    (s.after t).isCancelled a = true := by
  induction t generalizing s with
  | nil => exact h
  | cons o t ih => exact ih (isCancelled_heed o h)

namespace Record

/-- For each time the round looked at its signal, whether this token was cancelled by then. -/
def looks (token : Token) : Signals → Record → List Bool
  | _, [] => []
  | s, .checked :: t => s.isCancelled token :: looks token s t
  | s, o :: t => looks token (s.heed o) t

theorem looks_cons_of_ne {o : Occurrence} (h : o ≠ .checked) (token : Token) (s : Signals) (t : Record) :
    looks token s (o :: t) = looks token (s.heed o) t := by
  cases o <;> first | rfl | exact absurd rfl h

theorem looks_append (token : Token) (s : Signals) (t u : Record) :
    looks token s (t ++ u) = looks token s t ++ looks token (s.after t) u := by
  induction t generalizing s with
  | nil => rfl
  | cons o t ih =>
      by_cases h : o = .checked
      · subst h
        simp [looks, ih, Signals.heed]
      · simp [looks_cons_of_ne h, ih]

theorem looks_eq_nil {t : Record} (h : ∀ o ∈ t, o ≠ .checked) (token : Token) (s : Signals) :
    looks token s t = [] := by
  induction t generalizing s with
  | nil => rfl
  | cons o t ih =>
      rw [looks_cons_of_ne (h o (by simp))]
      exact ih (fun p hp => h p (by simp [hp])) _

end Record

/-! ## Listeners on the bus -/

namespace Record

/-- The entries of the bus after the engine registered or unregistered a listener of its own, or had a board leave. -/
def enrol (entries : List (ListenerId × Listener)) : Occurrence → List (ListenerId × Listener)
  | .issued _ (.register name) id => entries ++ [(id, .own name)]
  | .issued _ (.unregister id) _ | .issued _ (.leave _) (some id) => entries.filter (·.1 ≠ id)
  | _ => entries

/-- The entries of the bus after everything the engine registered and unregistered and after the boards it had leave. -/
def enrolled (t : Record) (entries : List (ListenerId × Listener)) : List (ListenerId × Listener) :=
  t.foldl enrol entries

end Record

/-- The id that a listener of the engine was given. -/
def Occurrence.registered? : Occurrence → Option ListenerId
  | .issued _ (.register _) id => some id
  | _ => none

namespace Record

theorem enrolled_append (t u : Record) (es : List (ListenerId × Listener)) :
    (t ++ u).enrolled es = u.enrolled (t.enrolled es) :=
  List.foldl_append

theorem mem_enrol {es : List (ListenerId × Listener)} {o : Occurrence} {e : ListenerId × Listener}
    (h : e ∈ enrol es o) : e ∈ es ∨ o.registered? = some e.1 := by
  cases o with
  | issued l c r =>
      cases c with
      | register name =>
          rcases List.mem_append.mp h with h | h
          · exact .inl h
          · exact .inr (by simp [Occurrence.registered?, List.mem_singleton.mp h])
      | unregister id => exact .inl (List.mem_filter.mp h).1
      | leave board =>
          cases r with
          | none => exact .inl h
          | some id => exact .inl (List.mem_filter.mp h).1
      | _ => exact .inl h
  | _ => exact .inl h

theorem mem_enrolled {t : Record} {es : List (ListenerId × Listener)} {e : ListenerId × Listener}
    (h : e ∈ t.enrolled es) : e ∈ es ∨ ∃ o ∈ t, o.registered? = some e.1 := by
  induction t generalizing es with
  | nil => exact .inl h
  | cons o t ih =>
      rcases ih h with h | ⟨p, hp, hid⟩
      · exact (mem_enrol h).imp id (fun ho => ⟨o, by simp, ho⟩)
      · exact .inr ⟨p, by simp [hp], hid⟩

/-- Leaving out an id that is not handed out commutes with what the engine does. -/
theorem enrolled_filter {t : Record} {id : ListenerId}
    (h : ∀ o ∈ t, o.registered? ≠ some id) (es : List (ListenerId × Listener)) :
    (t.enrolled es).filter (·.1 ≠ id) = t.enrolled (es.filter (·.1 ≠ id)) := by
  induction t generalizing es with
  | nil => rfl
  | cons o t ih =>
      have ho : (enrol es o).filter (·.1 ≠ id) = enrol (es.filter (·.1 ≠ id)) o := by
        have hne := h o (by simp)
        cases o with
        | issued l c r =>
            cases c with
            | register name =>
                have hr : r ≠ id := by simpa [Occurrence.registered?] using hne
                simp [enrol, hr]
            | unregister other => simp [enrol, Bool.and_comm]
            | leave board => cases r <;> simp [enrol, Bool.and_comm]
            | _ => rfl
        | _ => rfl
      exact (ih (fun p hp => h p (by simp [hp])) _).trans (congrArg (enrolled t) ho)

end Record

/-! ## Progress -/

/-- Whether a notification shows that an artifact is up to date: its own node was evaluated and is clean or
no action generates it, or an action that writes it was evaluated. -/
def Notification.Shows (a : Artifact) : Notification → Prop
  | .evaluated (.artifact b) state => b.identity = a.identity ∧ (state = .clean ∨ b.isSource = true)
  | .evaluated (.action action) _ => ∃ b ∈ action.outputs, b.identity = a.identity
  | _ => False

namespace Progress

/-- Progress number `i` after one occurrence: it hears the evaluation it listens to, learns of completed
actions, and takes in what its evaluation brought. -/
def notice (i : Nat) (p : Progress) : Occurrence → Progress
  | .issued (some j) (.notify n) _ => if j = i then p.notify n else p
  | .issued _ (.complete j action) _ => if j = i then p.complete action else p
  | .answered (some j) (.ok result) =>
      if j = i then { p with built := p.built.extend result.values } else p
  | _ => p

def after (i : Nat) (p : Progress) (t : Record) : Progress :=
  t.foldl (notice i) p

@[simp] theorem after_nil (i : Nat) (p : Progress) : p.after i [] = p := rfl

@[simp] theorem after_cons (i : Nat) (p : Progress) (o : Occurrence) (t : Record) :
    p.after i (o :: t) = (p.notice i o).after i t := rfl

@[simp] theorem after_append (i : Nat) (p : Progress) (t u : Record) :
    p.after i (t ++ u) = (p.after i t).after i u :=
  List.foldl_append

theorem requested_notice (i : Nat) (p : Progress) (o : Occurrence) :
    (p.notice i o).requested = p.requested := by
  unfold notice
  split
  · split
    · unfold notify
      repeat' split
      all_goals rfl
    · rfl
  · split
    · unfold complete
      split <;> rfl
    · rfl
  · split <;> rfl
  · rfl

theorem requested_after (i : Nat) (p : Progress) (t : Record) : (p.after i t).requested = p.requested := by
  induction t generalizing p with
  | nil => rfl
  | cons o t ih => exact (ih _).trans (requested_notice i p o)

end Progress

/-- What reading progress number `i` brought is what the progress had. -/
def Occurrence.Tells (i : Nat) (p : Progress) : Occurrence → Prop
  | .issued _ (.readCompleted j) count => j = i → count = p.completedCount
  | .issued _ (.readEnqueued j) count => j = i → count = p.enqueuedCount
  | _ => True

/-- All readings of progress number `i` brought what it had by then. -/
def Record.Truthful (i : Nat) : Progress → Record → Prop
  | _, [] => True
  | p, o :: t => o.Tells i p ∧ Truthful i (p.notice i o) t

theorem Record.truthful_append {i : Nat} {p : Progress} {t u : Record} :
    (t ++ u).Truthful i p ↔ t.Truthful i p ∧ u.Truthful i (p.after i t) := by
  induction t generalizing p with
  | nil => simp [Truthful]
  | cons o t ih => simp [Truthful, ih, and_assoc]

/-- Whether an occurrence shows progress number `i` that an artifact is up to date. -/
def Occurrence.Vouches (i : Nat) (requested : ArtifactSet) (a : Artifact) : Occurrence → Prop
  | .issued (some j) (.notify n) _ => j = i ∧ requested.contains a = true ∧ n.Shows a
  | .answered (some j) (.ok result) => j = i ∧ ∃ b ∈ result.values, b.identity = a.identity
  | _ => False

namespace Record

def Vouches (i : Nat) (requested : ArtifactSet) (a : Artifact) (t : Record) : Prop :=
  ∃ o ∈ t, o.Vouches i requested a

variable {i : Nat} {requested : ArtifactSet} {a : Artifact}

@[simp] theorem vouches_nil : ¬ Vouches i requested a [] := by
  simp [Vouches]

@[simp] theorem vouches_cons {o : Occurrence} {t : Record} :
    Vouches i requested a (o :: t) ↔ o.Vouches i requested a ∨ Vouches i requested a t := by
  simp [Vouches]

@[simp] theorem vouches_append {t u : Record} :
    Vouches i requested a (t ++ u) ↔ Vouches i requested a t ∨ Vouches i requested a u := by
  induction t with
  | nil => simp
  | cons o t ih => simp [ih, or_assoc]

end Record

end BuildRound
