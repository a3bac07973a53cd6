import BuildRound.Error

/-!
# Cancellation

A token is a handle on a signal. Copies of a token, also those obtained through a context, are handles on
the same signal, so cancelling one of them cancels all of them and no others.
-/

namespace BuildRound

/-! ## Tokens and signals -/

/-- A handle on a cancellation signal. -/
structure Token where
  signal : Nat
  deriving DecidableEq, Repr

/-- All signals that were made so far, and whether each was raised. -/
structure Signals where
  raised : List Bool := []
  deriving DecidableEq, Repr

namespace Signals

def fresh (s : Signals) : Token × Signals :=
  (⟨s.raised.length⟩, ⟨s.raised ++ [false]⟩)

/-- Raise the signal of a token; raising it again changes nothing. -/
def cancel (s : Signals) (t : Token) : Signals :=
  ⟨s.raised.set t.signal true⟩

def isCancelled (s : Signals) (t : Token) : Bool :=
  s.raised.getD t.signal false

/-- Fail if the signal of a token was raised. -/
def check (s : Signals) (t : Token) : Except BuildError Unit :=
  if s.isCancelled t then .error .cancelled else .ok ()

theorem isCancelled_fresh (s : Signals) (t : Token) : s.fresh.2.isCancelled t = s.isCancelled t := by
  simp only [isCancelled, fresh, List.getD_eq_getElem?_getD]
  rcases Nat.lt_trichotomy t.signal s.raised.length with hlt | heq | hgt
  · rw [List.getElem?_append_left hlt]
  · simp [heq]
  · rw [List.getElem?_eq_none (by simpa using Nat.succ_le_of_lt hgt), List.getElem?_eq_none (Nat.le_of_lt hgt)]

/-- Cancelling raises the signal of a token, if there is such a signal, and no other. -/
theorem isCancelled_cancel_iff {s : Signals} {a b : Token} : (s.cancel b).isCancelled a = true ↔
    s.isCancelled a = true ∨ b.signal = a.signal ∧ a.signal < s.raised.length := by
  simp only [isCancelled, cancel, List.getD_eq_getElem?_getD, List.getElem?_set]
  by_cases hsame : b.signal = a.signal
  · by_cases hlt : a.signal < s.raised.length <;> simp [hsame, hlt]
  · simp [hsame]

theorem isCancelled_cancel {s : Signals} {a : Token} (b : Token) (h : s.isCancelled a = true) :
    (s.cancel b).isCancelled a = true :=
  isCancelled_cancel_iff.mpr (.inl h)

theorem isCancelled_cancel_of_ne {a b : Token} (s : Signals) (h : b ≠ a) :
    (s.cancel b).isCancelled a = s.isCancelled a := by
  have hsignal : b.signal ≠ a.signal := fun hsame => h (congrArg Token.mk hsame)
  exact Bool.eq_iff_iff.mpr (by simp [isCancelled_cancel_iff, hsignal])

end Signals

/-- What an engine is given for a whole execution. -/
structure ExecutionContext where
  cancellation : Token
  deriving DecidableEq, Repr

/-! ## Named tokens -/

/-- Tokens that are held under names. -/
structure TokenTable where
  signals : Signals := {}
  names : List (String × Token) := []
  deriving DecidableEq, Repr

namespace TokenTable

/-- A step that makes, copies or cancels named tokens. -/
inductive Step where
  | fresh (name : String)
  | copy (source target : String)
  | throughContext (source target : String)
  | cancel (name : String)
  deriving DecidableEq, Repr

def token? (t : TokenTable) (name : String) : Option Token :=
  t.names.lookup name

def bind (t : TokenTable) (name : String) (token : Token) : TokenTable :=
  { t with names := (name, token) :: t.names.filter (·.1 ≠ name) }

theorem lookup_filter_ne {name other : String} (names : List (String × Token)) (h : other ≠ name) :
    (names.filter (·.1 ≠ name)).lookup other = names.lookup other := by
  induction names with
  | nil => rfl
  | cons held rest ih =>
      obtain ⟨holder, token⟩ := held
      by_cases hholder : holder = name
      · rw [List.filter_cons_of_neg (by simpa using hholder), ih, List.lookup_cons,
          beq_eq_false_iff_ne.mpr (hholder ▸ h)]
      · rw [List.filter_cons_of_pos (by simpa using hholder), List.lookup_cons, List.lookup_cons, ih]

theorem token?_bind (t : TokenTable) (name other : String) (token : Token) :
    (t.bind name token).token? other = if other = name then some token else t.token? other := by
  by_cases h : other = name
  · simp [token?, bind, h]
  · rw [if_neg h, token?, bind, List.lookup_cons, beq_eq_false_iff_ne.mpr h]
    exact lookup_filter_ne t.names h

def isCancelled (t : TokenTable) (name : String) : Bool :=
  (t.token? name).any t.signals.isCancelled

def check (t : TokenTable) (name : String) : Except BuildError Unit :=
  match t.token? name with
  | none => .ok ()
  | some token => t.signals.check token

/-- Perform one step; a step on a name that holds nothing does nothing. -/
def step (t : TokenTable) : Step → TokenTable
  | .fresh name =>
      let (token, signals) := t.signals.fresh
      { t with signals }.bind name token
  | .copy source target =>
      match t.token? source with
      | none => t
      | some token => t.bind target token
  | .throughContext source target =>
      match t.token? source with
      | none => t
      | some token => t.bind target (ExecutionContext.mk token).cancellation
  | .cancel name =>
      match t.token? name with
      | none => t
      | some token => { t with signals := t.signals.cancel token }

/-- The names whose tokens are cancelled, in order. -/
def cancelledNames (t : TokenTable) : List String :=
  ((t.names.map (·.1)).filter t.isCancelled).mergeSort (fun a b => (compare a b).isLE)

end TokenTable

end BuildRound
