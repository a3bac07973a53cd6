import BuildRound.Cancellation
import Mathlib.Data.List.Induction
import Mathlib.Logic.Function.Basic
import Mathlib.Logic.Relation

/-!
# Kinship of tokens

Tokens that came about by copying, directly or through a context, form families: a token, its copies, their copies, and
whatever the first one was copied from. Cancelling reaches just the family of a token, those of it that are made later
included, whatever names hold them. Families only grow by copies of their members and never meet.
-/

namespace BuildRound

/-! ## Families -/

/-- All tokens that were ever made, in order, each with the one it was copied from; which of them the names hold, and
which were cancelled. -/
structure Pedigree where
  origins : List (Option Nat) := []
  held : String → Option Nat := fun _ => none
  cancelled : List Nat := []

namespace Pedigree

/-- How many tokens were made. -/
def size (p : Pedigree) : Nat :=
  p.origins.length

/-- A further token is made, and a name holds it in place of what it held. -/
def make (p : Pedigree) (origin : Option Nat) (name : String) : Pedigree :=
  { p with origins := p.origins ++ [origin], held := Function.update p.held name (some p.size) }

def step (p : Pedigree) : TokenTable.Step → Pedigree
  | .fresh name => p.make none name
  | .copy source target | .throughContext source target =>
      match p.held source with
      | none => p
      | some n => p.make (some n) target
  | .cancel name =>
      match p.held name with
      | none => p
      | some n => { p with cancelled := p.cancelled ++ [n] }

/-- The pedigree after these steps from the beginning. -/
def after (steps : List TokenTable.Step) : Pedigree :=
  steps.foldl step {}

theorem after_append (steps later : List TokenTable.Step) : after (steps ++ later) = later.foldl step (after steps) :=
  List.foldl_append

theorem after_concat (steps : List TokenTable.Step) (s : TokenTable.Step) :
    after (steps ++ [s]) = (after steps).step s :=
  after_append steps [s]

/-- Linked by copying, over any number of tokens and in any direction. -/
def Kin (p : Pedigree) : Nat → Nat → Prop :=
  Relation.EqvGen (fun m n => p.origins[n]? = some (some m))

/-- Some token of the family was cancelled. -/
def Reached (p : Pedigree) (n : Nat) : Prop :=
  ∃ m ∈ p.cancelled, p.Kin m n

end Pedigree

namespace TokenTable

/-- The tokens after these steps from the beginning. -/
def after (steps : List Step) : TokenTable :=
  steps.foldl step {}

/-- Token number `n` is this one, which a name held for a time. -/
def Made (steps : List Step) (n : Nat) (token : Token) : Prop :=
  ∃ before name, before <+: steps ∧ (Pedigree.after before).held name = some n ∧
    (after before).token? name = some token

/-- After these steps, and whatever comes later, tokens are cancelled by families. -/
structure SpreadsByFamily (steps : List Step) : Prop where
  made : ∀ n < (Pedigree.after steps).size, ∃ token, Made steps n token
  /-- What is asked under a name is asked of the token that it holds. -/
  named : ∀ name n token, (Pedigree.after steps).held name = some n → Made steps n token →
    (after steps).token? name = some token ∧
      (after steps).isCancelled name = (after steps).signals.isCancelled token ∧
      (after steps).check name = (after steps).signals.check token
  isCancelled : ∀ n token, Made steps n token →
    ((after steps).signals.isCancelled token = true ↔ (Pedigree.after steps).Reached n)
  checkFails : ∀ n token, Made steps n token →
    ((after steps).signals.check token = .error .cancelled ↔ (Pedigree.after steps).Reached n)
  checkPasses : ∀ n token, Made steps n token →
    ((after steps).signals.check token = .ok () ↔ ¬ (Pedigree.after steps).Reached n)
  stays : ∀ later n token, Made steps n token → (after steps).signals.isCancelled token = true →
    (after (steps ++ later)).signals.isCancelled token = true
  /-- Families do not meet, whatever is made later. -/
  apart : ∀ later m n, m < (Pedigree.after steps).size → n < (Pedigree.after steps).size →
    ((Pedigree.after (steps ++ later)).Kin m n ↔ (Pedigree.after steps).Kin m n)
  /-- A step leaves a token as it is, unless it cancels one of the same family. -/
  next : ∀ s n token, Made steps n token → ((after (steps ++ [s])).signals.isCancelled token = true ↔
    (after steps).signals.isCancelled token = true ∨
      ∃ name m, s = .cancel name ∧ (Pedigree.after steps).held name = some m ∧ (Pedigree.after steps).Kin m n)

end TokenTable

/-! ## Signals of families -/

namespace Pedigree

variable {p : Pedigree} {origin : Option Nat} {name : String} {signal : Nat → Nat} {x m n : Nat}

theorem lt_size_make : n < (p.make origin name).size ↔ n < p.size ∨ n = p.size := by
  simp only [make, size, List.length_append, List.length_singleton]
  exact Nat.lt_succ_iff_lt_or_eq

theorem held_make (other : String) :
    (p.make origin name).held other = if other = name then some p.size else p.held other :=
  Function.update_apply p.held name (some p.size) other

theorem origins_make : (p.make origin name).origins[n]? = some (some m) ↔
    p.origins[n]? = some (some m) ∨ n = p.size ∧ origin = some m := by
  simp only [make, size]
  rcases Nat.lt_trichotomy n p.origins.length with hlt | rfl | hgt
  · simp [List.getElem?_append_left hlt, Nat.ne_of_lt hlt]
  · simp
  · rw [List.getElem?_eq_none (by simpa using Nat.succ_le_of_lt hgt), List.getElem?_eq_none (Nat.le_of_lt hgt)]
    simp [Nat.ne_of_gt hgt]

theorem Kin.make (h : p.Kin m n) : (p.make origin name).Kin m n :=
  Relation.EqvGen.mono (fun _ _ hlink => origins_make.mpr (.inl hlink)) _ _ h

/-- Tokens are kin just if they have the same signal. -/
structure SortedBy (p : Pedigree) (signal : Nat → Nat) : Prop where
  linked : ∀ m n, p.origins[n]? = some (some m) → m < n ∧ signal m = signal n
  kin : ∀ m n, m < p.size → n < p.size → signal m = signal n → p.Kin m n

/-- The signals of all tokens, with one for the next token. -/
def extend (p : Pedigree) (signal : Nat → Nat) (x : Nat) : Nat → Nat :=
  Function.update signal p.size x

theorem extend_of_lt (hn : n < p.size) : p.extend signal x n = signal n := by
  rw [extend, Function.update_of_ne (Nat.ne_of_lt hn)]

@[simp] theorem extend_size : p.extend signal x p.size = x := by
  rw [extend, Function.update_self]

/-- The next token may get this signal: that of its origin, or one that is nobody's if it has none. -/
structure Suits (p : Pedigree) (origin : Option Nat) (signal : Nat → Nat) (x : Nat) : Prop where
  inherited : ∀ m, origin = some m → m < p.size ∧ signal m = x
  unused : origin = none → ∀ n < p.size, signal n ≠ x

theorem SortedBy.signal_eq (h : p.SortedBy signal) (hkin : p.Kin m n) : signal m = signal n := by
  induction hkin with
  | rel m n hlink => exact (h.linked m n hlink).2
  | refl n => rfl
  | symm m n _ ih => exact ih.symm
  | trans k m n _ _ ihkm ihmn => exact ihkm.trans ihmn

theorem SortedBy.kin_iff (h : p.SortedBy signal) (hm : m < p.size) (hn : n < p.size) :
    p.Kin m n ↔ signal m = signal n :=
  ⟨h.signal_eq, h.kin m n hm hn⟩

theorem SortedBy.make (h : p.SortedBy signal) (k : p.Suits origin signal x) :
    (p.make origin name).SortedBy (p.extend signal x) := by
  -- Whoever has the signal of the new token has it from the same family.
  have hkin : ∀ n < p.size, p.extend signal x n = x → (p.make origin name).Kin n p.size := by
    intro n hn hsignal
    rw [extend_of_lt hn] at hsignal
    cases origin with
    | none => exact absurd hsignal (k.unused rfl n hn)
    | some m =>
        obtain ⟨hm, hinherited⟩ := k.inherited m rfl
        exact .trans _ _ _ (h.kin n m hn hm (hsignal.trans hinherited.symm)).make
          (.rel m p.size (origins_make.mpr (.inr ⟨rfl, rfl⟩)))
  refine ⟨fun m n hlink => ?_, fun m n hm hn hsignal => ?_⟩
  · rcases origins_make.mp hlink with hlink | ⟨rfl, horigin⟩
    · obtain ⟨hmn, hsignal⟩ := h.linked m n hlink
      have hn : n < p.size := (List.getElem?_eq_some_iff.mp hlink).1
      rw [extend_of_lt (Nat.lt_trans hmn hn), extend_of_lt hn]
      exact ⟨hmn, hsignal⟩
    · obtain ⟨hm, hinherited⟩ := k.inherited m horigin
      rw [extend_of_lt hm, extend_size]
      exact ⟨hm, hinherited⟩
  · rcases lt_size_make.mp hm with hm | rfl <;> rcases lt_size_make.mp hn with hn | rfl
    · rw [extend_of_lt hm, extend_of_lt hn] at hsignal
      exact (h.kin m n hm hn hsignal).make
    · exact hkin m hm (hsignal.trans extend_size)
    · exact (hkin n hn (hsignal.symm.trans extend_size)).symm
    · exact .refl _

/-- All tokens keep their signals, and what was cancelled stays so. -/
structure Grows (p : Pedigree) (signal : Nat → Nat) (q : Pedigree) (signal' : Nat → Nat) : Prop where
  size_le : p.size ≤ q.size
  same : ∀ n < p.size, signal' n = signal n
  cancelled : p.cancelled ⊆ q.cancelled

theorem grows_refl : p.Grows signal p signal :=
  ⟨Nat.le_refl _, fun _ _ => rfl, List.Subset.refl _⟩

theorem grows_make : p.Grows signal (p.make origin name) (p.extend signal x) :=
  ⟨by simp [make, size], fun _ hn => extend_of_lt hn, List.Subset.refl _⟩

theorem Grows.trans {q r : Pedigree} {signal₁ signal₂ : Nat → Nat} (h : p.Grows signal q signal₁)
    (k : q.Grows signal₁ r signal₂) : p.Grows signal r signal₂ where
  size_le := Nat.le_trans h.size_le k.size_le
  same n hn := (k.same n (Nat.lt_of_lt_of_le hn h.size_le)).trans (h.same n hn)
  cancelled := List.Subset.trans h.cancelled k.cancelled

/-- Families do not meet, whatever is made later. -/
theorem Grows.kin_iff {q : Pedigree} {signal' : Nat → Nat} (h : p.Grows signal q signal') (hp : p.SortedBy signal)
    (hq : q.SortedBy signal') (hm : m < p.size) (hn : n < p.size) : q.Kin m n ↔ p.Kin m n := by
  rw [hp.kin_iff hm hn, hq.kin_iff (Nat.lt_of_lt_of_le hm h.size_le) (Nat.lt_of_lt_of_le hn h.size_le), h.same m hm,
    h.same n hn]

/-! ## Tokens and their signals -/

/-- The table holds the tokens of the pedigree, each with the signal of its family, which was raised if one of the
family was cancelled. -/
structure Bears (p : Pedigree) (signal : Nat → Nat) (t : TokenTable) : Prop extends p.SortedBy signal where
  names : ∀ name, t.token? name = (p.held name).map (fun n => ⟨signal n⟩)
  held_lt : ∀ name n, p.held name = some n → n < p.size
  cancelled_lt : ∀ n ∈ p.cancelled, n < p.size
  signal_lt : ∀ n < p.size, signal n < t.signals.raised.length
  raised : ∀ n < p.size, t.signals.isCancelled ⟨signal n⟩ = true ↔ ∃ m ∈ p.cancelled, signal m = signal n

namespace Bears

variable {t : TokenTable}

theorem start (signal : Nat → Nat) : Bears {} signal {} where
  linked _ _ h := by simp at h
  kin _ _ h := by cases h
  names _ := rfl
  held_lt _ _ h := by cases h
  cancelled_lt _ h := by cases h
  signal_lt _ h := by cases h
  raised _ h := by cases h

theorem token?_of_free (h : p.Bears signal t) (hheld : p.held name = none) : t.token? name = none := by
  rw [h.names name, hheld]
  rfl

theorem token?_of_held (h : p.Bears signal t) (hheld : p.held name = some n) : t.token? name = some ⟨signal n⟩ := by
  rw [h.names name, hheld]
  rfl

theorem newSignal (h : p.Bears signal t) : p.Bears signal { t with signals := t.signals.fresh.2 } where
  toSortedBy := h.toSortedBy
  names := h.names
  held_lt := h.held_lt
  cancelled_lt := h.cancelled_lt
  signal_lt n hn := Nat.lt_of_lt_of_le (h.signal_lt n hn) (by simp [Signals.fresh])
  raised n hn := by
    rw [Signals.isCancelled_fresh]
    exact h.raised n hn

theorem make (h : p.Bears signal t) (k : p.Suits origin signal x) (hlt : x < t.signals.raised.length)
    (hraised : t.signals.isCancelled ⟨x⟩ = true ↔ ∃ m ∈ p.cancelled, signal m = x) :
    (p.make origin name).Bears (p.extend signal x) (t.bind name ⟨x⟩) := by
  have hcancelled : ∀ y, (∃ m ∈ p.cancelled, p.extend signal x m = y) ↔ ∃ m ∈ p.cancelled, signal m = y := fun y =>
    exists_congr fun m => and_congr_right fun hm => by rw [extend_of_lt (h.cancelled_lt m hm)]
  refine ⟨h.toSortedBy.make k, fun other => ?_, fun other n hn => ?_, fun n hn => ?_, fun n hn => ?_, fun n hn => ?_⟩
  · rw [TokenTable.token?_bind, held_make, h.names other]
    split
    · simp
    · cases hheld : p.held other with
      | none => rfl
      | some n => simp [extend_of_lt (h.held_lt other n hheld)]
  · rw [held_make] at hn
    split at hn
    · cases hn
      exact lt_size_make.mpr (.inr rfl)
    · exact lt_size_make.mpr (.inl (h.held_lt other n hn))
  · exact lt_size_make.mpr (.inl (h.cancelled_lt n hn))
  · rcases lt_size_make.mp hn with hn | rfl
    · rw [extend_of_lt hn]
      exact h.signal_lt n hn
    · rwa [extend_size]
  · refine .trans ?_ (hcancelled _).symm
    rcases lt_size_make.mp hn with hn | rfl
    · rw [extend_of_lt hn]
      exact h.raised n hn
    · rwa [extend_size]

/-! ## Steps -/

theorem fresh (h : p.Bears signal t) (name : String) :
    (p.make none name).Bears (p.extend signal t.signals.raised.length) (t.step (.fresh name)) := by
  have hunused : ∀ n < p.size, signal n ≠ t.signals.raised.length := fun n hn => Nat.ne_of_lt (h.signal_lt n hn)
  refine h.newSignal.make ⟨nofun, fun _ => hunused⟩ (by simp [Signals.fresh]) ?_
  -- Nobody raised the new signal yet.
  rw [Signals.isCancelled_fresh]
  refine iff_of_false (by simp [Signals.isCancelled]) ?_
  rintro ⟨m, hm, hsignal⟩
  exact hunused m (h.cancelled_lt m hm) hsignal

theorem copy (h : p.Bears signal t) (hm : m < p.size) (name : String) :
    (p.make (some m) name).Bears (p.extend signal (signal m)) (t.bind name ⟨signal m⟩) := by
  refine h.make ⟨?_, nofun⟩ (h.signal_lt m hm) (h.raised m hm)
  rintro _ ⟨rfl⟩
  exact ⟨hm, rfl⟩

theorem cancel (h : p.Bears signal t) (hm : m < p.size) :
    { p with cancelled := p.cancelled ++ [m] }.Bears signal
      { t with signals := t.signals.cancel ⟨signal m⟩ } where
  linked := h.linked
  kin := h.kin
  names := h.names
  held_lt := h.held_lt
  cancelled_lt n hn := by
    rcases List.mem_append.mp hn with hn | hn
    · exact h.cancelled_lt n hn
    · rwa [List.mem_singleton.mp hn]
  signal_lt n hn := by simpa [Signals.cancel] using h.signal_lt n hn
  raised n hn := by
    rw [Signals.isCancelled_cancel_iff, h.raised n hn]
    simp [or_and_right, exists_or, h.signal_lt n hn]

theorem step (h : p.Bears signal t) (s : TokenTable.Step) :
    ∃ signal', (p.step s).Bears signal' (t.step s) ∧ p.Grows signal (p.step s) signal' := by
  cases s with
  | fresh name => exact ⟨_, h.fresh name, grows_make⟩
  | copy source target | throughContext source target =>
      cases hheld : p.held source with
      | none =>
          simp only [Pedigree.step, TokenTable.step, hheld, h.token?_of_free hheld]
          exact ⟨signal, h, grows_refl⟩
      | some m =>
          simp only [Pedigree.step, TokenTable.step, hheld, h.token?_of_held hheld]
          exact ⟨_, h.copy (h.held_lt source m hheld) target, grows_make⟩
  | cancel name =>
      cases hheld : p.held name with
      | none =>
          simp only [Pedigree.step, TokenTable.step, hheld, h.token?_of_free hheld]
          exact ⟨signal, h, grows_refl⟩
      | some m =>
          simp only [Pedigree.step, TokenTable.step, hheld, h.token?_of_held hheld]
          exact ⟨signal, h.cancel (h.held_lt name m hheld), Nat.le_refl _, fun _ _ => rfl, List.subset_append_left _ _⟩

theorem run (h : p.Bears signal t) (steps : List TokenTable.Step) :
    ∃ signal', (steps.foldl Pedigree.step p).Bears signal' (steps.foldl TokenTable.step t) ∧
      p.Grows signal (steps.foldl Pedigree.step p) signal' := by
  induction steps generalizing p signal t with
  | nil => exact ⟨signal, h, grows_refl⟩
  | cons s steps ih =>
      obtain ⟨signal₁, hone, hgrows⟩ := h.step s
      obtain ⟨signal', hrest, hgrows'⟩ := ih hone
      exact ⟨signal', hrest, hgrows.trans hgrows'⟩

/-! ## What a token answers -/

theorem reached_iff (h : p.Bears signal t) (hn : n < p.size) :
    p.Reached n ↔ t.signals.isCancelled ⟨signal n⟩ = true := by
  rw [h.raised n hn]
  exact exists_congr fun m => and_congr_right fun hm => h.kin_iff (h.cancelled_lt m hm) hn

/-- A family in which one was cancelled stays so. -/
theorem reached_of_grows (h : p.Bears signal t) {q : Pedigree} {signal' : Nat → Nat} {u : TokenTable}
    (k : q.Bears signal' u) (hgrows : p.Grows signal q signal') (hn : n < p.size) (hreached : p.Reached n) :
    q.Reached n := by
  obtain ⟨m, hm, hkin⟩ := hreached
  exact ⟨m, hgrows.cancelled hm, (hgrows.kin_iff h.toSortedBy k.toSortedBy (h.cancelled_lt m hm) hn).mpr hkin⟩

end Bears

theorem mem_cancelled_step {s : TokenTable.Step} :
    m ∈ (p.step s).cancelled ↔ m ∈ p.cancelled ∨ ∃ name, s = .cancel name ∧ p.held name = some m := by
  cases s with
  | fresh name => simp [step, make]
  | copy source target | throughContext source target =>
      simp only [step]
      split <;> simp [make]
  | cancel name =>
      simp only [step]
      split
      · rename_i hheld
        simp [hheld]
      · rename_i n hheld
        simp [hheld, eq_comm]

/-- A name holds a new token at first. -/
theorem lt_size_step {s : TokenTable.Step} (h : n < (p.step s).size) :
    n < p.size ∨ ∃ name, (p.step s).held name = some n := by
  have hmake : ∀ {origin name}, n < (p.make origin name).size →
      n < p.size ∨ ∃ name', (p.make origin name).held name' = some n := by
    intro origin name h
    rcases lt_size_make.mp h with h | rfl
    · exact .inl h
    · exact .inr ⟨name, by rw [held_make, if_pos rfl]⟩
  cases s with
  | fresh name => exact hmake h
  | copy source target | throughContext source target =>
      simp only [step] at h ⊢
      split at h
      · exact .inl h
      · exact hmake h
  | cancel name =>
      simp only [step] at h
      split at h <;> exact .inl h

end Pedigree

namespace TokenTable

variable {steps later : List Step} {name : String} {n : Nat} {token : Token}

open Pedigree

theorem after_append (steps later : List Step) : after (steps ++ later) = later.foldl step (after steps) :=
  List.foldl_append

theorem exists_signals (steps : List Step) : ∃ signal, (Pedigree.after steps).Bears signal (after steps) := by
  obtain ⟨signal, h, -⟩ := (Bears.start id).run steps
  exact ⟨signal, h⟩

theorem exists_grown (steps later : List Step) : ∃ signal signal', (Pedigree.after steps).Bears signal (after steps) ∧
    (Pedigree.after (steps ++ later)).Bears signal' (after (steps ++ later)) ∧
    (Pedigree.after steps).Grows signal (Pedigree.after (steps ++ later)) signal' := by
  obtain ⟨signal, h⟩ := exists_signals steps
  obtain ⟨signal', hlater, hgrows⟩ := h.run later
  rw [Pedigree.after_append, after_append]
  exact ⟨signal, signal', h, hlater, hgrows⟩

theorem kin_append {m n : Nat} (steps later : List Step) (hm : m < (Pedigree.after steps).size)
    (hn : n < (Pedigree.after steps).size) :
    (Pedigree.after (steps ++ later)).Kin m n ↔ (Pedigree.after steps).Kin m n := by
  obtain ⟨signal, signal', h, hlater, hgrows⟩ := exists_grown steps later
  exact hgrows.kin_iff h.toSortedBy hlater.toSortedBy hm hn

theorem reached_append (steps later : List Step) (hn : n < (Pedigree.after steps).size)
    (h : (Pedigree.after steps).Reached n) : (Pedigree.after (steps ++ later)).Reached n := by
  obtain ⟨signal, signal', hbears, hlater, hgrows⟩ := exists_grown steps later
  exact hbears.reached_of_grows hlater hgrows hn h

theorem Made.append (h : Made steps n token) (later : List Step) : Made (steps ++ later) n token := by
  obtain ⟨before, name, hbefore, hheld, htoken⟩ := h
  exact ⟨before, name, hbefore.trans (List.prefix_append steps later), hheld, htoken⟩

theorem made_of_held (hheld : (Pedigree.after steps).held name = some n) : ∃ token, Made steps n token := by
  obtain ⟨signal, h⟩ := exists_signals steps
  exact ⟨⟨signal n⟩, steps, name, List.prefix_rfl, hheld, h.token?_of_held hheld⟩

/-- A token keeps its number and its signal, also when no name holds it any more. -/
theorem Made.exists_signal (hmade : Made steps n token) : ∃ signal,
    (Pedigree.after steps).Bears signal (after steps) ∧ n < (Pedigree.after steps).size ∧ token = ⟨signal n⟩ := by
  obtain ⟨before, name, ⟨later, rfl⟩, hheld, htoken⟩ := hmade
  obtain ⟨signal, signal', h, hlater, hgrows⟩ := exists_grown before later
  have hn := h.held_lt name n hheld
  rw [h.token?_of_held hheld] at htoken
  refine ⟨signal', hlater, Nat.lt_of_lt_of_le hn hgrows.size_le, ?_⟩
  rw [hgrows.same n hn]
  exact (Option.some.inj htoken).symm

theorem Made.lt_size (hmade : Made steps n token) : n < (Pedigree.after steps).size := by
  obtain ⟨signal, -, hn, -⟩ := hmade.exists_signal
  exact hn

theorem Made.isCancelled_iff (hmade : Made steps n token) :
    (after steps).signals.isCancelled token = true ↔ (Pedigree.after steps).Reached n := by
  obtain ⟨signal, h, hn, rfl⟩ := hmade.exists_signal
  exact (h.reached_iff hn).symm

theorem Made.token?_eq (hmade : Made steps n token) (hheld : (Pedigree.after steps).held name = some n) :
    (after steps).token? name = some token := by
  obtain ⟨signal, h, -, rfl⟩ := hmade.exists_signal
  exact h.token?_of_held hheld

theorem exists_made (steps : List Step) (hn : n < (Pedigree.after steps).size) : ∃ token, Made steps n token := by
  induction steps using List.reverseRecOn with
  | nil => cases hn
  | append_singleton steps s ih =>
      rw [Pedigree.after_concat] at hn
      rcases lt_size_step hn with hn | ⟨name, hheld⟩
      · obtain ⟨token, hmade⟩ := ih hn
        exact ⟨token, hmade.append [s]⟩
      · rw [← Pedigree.after_concat] at hheld
        exact made_of_held hheld

/-- A token is cancelled just if one of its family was cancelled by then: a token that it was copied from, over any
number of tokens and contexts, a copy of it, or a copy of such a token. The names that tokens are held under, and what
is done with tokens of other families, make no difference. -/
theorem spreads_by_family (steps : List Step) : SpreadsByFamily steps where
  made _ hn := exists_made steps hn
  named name n token hheld hmade := by
    have htoken := hmade.token?_eq hheld
    exact ⟨htoken, by rw [TokenTable.isCancelled, htoken, Option.any_some], by rw [TokenTable.check, htoken]⟩
  isCancelled _ _ hmade := hmade.isCancelled_iff
  checkFails n token hmade := by
    rw [← hmade.isCancelled_iff, Signals.check]
    split <;> simp [*]
  checkPasses n token hmade := by
    rw [← hmade.isCancelled_iff, Signals.check]
    split <;> simp [*]
  stays later n token hmade hcancelled :=
    (hmade.append later).isCancelled_iff.mpr
      (reached_append steps later hmade.lt_size (hmade.isCancelled_iff.mp hcancelled))
  apart later _ _ hm hn := kin_append steps later hm hn
  next s n token hmade := by
    obtain ⟨signal, h⟩ := exists_signals steps
    have hkin : ∀ m < (Pedigree.after steps).size,
        ((Pedigree.after (steps ++ [s])).Kin m n ↔ (Pedigree.after steps).Kin m n) := fun m hm =>
      kin_append steps [s] hm hmade.lt_size
    rw [(hmade.append [s]).isCancelled_iff, hmade.isCancelled_iff]
    constructor
    · rintro ⟨m, hm, hfamily⟩
      rw [Pedigree.after_concat] at hm
      rcases mem_cancelled_step.mp hm with hbefore | ⟨name, hs, hheld⟩
      · exact .inl ⟨m, hbefore, (hkin m (h.cancelled_lt m hbefore)).mp hfamily⟩
      · exact .inr ⟨name, m, hs, hheld, (hkin m (h.held_lt name m hheld)).mp hfamily⟩
    · rintro (hreached | ⟨name, m, hs, hheld, hfamily⟩)
      · exact reached_append steps [s] hmade.lt_size hreached
      · refine ⟨m, ?_, (hkin m (h.held_lt name m hheld)).mpr hfamily⟩
        rw [Pedigree.after_concat]
        exact mem_cancelled_step.mpr (.inr ⟨name, hs, hheld⟩)

/-- The token that was made through a context of a copy cancels the copy as well, also for later copies. The name that
let go of the first token holds one of another family. -/
example : ["a", "b", "c", "d", "e"].map (after [.fresh "a", .copy "a" "b", .throughContext "b" "c", .fresh "a",
    .copy "a" "d", .cancel "c", .copy "b" "e"]).isCancelled = [false, true, true, false, true] := by
  decide

end TokenTable

end BuildRound
