import BuildRound.Bus.Crowd
import Mathlib.Data.List.Nodup
import Mathlib.Logic.Relation

/-!
# Listener ids

A number is taken in one step and entered in a later one, so the list may be out of order; but a number that was
taken belongs to one call alone, and the history tells which of the entered ones still stand on the bus.
-/

namespace BuildRound.Bus

variable {ℓ : Type}

/-! ## The operations -/

section

variable (b : Bus ℓ) (id : ListenerId) (listener : ℓ)

@[simp] theorem next_takeId : b.takeId.2.next = b.next + 1 := rfl

@[simp] theorem entries_takeId : b.takeId.2.entries = b.entries := rfl

@[simp] theorem next_push : (b.push id listener).next = b.next := rfl

@[simp] theorem entries_push : (b.push id listener).entries = b.entries ++ [(id, listener)] := rfl

@[simp] theorem next_unregister : (b.unregister id).2.next = b.next := rfl

end

theorem filter_ne_of_not_mem {κ α : Type} [DecidableEq κ] {es : List (κ × α)} {k : κ} (h : k ∉ es.map (·.1)) :
    es.filter (·.1 ≠ k) = es := by
  refine List.filter_eq_self.mpr (fun e he => ?_)
  have hne : e.1 ≠ k := fun heq => h (List.mem_map.mpr ⟨e, he, heq⟩)
  exact decide_eq_true hne

theorem unregister_of_not_mem {b : Bus ℓ} {id : ListenerId} (h : id ∉ b.entries.map (·.1)) :
    b.unregister id = (false, b) := by
  simp only [unregister, filter_ne_of_not_mem h]
  simp

/-- With distinct ids, unregistering one that is there takes out just its entry. -/
theorem unregister_of_mem {b : Bus ℓ} {id : ListenerId} (hdistinct : (b.entries.map (·.1)).Nodup)
    (h : id ∈ b.entries.map (·.1)) : ∃ before listener after,
      b.entries = before ++ (id, listener) :: after ∧
        b.unregister id = (true, { b with entries := before ++ after }) := by
  obtain ⟨⟨id', listener⟩, he, rfl⟩ := List.mem_map.mp h
  obtain ⟨before, after, hsplit⟩ := List.append_of_mem he
  have hothers : id' ∉ (before ++ after).map (·.1) := by
    rw [hsplit, List.map_append, List.map_cons, List.nodup_middle, ← List.map_append] at hdistinct
    exact (List.nodup_cons.mp hdistinct).1
  have hkept : b.entries.filter (·.1 ≠ id') = before ++ after := by
    rw [hsplit, List.filter_append, List.filter_cons_of_neg (by simp), ← List.filter_append,
      filter_ne_of_not_mem hothers]
  refine ⟨before, listener, after, hsplit, ?_⟩
  simp only [unregister, hkept]
  simp [hsplit]

/-! ## Histories -/

def Deed.taken? : Deed → Option ListenerId
  | took id => some id
  | _ => none

def Deed.entered? : Deed → Option ListenerId
  | entered id => some id
  | _ => none

/-- The id that was found and taken out. -/
def Deed.removed? : Deed → Option ListenerId
  | unregistered id true => some id
  | _ => none

namespace History

def taken (t : History) : List ListenerId :=
  t.filterMap Deed.taken?

def entered (t : History) : List ListenerId :=
  t.filterMap Deed.entered?

def removed (t : History) : List ListenerId :=
  t.filterMap Deed.removed?

/-- The ids of the listeners that are still there, in the order in which they were entered. -/
def standing (t : History) : List ListenerId :=
  t.entered.filter (fun id => id ∉ t.removed)

/-- Never were two registrations under way at the same time. -/
def Apart (t : History) : Prop :=
  ∀ u : History, u <+: t → u.taken.length ≤ u.entered.length + 1

@[simp] theorem taken_append (t u : History) : taken (t ++ u) = taken t ++ taken u :=
  List.filterMap_append

@[simp] theorem entered_append (t u : History) : entered (t ++ u) = entered t ++ entered u :=
  List.filterMap_append

@[simp] theorem removed_append (t u : History) : removed (t ++ u) = removed t ++ removed u :=
  List.filterMap_append

section

variable (id : ListenerId) (found : Bool)

@[simp] theorem taken_took : taken [.took id] = [id] := rfl

@[simp] theorem taken_entered : taken [.entered id] = [] := rfl

@[simp] theorem taken_unregistered : taken [.unregistered id found] = [] := rfl

@[simp] theorem entered_took : entered [.took id] = [] := rfl

@[simp] theorem entered_entered : entered [.entered id] = [id] := rfl

@[simp] theorem entered_unregistered : entered [.unregistered id found] = [] := rfl

@[simp] theorem removed_took : removed [.took id] = [] := rfl

@[simp] theorem removed_entered : removed [.entered id] = [] := rfl

@[simp] theorem removed_unregistered : removed [.unregistered id found] = if found then [id] else [] := by
  cases found <;> rfl

end

theorem Apart.left {t u : History} (h : Apart (t ++ u)) : Apart t :=
  fun v hv => h v (hv.trans (List.prefix_append t u))

theorem mem_standing {t : History} {id : ListenerId} : id ∈ standing t ↔ id ∈ entered t ∧ id ∉ removed t := by
  simp [standing]

theorem standing_took (t : History) (id : ListenerId) : standing (t ++ [.took id]) = standing t := by
  simp [standing]

theorem standing_entered {t : History} {id : ListenerId} (h : id ∉ removed t) :
    standing (t ++ [.entered id]) = standing t ++ [id] := by
  simp [standing, h]

theorem standing_unregistered (t : History) (id : ListenerId) (found : Bool) :
    standing (t ++ [.unregistered id found]) =
      if found then (standing t).filter (· ≠ id) else standing t := by
  cases found with
  | false => simp [standing]
  | true =>
      simp only [standing, entered_append, entered_unregistered, List.append_nil, removed_append,
        removed_unregistered, ↓reduceIte, List.filter_filter]
      refine List.filter_congr (fun other _ => ?_)
      simp [not_or, and_comm]

end History

/-! ## The invariant -/

namespace Crowd

open History

variable {c c' : Crowd ℓ} {i : Nat}

/-- The numbers below the next one have been taken, each by one call; the calls that entered theirs are known from
the history, and the others still are to enter them. -/
structure Kept (c : Crowd ℓ) : Prop where
  taken : taken c.history = (List.range c.bus.next).map .mk
  standing : c.bus.entries.map (·.1) = standing c.history
  distinct : (entered c.history).Nodup
  below : ∀ id ∈ entered c.history, id.number < c.bus.next
  removed : ∀ id ∈ removed c.history, id ∈ entered c.history
  size : c.bus.size + (History.removed c.history).length = (entered c.history).length
  pending : ∀ (i : Nat) id listener, c.threads[i]? = some (.entering id listener) →
    id.number < c.bus.next ∧ id ∉ entered c.history
  alone : ∀ (i j : Nat) id listener listener', c.threads[i]? = some (.entering id listener) →
    c.threads[j]? = some (.entering id listener') → i = j
  answered : ∀ (u v : History) id found, c.history = u ++ .unregistered id found :: v →
    (found = true ↔ id ∈ History.standing u)
  ordered : Apart c.history → entered c.history = (List.range (entered c.history).length).map .mk

theorem kept_empty : ({} : Crowd ℓ).Kept := by
  refine ⟨rfl, rfl, List.nodup_nil, by simp [entered], by simp [History.removed], rfl, by simp, by simp, ?_,
    fun _ => rfl⟩
  intro u v id found h
  cases u <;> cases h

theorem Kept.nodup (h : c.Kept) : (c.bus.entries.map (·.1)).Nodup := by
  rw [h.standing]
  exact h.distinct.filter _

theorem entering_of_set {threads : List (Thread ℓ)} {i j : Nat} {thread : Thread ℓ} {id : ListenerId}
    {listener : ℓ} (h : (threads.set i thread)[j]? = some (.entering id listener)) :
    (i = j ∧ thread = .entering id listener) ∨ (i ≠ j ∧ threads[j]? = some (.entering id listener)) := by
  by_cases hij : i = j
  · subst hij
    rw [List.getElem?_set_self'] at h
    obtain ⟨_, -, heq⟩ := Option.map_eq_some_iff.mp h
    exact .inl ⟨rfl, heq⟩
  · rw [List.getElem?_set_ne hij] at h
    exact .inr ⟨hij, h⟩

/-- One more deed leaves the answers before it as they were. -/
theorem Kept.answered_append (h : c.Kept) {deed : Deed}
    (hdeed : ∀ id found, deed = .unregistered id found → (found = true ↔ id ∈ History.standing c.history))
    (u v : History) (id : ListenerId) (found : Bool)
    (hsplit : c.history ++ [deed] = u ++ .unregistered id found :: v) : found = true ↔ id ∈ History.standing u := by
  rcases List.eq_nil_or_concat v with rfl | ⟨v, last, rfl⟩
  · obtain ⟨rfl, heq⟩ := List.append_inj' hsplit rfl
    exact hdeed id found (List.cons.inj heq).1
  · rw [List.concat_eq_append, ← List.cons_append, ← List.append_assoc] at hsplit
    exact h.answered u v id found (List.append_inj' hsplit rfl).1

theorem Kept.take (h : c.Kept) (i : Nat) (listener : ℓ) :
    Kept ⟨c.bus.takeId.2, c.threads.set i (.entering c.bus.takeId.1 listener),
      c.history ++ [.took c.bus.takeId.1]⟩ where
  taken := by simp [h.taken, List.range_succ, takeId]
  standing := by rw [standing_took]; exact h.standing
  distinct := by simpa using h.distinct
  below id hid := Nat.lt_succ_of_lt (h.below id (by simpa using hid))
  removed := by simpa using h.removed
  size := by simpa [Bus.size] using h.size
  pending j id listener' hj := by
    rcases entering_of_set hj with ⟨-, heq⟩ | ⟨-, hj⟩
    · cases heq
      refine ⟨Nat.lt_succ_self _, fun hmem => ?_⟩
      exact Nat.lt_irrefl _ (h.below _ (by simpa using hmem))
    · obtain ⟨hlt, hnot⟩ := h.pending j id listener' hj
      exact ⟨Nat.lt_succ_of_lt hlt, by simpa using hnot⟩
  alone j k id listener' listener'' hj hk := by
    rcases entering_of_set hj with ⟨rfl, heq⟩ | ⟨-, hj⟩ <;> rcases entering_of_set hk with ⟨rfl, heq'⟩ | ⟨-, hk⟩
    · rfl
    · cases heq
      exact absurd (h.pending k _ _ hk).1 (Nat.lt_irrefl _)
    · cases heq'
      exact absurd (h.pending j _ _ hj).1 (Nat.lt_irrefl _)
    · exact h.alone j k id _ _ hj hk
  answered := h.answered_append (by simp)
  ordered hapart := by simpa using h.ordered hapart.left

theorem Kept.push (h : c.Kept) {id : ListenerId} {listener : ℓ}
    (hi : c.threads[i]? = some (.entering id listener)) :
    Kept ⟨c.bus.push id listener, c.threads.set i (.registered id), c.history ++ [.entered id]⟩ := by
  obtain ⟨hlt, hnot⟩ := h.pending i id listener hi
  exact {
    taken := by simpa using h.taken
    standing := by
      rw [standing_entered (fun hmem => hnot (h.removed id hmem)), ← h.standing]
      simp
    distinct := by
      simpa using h.distinct.append (List.nodup_singleton id) (by simpa using hnot)
    below := by
      intro other hother
      rw [entered_append, entered_entered] at hother
      rcases List.mem_append.mp hother with hother | hother
      · exact h.below other hother
      · exact List.mem_singleton.mp hother ▸ hlt
    removed := by
      intro other hother
      simpa using Or.inl (h.removed other (by simpa using hother))
    size := by
      have hsize := h.size
      simp only [Bus.size, entries_push, removed_append, removed_entered, entered_append, entered_entered,
        List.length_append, List.length_singleton, List.length_nil] at hsize ⊢
      omega
    pending := by
      intro j other listener' hj
      rcases entering_of_set hj with ⟨-, heq⟩ | ⟨hij, hold⟩
      · cases heq
      · obtain ⟨hlt', hnot'⟩ := h.pending j other listener' hold
        refine ⟨hlt', fun hmem => ?_⟩
        rw [entered_append, entered_entered] at hmem
        rcases List.mem_append.mp hmem with hmem | hmem
        · exact hnot' hmem
        · obtain rfl := List.mem_singleton.mp hmem
          exact hij (h.alone i j other _ _ hi hold)
    alone := by
      intro j k other listener' listener'' hj hk
      rcases entering_of_set hj with ⟨-, heq⟩ | ⟨-, hj⟩
      · cases heq
      · rcases entering_of_set hk with ⟨-, heq⟩ | ⟨-, hk⟩
        · cases heq
        · exact h.alone j k other _ _ hj hk
    answered := h.answered_append (by simp)
    ordered := by
      intro hapart
      have hordered := h.ordered hapart.left
      -- All numbers but one have been entered, so the one that is entered now is the last.
      have hlast : id.number = (entered c.history).length := by
        have hbound := hapart c.history (List.prefix_append ..)
        rw [h.taken, List.length_map, List.length_range] at hbound
        rw [hordered] at hnot
        have hle : (entered c.history).length ≤ id.number := by
          refine Nat.le_of_not_lt fun hlt' => hnot (List.mem_map.mpr ⟨id.number, ?_, rfl⟩)
          exact List.mem_range.mpr hlt'
        omega
      have hid : id = ⟨(entered c.history).length⟩ := by rw [← hlast]
      rw [entered_append, entered_entered, List.length_append, List.length_singleton, List.range_succ,
        List.map_append, ← hordered]
      simpa using hid }

theorem found_iff (hdistinct : (c.bus.entries.map (·.1)).Nodup) (id : ListenerId) :
    (c.bus.unregister id).1 = true ↔ id ∈ c.bus.entries.map (·.1) := by
  by_cases hmem : id ∈ c.bus.entries.map (·.1)
  · obtain ⟨before, listener, after, -, heq⟩ := unregister_of_mem hdistinct hmem
    simp only [heq, hmem]
  · simp only [unregister_of_not_mem hmem, hmem, Bool.false_eq_true]

theorem Kept.unregister (h : c.Kept) (i : Nat) (id : ListenerId) :
    Kept ⟨(c.bus.unregister id).2, c.threads.set i (.unregistered (c.bus.unregister id).1),
      c.history ++ [.unregistered id (c.bus.unregister id).1]⟩ := by
  have hfound := found_iff h.nodup id
  rw [h.standing] at hfound
  exact {
    taken := by simpa using h.taken
    standing := by
      rw [standing_unregistered]
      cases hanswer : (c.bus.unregister id).1 with
      | false =>
          have hmem : id ∉ c.bus.entries.map (·.1) := by
            rw [h.standing]
            exact fun hmem => absurd (hfound.mpr hmem) (by simp [hanswer])
          rw [unregister_of_not_mem hmem]
          exact h.standing
      | true =>
          rw [if_pos rfl, ← h.standing, List.filter_map]
          rfl
    distinct := by simpa using h.distinct
    below := by
      intro other hother
      exact h.below other (by simpa using hother)
    removed := by
      intro other hother
      rw [removed_append, removed_unregistered] at hother
      rw [entered_append, entered_unregistered, List.append_nil]
      rcases List.mem_append.mp hother with hother | hother
      · exact h.removed other hother
      · cases hanswer : (c.bus.unregister id).1 with
        | false => simp [hanswer] at hother
        | true =>
            obtain rfl : other = id := by simpa [hanswer] using hother
            exact (mem_standing.mp (hfound.mp hanswer)).1
    size := by
      have hsize := h.size
      rw [removed_append, removed_unregistered, entered_append, entered_unregistered, List.append_nil]
      by_cases hmem : id ∈ c.bus.entries.map (·.1)
      · obtain ⟨before, listener, after, hsplit, heq⟩ := unregister_of_mem h.nodup hmem
        simp only [Bus.size, heq, hsplit, ↓reduceIte, List.length_append, List.length_cons,
          List.length_nil] at hsize ⊢
        omega
      · simpa [unregister_of_not_mem hmem] using hsize
    pending := by
      intro j other listener hj
      rcases entering_of_set hj with ⟨-, heq⟩ | ⟨-, hj⟩
      · cases heq
      · simpa using h.pending j other listener hj
    alone := by
      intro j k other listener listener' hj hk
      rcases entering_of_set hj with ⟨-, heq⟩ | ⟨-, hj⟩
      · cases heq
      · rcases entering_of_set hk with ⟨-, heq⟩ | ⟨-, hk⟩
        · cases heq
        · exact h.alone j k other _ _ hj hk
    answered := h.answered_append (by
      intro other found heq
      cases heq
      exact hfound)
    ordered := fun hapart => by simpa using h.ordered hapart.left }

theorem Kept.join (h : c.Kept) {thread : Thread ℓ} (ht : ∀ id listener, thread ≠ .entering id listener) :
    (c.join thread).Kept := by
  have hold : ∀ {j : Nat} {id : ListenerId} {listener : ℓ},
      (c.threads ++ [thread])[j]? = some (.entering id listener) → c.threads[j]? = some (.entering id listener) := by
    intro j id listener hj
    rw [List.getElem?_append] at hj
    split at hj
    · exact hj
    · exact absurd (List.mem_singleton.mp (List.mem_of_getElem? hj)).symm (ht id listener)
  exact {
    h with
    pending := fun j id listener hj => h.pending j id listener (hold hj)
    alone := fun j k id _ _ hj hk => h.alone j k id _ _ (hold hj) (hold hk) }

theorem Kept.advance (h : c.Kept) (i : Nat) : (c.advance i).Kept := by
  unfold Crowd.advance
  cases hi : c.threads[i]? with
  | none => exact h
  | some thread =>
      cases thread with
      | registering listener => exact h.take i listener
      | entering id listener => exact h.push hi
      | unregistering id => exact h.unregister i id
      | registered id => exact h
      | unregistered found => exact h

theorem Kept.step (h : c.Kept) (hstep : Step c c') : c'.Kept := by
  cases hstep with
  | advance i => exact h.advance i
  | register listener => exact h.join (by simp)
  | unregister id => exact h.join (by simp)

/-! ## Reachable crowds -/

/-- Whatever was called since the bus was new. -/
def Reachable (c : Crowd ℓ) : Prop :=
  Relation.ReflTransGen Step {} c

theorem Reachable.kept (h : c.Reachable) : c.Kept := by
  induction h with
  | refl => exact kept_empty
  | tail _ hstep ih => exact ih.step hstep

/-- The ids on the bus are distinct. Numbers are handed out in turn from zero, none of them twice, so 64 bits are
enough for fewer than `UInt64.size` registrations. Unregistering finds an id just when it was entered and not yet
removed; it then takes out that one entry, and otherwise changes nothing. Who unregisters an id that was found before,
or was entered before an earlier try, does not find it. The size counts what was entered and not found since, and
while registrations never overlap the list is in order. -/
theorem identities_kept (h : c.Reachable) :
    (c.bus.entries.map (·.1)).Nodup ∧ (∀ e ∈ c.bus.entries, e.1.number < c.bus.next) ∧
    taken c.history = (List.range c.bus.next).map .mk ∧ (taken c.history).Nodup ∧
    ((taken c.history).length < UInt64.size → ∀ id ∈ taken c.history, id.number < UInt64.size) ∧
    (∀ id, ((c.bus.unregister id).1 = true ↔ id ∈ entered c.history ∧ id ∉ removed c.history) ∧
      ((c.bus.unregister id).1 = true → ∃ before listener after,
        c.bus.entries = before ++ (id, listener) :: after ∧
          (c.bus.unregister id).2 = { c.bus with entries := before ++ after }) ∧
      ((c.bus.unregister id).1 = false → (c.bus.unregister id).2 = c.bus)) ∧
    (∀ u v id found, c.history = u ++ .unregistered id found :: v → found = true ∨ id ∈ entered u →
      c.bus.unregister id = (false, c.bus)) ∧
    c.bus.size + (removed c.history).length = (entered c.history).length ∧
    (Apart c.history → c.bus.entries.Pairwise (·.1.number < ·.1.number)) := by
  have hkept := h.kept
  have hstanding : ∀ id, id ∈ c.bus.entries.map (·.1) ↔ id ∈ entered c.history ∧ id ∉ removed c.history := by
    intro id
    rw [hkept.standing, mem_standing]
  refine ⟨hkept.nodup, ?_, hkept.taken, ?_, ?_, ?_, ?_, hkept.size, ?_⟩
  · intro e he
    exact hkept.below _ ((hstanding e.1).mp (List.mem_map_of_mem he)).1
  · rw [hkept.taken]
    exact List.nodup_range.map (fun m n heq => by simpa using heq)
  · intro hfew id hid
    rw [hkept.taken, List.length_map, List.length_range] at hfew
    rw [hkept.taken] at hid
    obtain ⟨n, hn, rfl⟩ := List.mem_map.mp hid
    exact Nat.lt_trans (List.mem_range.mp hn) hfew
  · intro id
    refine ⟨(found_iff hkept.nodup id).trans (hstanding id), fun hfound => ?_, fun hfound => ?_⟩
    · obtain ⟨before, listener, after, hsplit, heq⟩ :=
        unregister_of_mem hkept.nodup ((found_iff hkept.nodup id).mp hfound)
      exact ⟨before, listener, after, hsplit, by rw [heq]⟩
    · have hmem : id ∉ c.bus.entries.map (·.1) := fun hmem => by
        simp [(found_iff hkept.nodup id).mpr hmem] at hfound
      rw [unregister_of_not_mem hmem]
  · intro u v id found hsplit hcase
    have hremoved : id ∈ removed c.history := by
      have hanswer := hkept.answered u v id found hsplit
      rw [hsplit]
      cases found with
      | true => simp [removed, Deed.removed?]
      | false =>
          have hentered := hcase.resolve_left (by simp)
          have hgone : id ∈ removed u := by
            by_contra hgone
            simpa using hanswer.mpr (mem_standing.mpr ⟨hentered, hgone⟩)
          rw [removed_append]
          exact List.mem_append_left _ hgone
    exact unregister_of_not_mem fun hmem => ((hstanding id).mp hmem).2 hremoved
  · intro hapart
    have hordered : (c.bus.entries.map (·.1)).Pairwise (·.number < ·.number) := by
      rw [hkept.standing, standing, hkept.ordered hapart]
      refine List.Pairwise.filter _ ?_
      rw [List.pairwise_map]
      exact List.pairwise_lt_range
    rwa [List.pairwise_map] at hordered

/-- Two registrations overlap and enter their listeners the other way round; the second one is unregistered. -/
def overlapping : Crowd String :=
  let started := (({} : Crowd String).join (.registering "a")).join (.registering "b")
  let entered := (((started.advance 0).advance 1).advance 1).advance 0
  (entered.join (.unregistering ⟨1⟩)).advance 2

theorem identities_kept_overlapping : overlapping.Reachable ∧
    overlapping.history = [.took ⟨0⟩, .took ⟨1⟩, .entered ⟨1⟩, .entered ⟨0⟩] ++ .unregistered ⟨1⟩ true :: [] ∧
    overlapping.bus.unregister ⟨1⟩ = (false, overlapping.bus) ∧ overlapping.bus.size + 1 = 2 := by
  have hreachable : overlapping.Reachable := by
    have hstarted := ((Relation.ReflTransGen.single (Step.register {} "a")).tail (.register _ "b"))
    have hentered := (((hstarted.tail (.advance _ 0)).tail (.advance _ 1)).tail (.advance _ 1)).tail (.advance _ 0)
    exact (hentered.tail (.unregister _ ⟨1⟩)).tail (.advance _ 2)
  obtain ⟨-, -, -, -, -, -, hsecond, hsize, -⟩ := identities_kept hreachable
  exact ⟨hreachable, rfl, hsecond _ _ ⟨1⟩ true rfl (.inl rfl), hsize⟩

end Crowd

end BuildRound.Bus
