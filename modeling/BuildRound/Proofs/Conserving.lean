import BuildRound.ArtifactSet.Shared
import BuildRound.Proofs.Bookkeeping
import Mathlib.Data.Set.Card

/-!
# What a shared set accounts for

Whoever calls through whichever copies of its handle, a shared set answers as one set does whose contents are what was
put in since they were last taken, each artifact in the spelling that came first. Whatever was in it or came in is
either taken out once or still there.
-/

namespace BuildRound

namespace ArtifactSet

/-! ## What calls do to the contents -/

/-- An artifact is put in, be it there already or not, or everything is taken out. -/
inductive Effect where
  | put (a : Artifact)
  | emptied

def Access.effects : Access → List Effect
  | .insert a => [.put a]
  | .extend as => as.map .put
  | .contains _ | .size => []
  | .take => [.emptied]

def effects (ds : List Deed) : List Effect :=
  ds.flatMap (·.access.effects)

/-- What was put in since the contents were last taken, in order, after what was there before if they never were. -/
def recent (there : List Artifact) (es : List Effect) : List Artifact :=
  es.foldl (fun as e => match e with | .put a => as ++ [a] | .emptied => []) there

/-- The first of the recent artifacts with this identity. -/
def held? (there : List Artifact) (es : List Effect) (k : Artifact.Identity) : Option Artifact :=
  (recent there es).find? (·.identity = k)

/-- How often an artifact with this identity was put in and found none there. -/
def arrivals (k : Artifact.Identity) (there : List Artifact) : List Effect → Nat
  | [] => 0
  | .put a :: es =>
      (if a.identity = k ∧ ∀ b ∈ there, b.identity ≠ k then 1 else 0) + arrivals k (there ++ [a]) es
  | .emptied :: es => arrivals k [] es

/-- Whether a call took the artifact out, among others. -/
def Deed.took (a : Artifact) : Deed → Bool
  | ⟨.take, taken⟩ => taken.contains a
  | _ => false

/-- A call was replied to as by the set that holds these artifacts. -/
def Deed.Fits (held : Artifact.Identity → Option Artifact) : Deed → Prop
  | ⟨.insert a, new⟩ => new = (held a.identity).isNone
  | ⟨.extend _, _⟩ => True
  | ⟨.contains a, found⟩ => found = (held a.identity).isSome
  | ⟨.size, n⟩ => n = {k | (held k).isSome = true}.ncard
  | ⟨.take, taken⟩ => ∀ a, a ∈ taken.toList ↔ held a.identity = some a

/-- After these calls on a set that was made with `initial`, it holds `contents`, and nothing was lost or doubled. -/
structure Accounted (initial : ArtifactSet) (ds : List Deed) (contents : ArtifactSet) : Prop where
  replies : ∀ before d after, ds = before ++ d :: after → d.Fits (held? initial.toList (effects before))
  holds : ∀ a, a ∈ contents.toList ↔ held? initial.toList (effects ds) a.identity = some a
  somewhere : ∀ a, initial.contains a = true ∨ (∃ b, .put b ∈ effects ds ∧ b.identity = a.identity) →
    (∃ d ∈ ds, d.took a = true) ∨ contents.contains a = true
  balance : ∀ a, ds.countP (·.took a) + (contents.contains a).toNat =
    (initial.contains a).toNat + arrivals a.identity initial.toList (effects ds)

variable {s : ArtifactSet} {there : List Artifact} {a b : Artifact} {k : Artifact.Identity}

theorem effects_concat (ds : List Deed) (c : Access) (reply : c.Reply) :
    effects (ds ++ [⟨c, reply⟩]) = effects ds ++ c.effects := by
  simp [effects]

theorem recent_append (there : List Artifact) (es es' : List Effect) :
    recent there (es ++ es') = recent (recent there es) es' :=
  List.foldl_append

theorem recent_puts (there as : List Artifact) : recent there (as.map .put) = there ++ as := by
  induction as generalizing there with
  | nil => simp [recent]
  | cons a as ih => exact (ih (there ++ [a])).trans (by simp)

theorem arrivals_append (k : Artifact.Identity) (there : List Artifact) (es es' : List Effect) :
    arrivals k there (es ++ es') = arrivals k there es + arrivals k (recent there es) es' := by
  induction es generalizing there with
  | nil => simp [arrivals, recent]
  | cons e es ih =>
      cases e with
      | put a => simp only [List.cons_append, arrivals, ih, Nat.add_assoc]; rfl
      | emptied => exact ih []

/-- What is put in arrives, unless it is there. -/
theorem arrivals_pos (there : List Artifact) {es : List Effect} (h : .put b ∈ es) (hb : b.identity = k) :
    (∃ c ∈ there, c.identity = k) ∨ 0 < arrivals k there es := by
  induction es generalizing there with
  | nil => simp at h
  | cons e es ih =>
      cases e with
      | emptied =>
          have hrest : (∃ c ∈ ([] : List Artifact), c.identity = k) ∨ 0 < arrivals k [] es :=
            ih _ (by simpa using h)
          exact .inr (hrest.resolve_left (by simp))
      | put a =>
          by_cases hthere : ∃ c ∈ there, c.identity = k
          · exact .inl hthere
          · refine .inr ?_
            by_cases ha : a.identity = k
            · have hnone : ∀ c ∈ there, c.identity ≠ k := fun c hc hck => hthere ⟨c, hc, hck⟩
              simp only [arrivals, ha, true_and]
              rw [if_pos hnone]
              omega
            · have hmem : .put b ∈ es := by
                rcases List.mem_cons.mp h with heq | hmem
                · cases heq
                  exact absurd hb ha
                · exact hmem
              have hrest : (∃ c ∈ there ++ [a], c.identity = k) ∨ 0 < arrivals k (there ++ [a]) es :=
                ih _ hmem
              rcases hrest with ⟨c, hc, hck⟩ | hpos
              · rcases List.mem_append.mp hc with hc | hc
                · exact absurd ⟨c, hc, hck⟩ hthere
                · rw [List.mem_singleton.mp hc] at hck
                  exact absurd hck ha
              · exact Nat.lt_of_lt_of_le hpos (Nat.le_add_left _ _)

/-! ## A set beside what was put in -/

/-- The set holds of each artifact the first of these. -/
def Mirrors (s : ArtifactSet) (there : List Artifact) : Prop :=
  ∀ a, a ∈ s.toList ↔ there.find? (·.identity = a.identity) = some a

theorem mirrors_toList (s : ArtifactSet) : s.Mirrors s.toList := by
  intro a
  constructor
  · intro ha
    cases hfind : s.toList.find? (·.identity = a.identity) with
    | none => simpa using List.find?_eq_none.mp hfind a ha
    | some b =>
        have hb : b.identity = a.identity := by simpa using List.find?_some hfind
        rw [List.inj_on_of_nodup_map s.nodup_identities (List.mem_of_find?_eq_some hfind) ha hb]
  · exact List.mem_of_find?_eq_some

theorem mirrors_empty : empty.Mirrors [] := by
  simp [Mirrors, empty]

namespace Mirrors

variable (h : s.Mirrors there)

include h

theorem isSome_iff : (there.find? (·.identity = k)).isSome = true ↔ ∃ b ∈ s.toList, b.identity = k := by
  constructor
  · intro hsome
    obtain ⟨b, hb⟩ := Option.isSome_iff_exists.mp hsome
    have hk : b.identity = k := by simpa using List.find?_some hb
    exact ⟨b, (h b).mpr (hk ▸ hb), hk⟩
  · rintro ⟨b, hb, rfl⟩
    rw [(h b).mp hb]
    rfl

theorem contains_eq (a : Artifact) : s.contains a = (there.find? (·.identity = a.identity)).isSome :=
  Bool.eq_iff_iff.mpr (contains_iff.trans h.isSome_iff.symm)

theorem contains_iff_there : s.contains a = true ↔ ∃ b ∈ there, b.identity = a.identity := by
  rw [h.contains_eq, List.find?_isSome]
  simp

theorem insert (a : Artifact) : (s.insert a).Mirrors (there ++ [a]) := by
  intro b
  have hfound := h.contains_eq a
  unfold ArtifactSet.insert
  split
  · rename_i hcontains
    rw [hcontains] at hfound
    by_cases hab : a.identity = b.identity
    · -- The one that is there comes first.
      obtain ⟨c, hc⟩ := Option.isSome_iff_exists.mp hfound.symm
      rw [h b, List.find?_append, ← hab, hc, Option.some_or]
    · simp [h b, List.find?_append, hab]
  · rename_i hcontains
    by_cases hab : a.identity = b.identity
    · have hnone : there.find? (·.identity = b.identity) = none := by
        rw [← hab]
        simpa [hcontains] using hfound
      rw [List.find?_append, hnone, Option.none_or]
      have hb : b ∉ s.toList := fun hmem => by simp [(h b).mp hmem] at hnone
      simp [hb, hab, eq_comm]
    · have hne : b ≠ a := fun heq => hab (heq ▸ rfl)
      simp [h b, List.find?_append, hab, hne]

theorem extend (as : List Artifact) : (s.extend as).Mirrors (there ++ as) := by
  induction as generalizing s there with
  | nil => simpa [ArtifactSet.extend] using h
  | cons a as ih => simpa [ArtifactSet.extend] using ih (h.insert a)

theorem size_eq : s.size = {k | (there.find? (·.identity = k)).isSome = true}.ncard := by
  have hset : {k | (there.find? (·.identity = k)).isSome = true} =
      ((s.toList.map Artifact.identity).toFinset : Set Artifact.Identity) := by
    ext k
    simp [h.isSome_iff]
  rw [hset, Set.ncard_coe_finset, List.toFinset_card_of_nodup s.nodup_identities]
  simp [size]

/-! ## One call -/

theorem perform (c : Access) : (s.perform c).2.Mirrors (recent there c.effects) := by
  cases c with
  | insert a => exact h.insert a
  | extend as => exact recent_puts there as ▸ h.extend as
  | contains _ | size => exact h
  | take => exact mirrors_empty

theorem fits (c : Access) : Deed.Fits (held? there []) ⟨c, (s.perform c).1⟩ := by
  cases c with
  | insert a =>
      show (!s.contains a) = _
      rw [h.contains_eq, Option.not_isSome]
      rfl
  | extend _ => trivial
  | contains a => exact h.contains_eq a
  | size => exact h.size_eq
  | take => exact h

/-- An artifact comes in by one insertion just if it is not there. -/
theorem arrives (a b : Artifact) : ((s.insert a).contains b).toNat =
    (s.contains b).toNat + if a.identity = b.identity ∧ ∀ c ∈ there, c.identity ≠ b.identity then 1 else 0 := by
  have hnone : (∀ c ∈ there, c.identity ≠ b.identity) ↔ s.contains b = false := by
    rw [← Bool.not_eq_true, h.contains_iff_there]
    simp
  simp only [hnone]
  have hinsert := contains_insert (s := s) (a := a) (b := b)
  by_cases hab : a.identity = b.identity
  · rw [hinsert.mpr (.inr hab)]
    cases s.contains b <;> simp [hab]
  · have hsame : (s.insert a).contains b = s.contains b := Bool.eq_iff_iff.mpr (by simp [hinsert, hab])
    simp [hsame, hab]

theorem arrive (as : List Artifact) (b : Artifact) : ((s.extend as).contains b).toNat =
    (s.contains b).toNat + arrivals b.identity there (as.map .put) := by
  induction as generalizing s there with
  | nil => rfl
  | cons a as ih =>
      have hrest : ((s.extend (a :: as)).contains b).toNat = _ := ih (h.insert a)
      rw [hrest, h.arrives, List.map_cons, arrivals, Nat.add_assoc]

/-- What one call takes out and leaves there is what was there and what arrived. -/
theorem balance (c : Access) (a : Artifact) :
    (Deed.took a ⟨c, (s.perform c).1⟩).toNat + ((s.perform c).2.contains a).toNat =
      (s.contains a).toNat + arrivals a.identity there c.effects := by
  cases c with
  | insert b =>
      have hone := h.arrive [b] a
      simpa [Deed.took, ArtifactSet.perform, insertNew, Access.effects, ArtifactSet.extend] using hone
  | extend as => simpa [Deed.took, ArtifactSet.perform, Access.effects] using h.arrive as a
  | contains _ | size => simp [Deed.took, ArtifactSet.perform, Access.effects, arrivals]
  | take => simp [Deed.took, ArtifactSet.perform, take, empty, contains, Access.effects, arrivals]

end Mirrors

/-! ## Calls one after another -/

namespace Accounted

variable {initial contents : ArtifactSet} {ds : List Deed}

theorem start (initial : ArtifactSet) : Accounted initial [] initial where
  replies before d after h := by simp at h
  holds := mirrors_toList initial
  somewhere a h := .inr (by simpa [effects] using h)
  balance a := by simp [effects, arrivals]

theorem mirrors (h : Accounted initial ds contents) : contents.Mirrors (recent initial.toList (effects ds)) :=
  h.holds

/-- Since the balance is even, whatever was there or came in is somewhere. -/
theorem somewhere_of_balance
    (h : ∀ a, ds.countP (·.took a) + (contents.contains a).toNat =
      (initial.contains a).toNat + arrivals a.identity initial.toList (effects ds)) (a : Artifact)
    (ha : initial.contains a = true ∨ ∃ b, .put b ∈ effects ds ∧ b.identity = a.identity) :
    (∃ d ∈ ds, d.took a = true) ∨ contents.contains a = true := by
  have hpos : 0 < (initial.contains a).toNat + arrivals a.identity initial.toList (effects ds) := by
    rcases ha with ha | ⟨b, hmem, hb⟩
    · simp [ha]
    · rcases arrivals_pos initial.toList hmem hb with hthere | harrived
      · simp [contains_iff.mpr hthere]
      · omega
  rw [← h a] at hpos
  cases hcontains : contents.contains a with
  | true => exact .inr rfl
  | false =>
      rw [hcontains] at hpos
      exact .inl (List.countP_pos_iff.mp hpos)

theorem perform (h : Accounted initial ds contents) (c : Access) :
    Accounted initial (ds ++ [⟨c, (contents.perform c).1⟩]) (contents.perform c).2 := by
  have hbalance : ∀ a, (ds ++ [(⟨c, (contents.perform c).1⟩ : Deed)]).countP (·.took a) +
      ((contents.perform c).2.contains a).toNat = (initial.contains a).toNat +
        arrivals a.identity initial.toList (effects (ds ++ [⟨c, (contents.perform c).1⟩])) := by
    intro a
    have hlast : List.countP (·.took a) [(⟨c, (contents.perform c).1⟩ : Deed)] =
        (Deed.took a ⟨c, (contents.perform c).1⟩).toNat := by
      cases htook : Deed.took a ⟨c, (contents.perform c).1⟩ <;> simp [htook]
    have hbefore := h.balance a
    have hcall := h.mirrors.balance c a
    rw [List.countP_append, hlast, effects_concat, arrivals_append]
    omega
  refine ⟨fun before d after hsplit => ?_, ?_, somewhere_of_balance hbalance, hbalance⟩
  · rcases List.eq_nil_or_concat after with rfl | ⟨after, last, rfl⟩
    · obtain ⟨rfl, hd⟩ := List.append_inj' hsplit rfl
      obtain rfl := List.head_eq_of_cons_eq hd
      exact h.mirrors.fits c
    · have hsplit' : ds ++ [⟨c, (contents.perform c).1⟩] = (before ++ d :: after) ++ [last] := by simpa using hsplit
      exact h.replies before d after (List.append_inj' hsplit' rfl).1
  · intro a
    rw [effects_concat, held?, recent_append]
    exact h.mirrors.perform c a

end Accounted

end ArtifactSet

/-! ## Sets behind handles -/

namespace Sharing

open ArtifactSet

def Event.initial? : Event → Option ArtifactSet
  | .shared initial => some initial
  | _ => none

/-- What each set was made with. -/
def initials (es : List Event) : List ArtifactSet :=
  es.filterMap Event.initial?

/-- For each handle the number of its set, and how many sets there are. A copy belongs to the set of what it was
copied from. -/
def family (fs : List Nat × Nat) : Event → List Nat × Nat
  | .shared _ => (fs.1 ++ [fs.2], fs.2 + 1)
  | .copied handle => (fs.1 ++ fs.1[handle]?.toList, fs.2)
  | .called .. => fs

/-- The calls through the handles that belong to set number `i`, whoever made them. -/
def dealings (i : Nat) : List Nat × Nat → List Event → List Deed
  | _, [] => []
  | fs, .called handle deed :: es => (if fs.1[handle]? = some i then [deed] else []) ++ dealings i fs es
  | fs, e :: es => dealings i (family fs e) es

theorem dealings_append (i : Nat) (fs : List Nat × Nat) (es es' : List Event) :
    dealings i fs (es ++ es') = dealings i fs es ++ dealings i (es.foldl family fs) es' := by
  induction es generalizing fs with
  | nil => rfl
  | cons e es ih => cases e <;> simp [dealings, ih, family]

/-- All sets so far are accounted for by the calls through their own handles. -/
structure Kept (s : Sharing) : Prop where
  families : s.history.foldl family ([], 0) = (s.handles, s.sets.length)
  made : (initials s.history).length = s.sets.length
  bounded : ∀ i ∈ s.handles, i < s.sets.length
  unmade : ∀ i, s.sets.length ≤ i → dealings i ([], 0) s.history = []
  accounted : ∀ i initial set, (initials s.history)[i]? = some initial → s.sets[i]? = some set →
    Accounted initial (dealings i ([], 0) s.history) set

theorem kept_empty : Kept {} where
  families := rfl
  made := rfl
  bounded := by simp
  unmade _ _ := rfl
  accounted _ _ _ h _ := by simp [initials] at h

variable {s : Sharing}

theorem Kept.share (h : s.Kept) (initial : ArtifactSet) : (s.move (.share initial)).Kept := by
  have hdealings : ∀ i, dealings i ([], 0) (s.history ++ [.shared initial]) = dealings i ([], 0) s.history := by
    intro i
    simp [dealings_append, dealings]
  refine ⟨?_, ?_, ?_, fun i hi => ?_, fun i initial' set hinitial hset => ?_⟩
  · simp [move, h.families, family]
  · simpa [move, initials, Event.initial?] using h.made
  · intro i hi
    rcases List.mem_append.mp hi with hi | hi
    · exact Nat.lt_of_lt_of_le (h.bounded i hi) (by simp [move])
    · simp [move, List.mem_singleton.mp hi]
  · rw [move, hdealings]
    exact h.unmade i (Nat.le_of_succ_le (by simpa [move] using hi))
  · rw [move, hdealings]
    have hmade : initials (s.history ++ [.shared initial]) = initials s.history ++ [initial] := by
      simp [initials, Event.initial?]
    simp only [move, hmade] at hinitial hset
    rcases Nat.lt_trichotomy i s.sets.length with hlt | rfl | hgt
    · rw [List.getElem?_append_left (h.made ▸ hlt)] at hinitial
      rw [List.getElem?_append_left hlt] at hset
      exact h.accounted i initial' set hinitial hset
    · rw [← h.made] at hinitial
      simp only [List.getElem?_concat_length, Option.some.injEq] at hinitial hset
      rw [h.unmade _ (Nat.le_refl _), ← hinitial, ← hset]
      exact .start initial
    · rw [List.getElem?_eq_none (by simpa using hgt)] at hset
      cases hset

theorem Kept.copy (h : s.Kept) (handle : Nat) : (s.move (.copy handle)).Kept := by
  cases hhandle : s.handles[handle]? with
  | none =>
      have hmove : s.move (.copy handle) = s := by simp [move, hhandle]
      rwa [hmove]
  | some i =>
      have hmove : s.move (.copy handle) = ⟨s.sets, s.handles ++ [i], s.history ++ [.copied handle]⟩ := by
        simp [move, hhandle]
      have hdealings : ∀ j, dealings j ([], 0) (s.history ++ [.copied handle]) = dealings j ([], 0) s.history := by
        intro j
        simp [dealings_append, dealings]
      have hmade : initials (s.history ++ [.copied handle]) = initials s.history := by
        simp [initials, Event.initial?]
      rw [hmove]
      refine ⟨?_, ?_, ?_, fun j hj => ?_, fun j => ?_⟩
      · simp [h.families, family, hhandle]
      · rw [hmade]
        exact h.made
      · intro j hj
        rcases List.mem_append.mp hj with hj | hj
        · exact h.bounded j hj
        · rw [List.mem_singleton.mp hj]
          exact h.bounded i (List.mem_of_getElem? hhandle)
      · rw [hdealings]
        exact h.unmade j hj
      · rw [hdealings, hmade]
        exact h.accounted j

theorem Kept.call (h : s.Kept) (handle : Nat) (c : Access) : (s.move (.call handle c)).Kept := by
  cases hfound : s.handles[handle]?.bind (fun i => s.sets[i]?.map (i, ·)) with
  | none =>
      have hmove : s.move (.call handle c) = s := by simp only [move, hfound]
      rwa [hmove]
  | some found =>
      obtain ⟨i, hhandle, set, hset, rfl⟩ : ∃ i, s.handles[handle]? = some i ∧
          ∃ set, s.sets[i]? = some set ∧ (i, set) = found := by
        simpa [Option.bind_eq_some_iff] using hfound
      have hmove : s.move (.call handle c) = ⟨s.sets.set i (set.perform c).2, s.handles,
          s.history ++ [.called handle ⟨c, (set.perform c).1⟩]⟩ := by
        simp only [move, hfound]
      have hmade : initials (s.history ++ [.called handle ⟨c, (set.perform c).1⟩]) = initials s.history := by
        simp [initials, Event.initial?]
      have hdealings : ∀ j, dealings j ([], 0) (s.history ++ [.called handle ⟨c, (set.perform c).1⟩]) =
          dealings j ([], 0) s.history ++ if i = j then [⟨c, (set.perform c).1⟩] else [] := by
        intro j
        simp [dealings_append, dealings, h.families, hhandle]
      rw [hmove]
      refine ⟨?_, ?_, ?_, fun j hj => ?_, fun j initial set' hinitial hset' => ?_⟩
      · simp [h.families, family]
      · simpa [hmade] using h.made
      · simpa using h.bounded
      · have hj : s.sets.length ≤ j := by simpa using hj
        have hne : i ≠ j := Nat.ne_of_lt (Nat.lt_of_lt_of_le (h.bounded i (List.mem_of_getElem? hhandle)) hj)
        rw [hdealings, if_neg hne, List.append_nil]
        exact h.unmade j hj
      · rw [hmade] at hinitial
        rw [hdealings]
        by_cases hij : i = j
        · subst hij
          have hset' : (set.perform c).2 = set' := by
            simpa [(List.getElem?_eq_some_iff.mp hset).1] using hset'
          rw [if_pos rfl, ← hset']
          exact (h.accounted i initial set hinitial hset).perform c
        · rw [List.getElem?_set_ne hij] at hset'
          rw [if_neg hij, List.append_nil]
          exact h.accounted j initial set' hinitial hset'

theorem Kept.run (h : s.Kept) (moves : List Move) : (s.run moves).Kept := by
  induction moves generalizing s with
  | nil => exact h
  | cons m moves ih =>
      cases m with
      | share initial => exact ih (h.share initial)
      | copy handle => exact ih (h.copy handle)
      | call handle c => exact ih (h.call handle c)

/-- Whatever any number of threads do through whichever handles, in whatever order: a set that was made with `initial`
answers the calls through its first handle and through the copies of it, and copies of those, as one set does, and all
artifacts that were ever in it are accounted for. -/
theorem nothing_lost (moves : List Move) (i : Nat) (initial : ArtifactSet)
    (hmade : (initials (run {} moves).history)[i]? = some initial) :
    ∃ set, (run {} moves).sets[i]? = some set ∧
      Accounted initial (dealings i ([], 0) (run {} moves).history) set := by
  have hkept : (run {} moves).Kept := kept_empty.run moves
  have hlt : i < (run {} moves).sets.length := by
    rw [← hkept.made]
    exact (List.getElem?_eq_some_iff.mp hmade).1
  have hset := List.getElem?_eq_getElem hlt
  exact ⟨_, hset, hkept.accounted i initial _ hmade hset⟩

/-- Two threads put in an artifact in two spellings through copies of a handle, each before and after the contents are
taken through a copy of a copy; another set is in use meanwhile. -/
def respelled : List Move :=
  let plain : Artifact := ⟨⟨"out/a"⟩, .derived⟩
  let dotted : Artifact := ⟨⟨"out//./a"⟩, .derived⟩
  [.share .empty, .copy 0, .share (.ofList [plain]), .copy 1, .call 1 (.extend [dotted, plain]),
    .call 0 (.insert plain), .call 2 .take, .call 3 .take, .call 3 (.contains dotted), .call 0 (.insert plain),
    .call 1 (.insert dotted), .call 3 .size]

theorem nothing_lost_respelled :
    (initials (run {} respelled).history)[0]? = some .empty ∧
      ∃ set, (run {} respelled).sets[0]? = some set ∧
        set.toList = [⟨⟨"out/a"⟩, .derived⟩] ∧
        (dealings 0 ([], 0) (run {} respelled).history).countP (·.took ⟨⟨"out/a"⟩, .derived⟩) = 1 ∧
        Accounted .empty (dealings 0 ([], 0) (run {} respelled).history) set := by
  have hmade : (initials (run {} respelled).history)[0]? = some .empty := rfl
  obtain ⟨set, hset, haccounted⟩ := nothing_lost respelled 0 .empty hmade
  have hlist : (run {} respelled).sets[0]?.map ArtifactSet.toList = some [⟨⟨"out/a"⟩, .derived⟩] := by decide +kernel
  refine ⟨hmade, set, hset, ?_, by decide +kernel, haccounted⟩
  simpa [hset] using hlist

end Sharing

end BuildRound
