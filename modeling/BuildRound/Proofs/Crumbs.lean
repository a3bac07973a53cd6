import BuildRound.Path
import Mathlib.Data.List.Basic

/-!
# The crumbs of a path

Of the segments of a path those count that are neither empty nor a `.`. Popping a path takes the last of them away,
whatever it is, and leaves a beginning of the text; joining a name adds one.
-/

namespace BuildRound.Path

/-! ## Segments -/

theorem segments_ne_nil (cs : List Char) : segments cs ≠ [] := by
  cases cs with
  | nil => simp [segments]
  | cons c cs =>
      simp only [segments]
      split
      · simp
      · split <;> simp

/-- A slash parts the segments before it from those after it. -/
theorem segments_append_slash (cs ds : List Char) : segments (cs ++ '/' :: ds) = segments cs ++ segments ds := by
  induction cs with
  | nil => simp [segments]
  | cons c cs ih =>
      simp only [List.cons_append, segments, ih]
      split
      · rfl
      · cases hcs : segments cs with
        | nil => exact absurd hcs (segments_ne_nil cs)
        | cons s ss => rfl

theorem segments_of_not_mem {cs : List Char} (h : '/' ∉ cs) : segments cs = [cs] := by
  induction cs with
  | nil => rfl
  | cons c cs ih =>
      simp only [List.mem_cons, not_or] at h
      simp only [segments, if_neg (Ne.symm h.1), ih h.2]

theorem not_mem_of_mem_segments {cs s : List Char} (h : s ∈ segments cs) : '/' ∉ s := by
  induction cs generalizing s with
  | nil =>
      obtain rfl := List.mem_singleton.mp h
      simp
  | cons c cs ih =>
      simp only [segments] at h
      split at h
      · rcases List.mem_cons.mp h with rfl | h
        · simp
        · exact ih h
      · rename_i hc
        cases hcs : segments cs with
        | nil => exact absurd hcs (segments_ne_nil cs)
        | cons s' ss =>
            rw [hcs] at h ih
            rcases List.mem_cons.mp h with rfl | h
            · have := ih (List.mem_cons_self ..)
              simp [Ne.symm hc, this]
            · exact ih (List.mem_cons_of_mem _ h)

theorem ofSegments_cons {s : List Char} {ss : List (List Char)} (h : ss ≠ []) :
    ofSegments (s :: ss) = s ++ '/' :: ofSegments ss := by
  cases ss with
  | nil => exact absurd rfl h
  | cons s' ss => simp [ofSegments, List.intercalate]

theorem segments_ofSegments {ss : List (List Char)} (hne : ss ≠ []) (hslash : ∀ s ∈ ss, '/' ∉ s) :
    segments (ofSegments ss) = ss := by
  induction ss with
  | nil => exact absurd rfl hne
  | cons s ss ih =>
      have hs := segments_of_not_mem (hslash s (List.mem_cons_self ..))
      by_cases hss : ss = []
      · subst hss
        simpa [ofSegments, List.intercalate] using hs
      · rw [ofSegments_cons hss, segments_append_slash, hs, ih hss (fun t ht => hslash t (List.mem_cons_of_mem _ ht))]
        rfl

theorem ofSegments_segments (cs : List Char) : ofSegments (segments cs) = cs := by
  induction cs with
  | nil => rfl
  | cons c cs ih =>
      simp only [segments]
      split
      · rename_i hc
        rw [ofSegments_cons (segments_ne_nil cs), ih, hc]
        rfl
      · cases hcs : segments cs with
        | nil => exact absurd hcs (segments_ne_nil cs)
        | cons s ss =>
            rw [hcs] at ih
            by_cases hss : ss = []
            · subst hss
              simpa [ofSegments, List.intercalate] using ih
            · rw [ofSegments_cons hss] at ih ⊢
              simp [ih]

theorem ofSegments_mono {ss ts : List (List Char)} (h : ss <+: ts) : ofSegments ss <+: ofSegments ts := by
  induction ss generalizing ts with
  | nil => exact List.nil_prefix
  | cons s ss ih =>
      obtain ⟨us, rfl⟩ := h
      by_cases hss : ss = []
      · subst hss
        by_cases hus : us = []
        · simp [hus]
        · exact ⟨'/' :: ofSegments us, by simpa [ofSegments, List.intercalate] using (ofSegments_cons hus).symm⟩
      · rw [List.cons_append, ofSegments_cons hss, ofSegments_cons (by simp [hss])]
        exact (List.prefix_append_right_inj s).mpr ((List.prefix_cons_inj '/').mpr (ih ⟨us, rfl⟩))

/-! ## Crumbs -/

/-- The segments that count, in order. -/
def crumbs (cs : List Char) : List (List Char) :=
  (segments cs).filter (!isBlank ·)

@[simp]
theorem crumbs_nil : crumbs [] = [] := rfl

theorem crumbs_append_slash (cs ds : List Char) : crumbs (cs ++ '/' :: ds) = crumbs cs ++ crumbs ds := by
  simp [crumbs, segments_append_slash]

@[simp]
theorem crumbs_slash (cs : List Char) : crumbs ('/' :: cs) = crumbs cs :=
  crumbs_append_slash [] cs

@[simp]
theorem crumbs_current (cs : List Char) : crumbs ('.' :: '/' :: cs) = crumbs cs :=
  crumbs_append_slash ['.'] cs

theorem crumbs_splitLead (cs : List Char) : crumbs (splitLead cs).2 = crumbs cs := by
  unfold splitLead
  split
  · simp
  · rfl
  · simp
  · rfl

theorem crumbs_ofSegments {ss : List (List Char)} (hslash : ∀ s ∈ ss, '/' ∉ s) :
    crumbs (ofSegments ss) = ss.filter (!isBlank ·) := by
  by_cases hss : ss = []
  · subst hss
    rfl
  · rw [crumbs, segments_ofSegments hss hslash]

theorem filter_dropWhile_isBlank (ss : List (List Char)) :
    (ss.dropWhile isBlank).filter (!isBlank ·) = ss.filter (!isBlank ·) := by
  induction ss with
  | nil => rfl
  | cons s ss ih => cases hs : isBlank s <;> simp [hs, ih]

/-- A path has a component for each of its crumbs. -/
theorem length_crumbs_le (p : Path) : (crumbs p.text.toList).length ≤ p.components.length := by
  have hfilter (ss : List (List Char)) :
      (ss.filter (!isBlank ·)).length = (ss.filterMap Component.ofSegment?).length := by
    rw [← List.countP_eq_length_filter, List.length_filterMap_eq_countP]
    simp [isBlank]
  rw [← crumbs_splitLead, crumbs, hfilter]
  simp [components]

theorem component_of_mem_crumbs {p : Path} {s : List Char} (h : s ∈ crumbs p.text.toList) :
    ∃ c, Component.ofSegment? s = some c ∧ c ∈ p.components := by
  rw [← crumbs_splitLead] at h
  obtain ⟨hs, hblank⟩ := List.mem_filter.mp h
  cases hc : Component.ofSegment? s with
  | none => simp [isBlank, hc] at hblank
  | some c => exact ⟨c, rfl, List.mem_append_right _ (List.mem_filterMap.mpr ⟨s, hs, hc⟩)⟩

theorem crumbs_eq_reverse (cs : List Char) :
    crumbs cs = (((segments (splitLead cs).2).reverse.dropWhile isBlank).filter (!isBlank ·)).reverse := by
  rw [filter_dropWhile_isBlank, List.filter_reverse, List.reverse_reverse]
  exact (crumbs_splitLead cs).symm

theorem isBlank_of_head? {ss : List (List Char)} {s : List Char} (h : (ss.dropWhile isBlank).head? = some s) :
    isBlank s = false := by
  have := List.head?_dropWhile_not isBlank ss
  simpa [h] using this

/-! ## Popping -/

variable {p q : Path}

/-- What popping leaves of a path, and what it takes away. -/
structure Pops (p q : Path) : Prop where
  crumbs : crumbs q.text.toList = (crumbs p.text.toList).dropLast
  isAbsolute : q.isAbsolute = p.isAbsolute
  text : q.text.toList <+: p.text.toList

/-- The segments that are left end with one that counts. -/
theorem pop?_of_crumbs (h : crumbs p.text.toList ≠ []) :
    ∃ kept, kept <+: segments (splitLead p.text.toList).2 ∧
      kept.filter (!isBlank ·) = (crumbs p.text.toList).dropLast ∧
      (∀ s, kept.getLast? = some s → isBlank s = false) ∧
      p.pop? = some ⟨String.ofList ((splitLead p.text.toList).1.text ++ ofSegments kept)⟩ := by
  rw [crumbs_eq_reverse] at h ⊢
  cases hdrop : (segments (splitLead p.text.toList).2).reverse.dropWhile isBlank with
  | nil => simp [hdrop] at h
  | cons last rest =>
      have hlast : isBlank last = false := isBlank_of_head? (congrArg List.head? hdrop)
      refine ⟨(rest.dropWhile isBlank).reverse, ?_, ?_, ?_, by simp [pop?, hdrop]⟩
      · have hsuffix : rest.dropWhile isBlank <:+ (segments (splitLead p.text.toList).2).reverse :=
          (List.dropWhile_suffix _).trans ((List.suffix_cons last rest).trans (hdrop ▸ List.dropWhile_suffix _))
        simpa using List.reverse_prefix.mpr hsuffix
      · rw [List.filter_reverse, filter_dropWhile_isBlank]
        simp [hlast]
      · intro s hs
        exact isBlank_of_head? (by simpa using hs)

theorem pop?_of_crumbs_nil (h : crumbs p.text.toList = []) :
    p.pop? = if (splitLead p.text.toList).1 = .current then some ⟨""⟩ else none := by
  rw [crumbs_eq_reverse] at h
  cases hdrop : (segments (splitLead p.text.toList).2).reverse.dropWhile isBlank with
  | nil => simp [pop?, hdrop]
  | cons last rest =>
      have hlast : isBlank last = false := isBlank_of_head? (congrArg List.head? hdrop)
      simp [hdrop, hlast] at h

theorem lead_append (cs : List Char) : (splitLead cs).1.text ++ (splitLead cs).2 = cs := by
  unfold splitLead
  split <;> rfl

theorem current_segments {cs : List Char} (h : (splitLead cs).1 = .current) :
    ∃ ss, segments (splitLead cs).2 = [] :: ss := by
  unfold splitLead at h ⊢
  split <;> simp_all [segments]

theorem isAbsolute_iff : p.isAbsolute = true ↔ (splitLead p.text.toList).1 = .root := by
  unfold isAbsolute splitLead
  split
  · rename_i hcs
    simp [hcs]
  · rename_i hcs
    simp [hcs]
  · rename_i hcs
    simp [hcs]
  · rename_i hslash _ _
    cases hcs : p.text.toList with
    | nil => simp
    | cons c cs => simpa using fun heq : c = '/' => hslash cs (heq ▸ hcs)

theorem isAbsolute_of_begins (h : q.text.toList <+: p.text.toList) (hq : q.isAbsolute = true) :
    p.isAbsolute = true := by
  obtain ⟨tail, htail⟩ := h
  rw [isAbsolute, ← htail]
  cases hcs : q.text.toList with
  | nil => simp [isAbsolute, hcs] at hq
  | cons c cs => simpa [isAbsolute, hcs] using hq

/-- What is left of the segments keeps its crumbs behind the lead. -/
theorem crumbs_lead_append {cs : List Char} {kept : List (List Char)} (hkept : kept <+: segments (splitLead cs).2)
    (hlast : ∀ s, kept.getLast? = some s → isBlank s = false) :
    crumbs ((splitLead cs).1.text ++ ofSegments kept) = kept.filter (!isBlank ·) := by
  have hslash : ∀ s ∈ kept, '/' ∉ s := fun s hs => not_mem_of_mem_segments (hkept.subset hs)
  have hcrumbs := crumbs_ofSegments hslash
  cases hlead : (splitLead cs).1 with
  | nothing => exact hcrumbs
  | root => exact (crumbs_slash _).trans hcrumbs
  | current =>
      cases kept with
      | nil => rfl
      | cons s rest =>
          -- After an opening `.` comes a slash, so the first segment is empty and another one has to follow.
          obtain ⟨ss, hss⟩ := current_segments hlead
          obtain ⟨rfl, -⟩ := List.cons_prefix_cons.mp (hss ▸ hkept)
          have hrest : rest ≠ [] := by
            rintro rfl
            cases hlast [] rfl
          rw [ofSegments_cons hrest] at hcrumbs ⊢
          exact (crumbs_current _).trans ((crumbs_slash _).symm.trans hcrumbs)

theorem pops_of_pop? (h : p.pop? = some q) : p.Pops q := by
  by_cases hcrumbs : crumbs p.text.toList = []
  · rw [pop?_of_crumbs_nil hcrumbs] at h
    split at h
    · rename_i hlead
      obtain rfl := Option.some.inj h
      have hrelative : p.isAbsolute = false := by
        rw [Bool.eq_false_iff, ne_eq, isAbsolute_iff, hlead]
        simp
      exact ⟨by simp [hcrumbs], by rw [hrelative]; rfl, by simp⟩
    · cases h
  · obtain ⟨kept, hkept, hfilter, hlast, hpop⟩ := pop?_of_crumbs hcrumbs
    obtain rfl := Option.some.inj (hpop.symm.trans h)
    have htext : (splitLead p.text.toList).1.text ++ ofSegments kept <+: p.text.toList := by
      have hprefix := ofSegments_mono hkept
      rw [ofSegments_segments] at hprefix
      simpa [lead_append] using (List.prefix_append_right_inj (splitLead p.text.toList).1.text).mpr hprefix
    have hprefix : (String.ofList ((splitLead p.text.toList).1.text ++ ofSegments kept)).toList <+:
        p.text.toList := by
      simpa using htext
    refine ⟨?_, Bool.eq_iff_iff.mpr ⟨isAbsolute_of_begins hprefix, fun habsolute => ?_⟩, hprefix⟩
    · rw [String.toList_ofList, crumbs_lead_append hkept hlast, hfilter]
    · simp [isAbsolute, isAbsolute_iff.mp habsolute, Lead.text]

theorem Pops.utf8ByteSize_le (h : p.Pops q) : q.text.utf8ByteSize ≤ p.text.utf8ByteSize := by
  obtain ⟨tail, htail⟩ := h.text
  have htext : p.text = q.text ++ String.ofList tail := String.toList_inj.mp (by simp [htail])
  rw [htext, String.utf8ByteSize_append]
  exact Nat.le_add_right _ _

theorem crumbs_of_pop?_none (h : p.pop? = none) : crumbs p.text.toList = [] := by
  by_contra hcrumbs
  obtain ⟨kept, -, -, -, hpop⟩ := pop?_of_crumbs hcrumbs
  simp [hpop] at h

/-! ## Joining -/

variable {name : String}

theorem join_cases (p : Path) (name : String) :
    (p.text.toList = [] ∧ (p.join name).text.toList = name.toList) ∨
      (∃ cs, p.text.toList = cs ++ ['/'] ∧ (p.join name).text.toList = cs ++ '/' :: name.toList) ∨
      (p.text.toList ≠ [] ∧ (p.join name).text.toList = p.text.toList ++ '/' :: name.toList) := by
  unfold join
  split
  · rename_i hlast
    exact .inl ⟨List.getLast?_eq_none_iff.mp hlast, rfl⟩
  · rename_i hlast
    obtain ⟨cs, hcs⟩ := List.getLast?_eq_some_iff.mp hlast
    exact .inr (.inl ⟨cs, hcs, by simp [hcs]⟩)
  · rename_i hlast
    refine .inr (.inr ⟨?_, by simp⟩)
    rintro hnil
    simp [hnil] at hlast

theorem join_ne_nil (hname : name.toList ≠ []) (p : Path) : (p.join name).text.toList ≠ [] := by
  rcases join_cases p name with ⟨-, hjoin⟩ | ⟨cs, -, hjoin⟩ | ⟨-, hjoin⟩ <;> simp [hjoin, hname]

/-- The name is the last segment, and those before it have the crumbs of the path. -/
theorem segments_join (hslash : '/' ∉ name.toList) (p : Path) : ∃ ss,
    segments (p.join name).text.toList = ss ++ [name.toList] ∧ ss.filter (!isBlank ·) = crumbs p.text.toList := by
  have hname := segments_of_not_mem hslash
  rcases join_cases p name with ⟨hp, hjoin⟩ | ⟨cs, hp, hjoin⟩ | ⟨-, hjoin⟩
  · exact ⟨[], by simp [hjoin, hname], by simp [hp]⟩
  · refine ⟨segments cs, by simp [hjoin, segments_append_slash, hname], ?_⟩
    rw [hp, crumbs_append_slash, crumbs_nil, List.append_nil]
    rfl
  · exact ⟨segments p.text.toList, by simp [hjoin, segments_append_slash, hname], rfl⟩

theorem isAbsolute_join (hslash : '/' ∉ name.toList) (p : Path) : (p.join name).isAbsolute = p.isAbsolute := by
  have hname : name.toList.head? ≠ some '/' := fun hhead => hslash (List.mem_of_mem_head? hhead)
  unfold isAbsolute
  rcases join_cases p name with ⟨hp, hjoin⟩ | ⟨cs, hp, hjoin⟩ | ⟨hp, hjoin⟩
  · simp [hjoin, hp, hname]
  · cases cs <;> simp [hjoin, hp]
  · cases hcs : p.text.toList with
    | nil => exact absurd hcs hp
    | cons c cs => simp [hjoin, hcs]

theorem utf8ByteSize_join_le (p : Path) (name : String) :
    (p.join name).text.utf8ByteSize ≤ p.text.utf8ByteSize + 1 + name.utf8ByteSize := by
  unfold join
  split
  · simp
  · simp only [String.utf8ByteSize_append]
    omega
  · simp only [String.utf8ByteSize_append]
    exact Nat.le_refl _

theorem mem_join {c : Char} (h : c ∈ (p.join name).text.toList) : c ∈ p.text.toList ∨ c = '/' ∨ c ∈ name.toList := by
  rcases join_cases p name with ⟨hp, hjoin⟩ | ⟨cs, hp, hjoin⟩ | ⟨-, hjoin⟩
  · simp_all
  · simp only [hjoin, hp, List.mem_append, List.mem_cons] at h ⊢
    tauto
  · simpa [hjoin] using h

end BuildRound.Path
