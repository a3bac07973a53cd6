import BuildRound.Proofs.Crumbs
import BuildRound.Settings.Load

/-!
# The order of a search

Settings are searched in the directory where the search starts, then in what popping its path leaves, as long as there
is a component to pop. Each pop takes one component away, so the search comes to its end, and the first of its
candidates that is there is found: a directory counts before those above it, and in a directory one name before another.
-/

namespace BuildRound

namespace Path

variable {p q : Path}

/-! ## Popping a component -/

theorem isBlank_iff {s : List Char} : isBlank s = true ↔ s = [] ∨ s = ['.'] := by
  unfold isBlank Component.ofSegment?
  split <;> simp_all

theorem components_eq (p : Path) : p.components = (splitLead p.text.toList).1.component?.toList ++
    (crumbs p.text.toList).filterMap Component.ofSegment? := by
  have hblank (s : List Char) : (if (!isBlank s) = true then Component.ofSegment? s else none) =
      Component.ofSegment? s := by
    cases hs : Component.ofSegment? s <;> simp [isBlank, hs]
  rw [← crumbs_splitLead, crumbs, List.filterMap_filter]
  simp only [hblank]
  rfl

theorem filterMap_crumbs {cs : List Char} (h : crumbs cs ≠ []) : ∃ c, c ≠ .root ∧
    (crumbs cs).filterMap Component.ofSegment? = (crumbs cs).dropLast.filterMap Component.ofSegment? ++ [c] := by
  obtain ⟨-, hblank⟩ := List.mem_filter.mp (List.getLast_mem h)
  cases hc : Component.ofSegment? ((crumbs cs).getLast h) with
  | none => simp [isBlank, hc] at hblank
  | some c =>
      refine ⟨c, ?_, ?_⟩
      · rintro rfl
        unfold Component.ofSegment? at hc
        split at hc <;> cases hc
      · conv_lhs => rw [← List.dropLast_append_getLast h]
        simp [hc]

theorem splitLead_eq_nothing_iff (cs : List Char) :
    (splitLead cs).1 = .nothing ↔ cs.head? ≠ some '/' ∧ cs ≠ ['.'] ∧ ¬ ['.', '/'] <+: cs := by
  constructor
  · intro h
    unfold splitLead at h
    split at h
    · cases h
    · cases h
    · cases h
    · rename_i hroot hcurrent hslash
      refine ⟨fun hhead => ?_, hcurrent, ?_⟩
      · obtain ⟨body, hbody⟩ := List.head?_eq_some_iff.mp hhead
        exact hroot body hbody
      · rintro ⟨body, hbody⟩
        exact hslash body hbody.symm
  · rintro ⟨hroot, hcurrent, hslash⟩
    unfold splitLead
    split
    · exact absurd rfl hroot
    · exact absurd rfl hcurrent
    · exact absurd ⟨_, rfl⟩ hslash
    · rfl

/-- What is left of a path opens like the path. -/
theorem splitLead_kept {cs : List Char} {kept : List (List Char)} (hkept : kept <+: segments (splitLead cs).2)
    (hlast : ∀ s, kept.getLast? = some s → isBlank s = false) :
    (splitLead ((splitLead cs).1.text ++ ofSegments kept)).1 = (splitLead cs).1 := by
  cases hlead : (splitLead cs).1 with
  | root => rfl
  | current =>
      cases kept with
      | nil => rfl
      | cons s rest =>
          obtain ⟨ss, hss⟩ := current_segments hlead
          obtain ⟨rfl, -⟩ := List.cons_prefix_cons.mp (hss ▸ hkept)
          have hrest : rest ≠ [] := by
            rintro rfl
            cases hlast [] rfl
          rw [ofSegments_cons hrest]
          rfl
  | nothing =>
      have hbody : (splitLead cs).2 = cs := by
        simpa [hlead, Lead.text] using lead_append cs
      rw [hbody] at hkept
      -- What is left begins the path, so it opens with a slash or a dot only if the path does.
      have hprefix : ofSegments kept <+: cs := ofSegments_segments cs ▸ ofSegments_mono hkept
      obtain ⟨hroot, -, hslash⟩ := (splitLead_eq_nothing_iff cs).mp hlead
      refine (splitLead_eq_nothing_iff (ofSegments kept)).mpr
        ⟨fun hhead => hroot ?_, fun hdot => ?_, fun hmore => hslash (hmore.trans hprefix)⟩
      · obtain ⟨more, hmore⟩ := hprefix
        rw [← hmore, List.head?_append, hhead]
        rfl
      · have hne : kept ≠ [] := by
          rintro rfl
          cases hdot
        have hsegments := segments_ofSegments hne (fun s hs => not_mem_of_mem_segments (hkept.subset hs))
        rw [hdot] at hsegments
        obtain rfl : [['.']] = kept := hsegments
        cases hlast ['.'] rfl

/-- Popping takes the last component away, and there has to be one. -/
theorem components_of_pop? (h : p.pop? = some q) : p.components ≠ [] ∧ q.components = p.components.dropLast := by
  by_cases hcrumbs : crumbs p.text.toList = []
  · rw [pop?_of_crumbs_nil hcrumbs] at h
    split at h
    · rename_i hlead
      obtain rfl := Option.some.inj h
      rw [components_eq p, hlead, hcrumbs]
      exact ⟨List.cons_ne_nil _ _, rfl⟩
    · cases h
  · obtain ⟨kept, hkept, hfilter, hlast, hpop⟩ := pop?_of_crumbs hcrumbs
    obtain rfl := Option.some.inj (hpop.symm.trans h)
    obtain ⟨c, -, hc⟩ := filterMap_crumbs hcrumbs
    refine ⟨by simp [components_eq, hc], ?_⟩
    rw [components_eq, components_eq, String.toList_ofList, splitLead_kept hkept hlast,
      crumbs_lead_append hkept hlast, hfilter, hc, ← List.append_assoc, List.dropLast_concat]

theorem components_of_pop?_none (h : p.pop? = none) : p.components = if p.isAbsolute then [.root] else [] := by
  have hcrumbs := crumbs_of_pop?_none h
  rw [pop?_of_crumbs_nil hcrumbs] at h
  rw [components_eq, hcrumbs]
  cases hlead : (splitLead p.text.toList).1 with
  | root => simp [isAbsolute_iff.mpr hlead, Lead.component?]
  | current => simp [hlead] at h
  | nothing =>
      have hrelative : p.isAbsolute = false := by
        rw [Bool.eq_false_iff, ne_eq, isAbsolute_iff, hlead]
        simp
      simp [hrelative, Lead.component?]

theorem text_of_components (h : p.components = []) : p = ⟨""⟩ := by
  rw [components_eq, List.append_eq_nil_iff] at h
  obtain ⟨hopening, hrest⟩ := h
  have hcrumbs : crumbs p.text.toList = [] := by
    by_contra hne
    obtain ⟨c, -, hc⟩ := filterMap_crumbs hne
    simp [hc] at hrest
  have hlead : (splitLead p.text.toList).1 = .nothing := by
    cases hlead : (splitLead p.text.toList).1 <;> simp_all [Lead.component?]
  obtain ⟨hroot, hcurrent, hslash⟩ := (splitLead_eq_nothing_iff _).mp hlead
  -- Only the first segment may be there, and it has to be empty: otherwise the path would open with a slash or a dot.
  have htext : p.text.toList = [] := by
    cases hss : segments p.text.toList with
    | nil => exact absurd hss (segments_ne_nil _)
    | cons s ss =>
        have hblank : isBlank s = true := by
          have hall := List.filter_eq_nil_iff.mp hcrumbs s (hss ▸ List.mem_cons_self ..)
          simpa using hall
        have hcs := ofSegments_segments p.text.toList
        rw [hss] at hcs
        by_cases hnil : ss = []
        · subst hnil
          rcases isBlank_iff.mp hblank with rfl | rfl
          · exact hcs.symm
          · exact absurd hcs.symm hcurrent
        · rw [ofSegments_cons hnil] at hcs
          rcases isBlank_iff.mp hblank with rfl | rfl
          · exact absurd (congrArg List.head? hcs.symm) hroot
          · exact absurd ⟨_, hcs⟩ hslash
  exact congrArg Path.mk (String.toList_eq_nil_iff.mp htext)

/-! ## Popping again and again -/

/-- What popping a path so many times leaves. -/
def above : Nat → Path → Option Path
  | 0, p => some p
  | n + 1, p => p.pop?.bind (above n)

theorem above_add (m n : Nat) (p : Path) : p.above (m + n) = (p.above m).bind (above n) := by
  induction m generalizing p with
  | zero => simp [above]
  | succ m ih =>
      rw [Nat.add_right_comm, above, above]
      cases p.pop? with
      | none => rfl
      | some q => exact ih q

/-- Each pop takes one component, so there are no more pops than components. -/
theorem components_above {i : Nat} (h : p.above i = some q) : i ≤ p.components.length ∧
    q.components = p.components.take (p.components.length - i) ∧ q.isAbsolute = p.isAbsolute := by
  induction i generalizing p with
  | zero =>
      obtain rfl : p = q := Option.some.inj h
      simp
  | succ i ih =>
      obtain ⟨r, hpop, hr⟩ := Option.bind_eq_some_iff.mp h
      obtain ⟨hne, hcomponents⟩ := components_of_pop? hpop
      obtain ⟨hle, htake, habsolute⟩ := ih hr
      have hpos := List.length_pos_iff.mpr hne
      have hlength : r.components.length = p.components.length - 1 := by simp [hcomponents]
      refine ⟨by omega, ?_, habsolute.trans (pops_of_pop? hpop).isAbsolute⟩
      rw [htake, hlength, hcomponents, List.dropLast_eq_take, List.take_take]
      congr 1
      omega

theorem exists_above_top (p : Path) : ∃ n top, p.above n = some top ∧ top.pop? = none := by
  induction hn : p.components.length generalizing p with
  | zero =>
      cases hpop : p.pop? with
      | none => exact ⟨0, p, rfl, hpop⟩
      | some q => exact absurd (List.length_eq_zero_iff.mp hn) (components_of_pop? hpop).1
  | succ n ih =>
      cases hpop : p.pop? with
      | none => exact ⟨0, p, rfl, hpop⟩
      | some q =>
          obtain ⟨m, top, htop, hend⟩ := ih q (by simp [(components_of_pop? hpop).2, hn])
          exact ⟨m + 1, top, by rw [above, hpop]; exact htop, hend⟩

theorem getElem?_popUpTo {n : Nat} (hn : p.components.length ≤ n) (i : Nat) : (popUpTo n p)[i]? = p.above i := by
  induction n generalizing p i with
  | zero =>
      have hpop : p.pop? = none := by
        cases hpop : p.pop? with
        | none => rfl
        | some q => exact absurd (List.length_eq_zero_iff.mp (Nat.le_zero.mp hn)) (components_of_pop? hpop).1
      cases i <;> simp [popUpTo, above, hpop]
  | succ n ih =>
      cases i with
      | zero => rfl
      | succ i =>
          cases hpop : p.pop? with
          | none => simp [popUpTo, above, hpop]
          | some q =>
              have hq : q.components.length ≤ n := by
                rw [(components_of_pop? hpop).2, List.length_dropLast]
                omega
              simp [popUpTo, above, hpop, ih hq]

theorem getElem?_ancestors (p : Path) (i : Nat) : p.ancestors[i]? = p.above i :=
  getElem?_popUpTo (Nat.le_refl _) i

end Path

/-! ## The first candidate -/

namespace Settings

variable {start found p : Path} {present : Path → Bool}

/-- The `j`th name in the directory that `i` pops lead to. -/
def candidate? (start : Path) (i j : Nat) : Option Path :=
  (start.above i).bind (fun directory => fileNames[j]?.map directory.join)

theorem candidate?_eq_some_iff {i j : Nat} : candidate? start i j = some p ↔
    ∃ directory name, start.ancestors[i]? = some directory ∧ fileNames[j]? = some name ∧ directory.join name = p := by
  simp only [candidate?, Option.bind_eq_some_iff, Option.map_eq_some_iff, Path.getElem?_ancestors]
  grind

theorem mem_candidates_iff : p ∈ candidates start ↔ ∃ i j, candidate? start i j = some p := by
  simp only [candidates, List.mem_flatMap, List.mem_map, candidate?_eq_some_iff]
  constructor
  · rintro ⟨directory, hdirectory, name, hname, hp⟩
    obtain ⟨i, hi⟩ := List.mem_iff_getElem?.mp hdirectory
    obtain ⟨j, hj⟩ := List.mem_iff_getElem?.mp hname
    exact ⟨i, j, directory, name, hi, hj, hp⟩
  · rintro ⟨i, j, directory, name, hi, hj, hp⟩
    exact ⟨directory, List.mem_of_getElem? hi, name, List.mem_of_getElem? hj, hp⟩

/-- No candidate before this one is there: none in a directory further down, and none of an earlier name in the same. -/
def NoneBefore (present : Path → Bool) (start : Path) (i j : Nat) : Prop :=
  ∀ i' j' p, i' < i ∨ i' = i ∧ j' < j → candidate? start i' j' = some p → present p = false

theorem first_of_find? (h : (candidates start).find? present = some found) :
    ∃ i j, candidate? start i j = some found ∧ present found = true ∧ NoneBefore present start i j := by
  -- The directory is the first in which any name is there, and there the name is the first.
  rw [candidates, List.find?_flatMap] at h
  obtain ⟨below, directory, above, hdirectories, hhere, hbelow⟩ := List.findSome?_eq_some_iff.mp h
  obtain ⟨hpresent, as, bs, hmap, hbefore⟩ := List.find?_eq_some_iff_append.mp hhere
  obtain ⟨names, rest, hnames, rfl, hrest⟩ := List.map_eq_append_iff.mp hmap
  obtain ⟨name, names', rfl, rfl, -⟩ := List.map_eq_cons_iff.mp hrest
  refine ⟨below.length, names.length, ?_, hpresent, ?_⟩
  · exact candidate?_eq_some_iff.mpr ⟨directory, name, by simp [hdirectories], by simp [hnames], rfl⟩
  · intro i' j' p hearlier hp
    obtain ⟨directory', name', hi', hj', rfl⟩ := candidate?_eq_some_iff.mp hp
    rcases hearlier with hlt | ⟨rfl, hlt⟩
    · rw [hdirectories, List.getElem?_append_left hlt] at hi'
      have hnone := List.find?_eq_none.mp (hbelow directory' (List.mem_of_getElem? hi'))
      simpa using hnone _ (List.mem_map_of_mem (List.mem_of_getElem? hj'))
    · obtain rfl : directory = directory' := by simpa [hdirectories] using hi'
      rw [hnames, List.getElem?_append_left hlt] at hj'
      simpa using hbefore _ (List.mem_map_of_mem (List.mem_of_getElem? hj'))

theorem NoneBefore.unique {i j i' j' : Nat} (h : NoneBefore present start i j) (h' : NoneBefore present start i' j')
    (hp : candidate? start i j = some p) (hpresent : present p = true)
    (hfound : candidate? start i' j' = some found) (hthere : present found = true) : p = found := by
  have hle : ¬ (i' < i ∨ i' = i ∧ j' < j) := fun hlt => by simp [h i' j' found hlt hfound] at hthere
  have hge : ¬ (i < i' ∨ i = i' ∧ j < j') := fun hlt => by simp [h' i j p hlt hp] at hpresent
  obtain ⟨rfl, rfl⟩ : i = i' ∧ j = j' := by omega
  exact Option.some.inj (hp.symm.trans hfound)

theorem find?_candidates_eq_some_iff : (candidates start).find? present = some found ↔
    ∃ i j, candidate? start i j = some found ∧ present found = true ∧ NoneBefore present start i j := by
  refine ⟨first_of_find?, fun ⟨i, j, hfound, hpresent, hfirst⟩ => ?_⟩
  cases hfind : (candidates start).find? present with
  | none =>
      exact absurd hpresent (List.find?_eq_none.mp hfind found (mem_candidates_iff.mpr ⟨i, j, hfound⟩))
  | some p =>
      obtain ⟨i', j', hp, hthere, hfirst'⟩ := first_of_find? hfind
      rw [hfirst.unique hfirst' hfound hpresent hp hthere]

theorem find?_candidates_eq_none_iff : (candidates start).find? present = none ↔
    ∀ i j p, candidate? start i j = some p → present p = false := by
  simp only [List.find?_eq_none, mem_candidates_iff, Bool.not_eq_true]
  constructor
  · exact fun h i j p hp => h p ⟨i, j, hp⟩
  · exact fun h p ⟨i, j, hp⟩ => h i j p hp

/-- A search, whatever paths are there, goes over the names in the directory where it starts, then in what popping the
path leaves, as long as there is something to pop, and finds the first of these paths that is there. A path of `n`
components is popped at most `n` times, one component each time, until the root or, if the path is relative, the empty
path is left. -/
theorem search_order (present : Path → Bool) (start : Path) :
    fileNames = ["meridian.toml", "meridian.yaml", ".meridian.toml", ".meridian.yaml"] ∧
    (∀ found, (candidates start).find? present = some found ↔
      ∃ i j, candidate? start i j = some found ∧ present found = true ∧
        ∀ i' j' p, i' < i ∨ i' = i ∧ j' < j → candidate? start i' j' = some p → present p = false) ∧
    ((candidates start).find? present = none ↔ ∀ i j p, candidate? start i j = some p → present p = false) ∧
    (∀ fs : FileSystem, find fs start = (candidates start).find? fs.pathExists) ∧
    (∀ i directory, start.above i = some directory →
      directory.components = start.components.take (start.components.length - i)) ∧
    ∃ n ≤ start.components.length, ∃ top, start.above n = some top ∧ top.pop? = none ∧
      (∀ i, n < i → start.above i = none) ∧ (start.isAbsolute = true → top.components = [.root]) ∧
      (start.isAbsolute = false → top = ⟨""⟩) := by
  refine ⟨rfl, fun found => find?_candidates_eq_some_iff, find?_candidates_eq_none_iff, fun fs => rfl,
    fun i directory h => (Path.components_above h).2.1, ?_⟩
  obtain ⟨n, top, htop, hend⟩ := start.exists_above_top
  obtain ⟨hn, -, habsolute⟩ := Path.components_above htop
  have hleft := Path.components_of_pop?_none hend
  rw [habsolute] at hleft
  refine ⟨n, hn, top, htop, hend, fun i hi => ?_, fun hroot => by simpa [hroot] using hleft,
    fun hrelative => Path.text_of_components (by simpa [hrelative] using hleft)⟩
  obtain ⟨k, rfl⟩ := Nat.exists_eq_add_of_lt hi
  rw [Nat.add_assoc, Path.above_add, htop]
  simp [Path.above, hend]

-- What is there need not be a file, and the last name here counts before the first one above.
example : find ⟨.directory [("a", .directory [(".meridian.yaml", .empty)]), ("meridian.toml", .file .empty)], []⟩
    ⟨"/a//b/../."⟩ = some ⟨"/a/.meridian.yaml"⟩ := by decide

end Settings

end BuildRound
