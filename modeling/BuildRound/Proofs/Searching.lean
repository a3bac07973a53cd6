import BuildRound.Proofs.Crumbs
import BuildRound.Settings.Load
import Mathlib.Data.List.Induction

/-!
# Where settings are searched

Settings are searched by popping a path, so in the places that the path leads past, back to where it begins. These are
the directory and those above it as long as no segment leads up: then an absolute path goes back to the root, and a
relative one to the current directory.
-/

namespace BuildRound

open BuildRound.Path (crumbs isBlank)

/-! ## Places -/

namespace FileTree.Place

variable {p q : Place}

def lineageFrom (here : FileTree) : List (FileTree × String) → List Place
  | [] => [⟨here, []⟩]
  | (t, name) :: above => ⟨here, (t, name) :: above⟩ :: lineageFrom t above

/-- A place and all above it, up to the root. -/
def lineage (p : Place) : List Place :=
  lineageFrom p.here p.above

/-- The places that some segments lead past, from here on. -/
def trail (p : Place) : List (List Char) → List Place
  | [] => [p]
  | segment :: rest =>
      p :: match p.step segment with
        | .error _ => []
        | .ok q => q.trail rest

/-- What goes by this name in a directory. -/
def entry? (p : Place) (name : String) : Option Place :=
  match p.here with
  | .file _ => none
  | .directory entries => (entries.lookup name).map (⟨·, (p.here, name) :: p.above⟩)

/-- What goes by the preferred of the names for settings. -/
def settings? (p : Place) : Option Place :=
  Settings.fileNames.findSome? p.entry?

theorem lineage_eq_cons (p : Place) : p.lineage = p :: p.lineage.tail := by
  obtain ⟨here, _ | ⟨⟨t, name⟩, above⟩⟩ := p <;> rfl

/-! ## Walking -/

theorem walk_append (p : Place) (ss ts : List (List Char)) : p.walk (ss ++ ts) = (p.walk ss).bind (·.walk ts) := by
  induction ss generalizing p with
  | nil => rfl
  | cons s ss ih =>
      simp only [List.cons_append, walk]
      cases p.step s with
      | error e => rfl
      | ok q => exact ih q

theorem walk_singleton (p : Place) (s : List Char) : p.walk [s] = p.step s := by
  simp only [walk]
  cases p.step s <;> rfl

theorem isDirectory_of_step {s : List Char} (h : p.step s = .ok q) : p.here.isDirectory = true := by
  cases hhere : p.here with
  | file content => simp [step, hhere] at h
  | directory entries => rfl

theorem isDirectory_of_walk {ss : List (List Char)} (h : p.walk ss = .ok q) (hq : q.here.isDirectory = true) :
    p.here.isDirectory = true := by
  cases ss with
  | nil => cases h; exact hq
  | cons s ss =>
      cases hstep : p.step s with
      | error e => simp [walk, hstep] at h
      | ok p' => exact isDirectory_of_step hstep

theorem step_blank {s : List Char} (hp : p.here.isDirectory = true) (hs : isBlank s = true) : p.step s = .ok p := by
  cases hhere : p.here with
  | file content => simp [hhere, isDirectory] at hp
  | directory entries => simp [step, hhere, Option.isNone_iff_eq_none.mp hs]

/-- Between directories blank segments lead nowhere else; after a file they would lead to an error. -/
theorem walk_crumbs_iff {ss : List (List Char)} (hp : p.here.isDirectory = true) (hq : q.here.isDirectory = true) :
    p.walk (ss.filter (!isBlank ·)) = .ok q ↔ p.walk ss = .ok q := by
  induction ss generalizing p with
  | nil => rfl
  | cons s ss ih =>
      cases hs : isBlank s with
      | true =>
          simp only [List.filter_cons, hs, walk, step_blank hp hs]
          exact ih hp
      | false =>
          simp only [List.filter_cons, hs, walk, Bool.not_false, if_true]
          cases hstep : p.step s with
          | error e => simp
          | ok p' =>
              simp only
              constructor
              · exact fun h => (ih (isDirectory_of_walk h hq)).mp h
              · exact fun h => (ih (isDirectory_of_walk h hq)).mpr h

theorem trail_concat {ss : List (List Char)} {s : List Char} {r : Place} (h : p.walk ss = .ok q)
    (hstep : q.step s = .ok r) : p.trail (ss ++ [s]) = p.trail ss ++ [r] := by
  induction ss generalizing p with
  | nil =>
      obtain rfl : p = q := by cases h; rfl
      simp [trail, hstep]
  | cons t ss ih =>
      simp only [walk] at h
      cases ht : p.step t with
      | error e => simp [ht] at h
      | ok p' => simp [trail, ht, ih (by simpa [ht] using h)]

/-- What a step down leads to. -/
theorem step_down {entries : List (String × FileTree)} (hhere : p.here = .directory entries) {s : List Char}
    (hs : isBlank s = false) (hup : Component.ofSegment? s ≠ some .parent) :
    p.step s = if (String.ofList s).utf8ByteSize > maxName then .error .nameTooLong
      else (entries.lookup (String.ofList s)).elim (.error .notFound)
        (fun t => .ok ⟨t, (p.here, String.ofList s) :: p.above⟩) := by
  cases hcomponent : Component.ofSegment? s with
  | none => simp [isBlank, hcomponent] at hs
  | some c =>
      cases c with
      | parent => exact absurd hcomponent hup
      | _ =>
          simp only [step, hhere, hcomponent]
          cases entries.lookup (String.ofList s) <;> rfl

/-- Every segment that counts leads down, but for `..`. -/
theorem lineage_step {s : List Char} (hs : isBlank s = false) (hup : Component.ofSegment? s ≠ some .parent)
    (h : p.step s = .ok q) : q.lineage = q :: p.lineage := by
  cases hhere : p.here with
  | file content => simp [step, hhere] at h
  | directory entries =>
      rw [step_down hhere hs hup] at h
      split at h
      · cases h
      · cases hlookup : entries.lookup (String.ofList s) with
        | none => simp [hlookup] at h
        | some t =>
            obtain rfl : _ = q := by simpa [hlookup] using h
            rfl

/-- Unless a segment leads up, the places on the way are those above the one that it leads to. -/
theorem lineage_walk {ss : List (List Char)}
    (hss : ∀ s ∈ ss, isBlank s = false ∧ Component.ofSegment? s ≠ some .parent) (h : p.walk ss = .ok q) :
    q.lineage = (p.trail ss).reverse ++ p.lineage.tail := by
  induction ss using List.reverseRecOn generalizing q with
  | nil =>
      obtain rfl : p = q := by cases h; rfl
      exact p.lineage_eq_cons
  | append_singleton ss s ih =>
      rw [walk_append] at h
      cases hss' : p.walk ss with
      | error e => simp [hss', Except.bind] at h
      | ok r =>
          simp only [hss', Except.bind, walk_singleton] at h
          have hs := hss s (by simp)
          rw [lineage_step hs.1 hs.2 h, ih (fun t ht => hss t (by simp [ht])) hss', trail_concat hss' h]
          simp

/-! ## Names of settings files -/

/-- A name that a step can take as it is. -/
structure Plain (name : String) : Prop where
  slash : '/' ∉ name.toList
  nul : Char.ofNat 0 ∉ name.toList
  component : Component.ofSegment? name.toList = some (.name name)
  size : name.utf8ByteSize ≤ 14

theorem plain_of_mem {name : String} (h : name ∈ Settings.fileNames) : Plain name := by
  simp only [Settings.fileNames, List.mem_cons, List.not_mem_nil, or_false] at h
  rcases h with rfl | rfl | rfl | rfl <;> exact ⟨by decide, by decide, by decide, by decide⟩

theorem step_plain {name : String} (h : Plain name) (hp : p.here.isDirectory = true) :
    (p.step name.toList).toOption = p.entry? name := by
  cases hhere : p.here with
  | file content => simp [hhere, isDirectory] at hp
  | directory entries =>
      have hsize : ¬ name.utf8ByteSize > maxName := by
        have := h.size
        simp only [maxName]
        omega
      rw [step_down hhere (by simp [isBlank, h.component]) (by simp [h.component])]
      simp only [String.ofList_toList, hsize, if_false, entry?, hhere]
      cases entries.lookup name <;> rfl

end FileTree.Place

open FileTree (Place maxPath)

namespace FileSystem

variable {fs : FileSystem} {base here : Place} {p q : Path}

/-- The places that a path leads past, the last one first. -/
def passed (fs : FileSystem) (p : Path) : List Place :=
  match fs.start p with
  | .error _ => []
  | .ok base => (base.trail (crumbs p.text.toList)).reverse

/-- Looking up a path begins here, and so it does when a name is joined to the path. -/
structure Begins (fs : FileSystem) (base : Place) (p : Path) : Prop where
  nul : Char.ofNat 0 ∉ p.text.toList
  size : p.text.utf8ByteSize + 15 ≤ maxPath
  base : (if p.isAbsolute then .ok fs.top else fs.top.walk (fs.current.map String.toList)) = .ok base

theorem begins_of_start (hstart : fs.start p = .ok base) (hsize : p.text.utf8ByteSize + 15 ≤ maxPath) :
    fs.Begins base p := by
  unfold start at hstart
  split at hstart
  · cases hstart
  · split at hstart
    · cases hstart
    · split at hstart
      · cases hstart
      · rename_i hnul _ _
        exact ⟨by simpa using hnul, hsize, hstart⟩

theorem Begins.pop (h : fs.Begins base p) (hpop : p.Pops q) : fs.Begins base q where
  nul hmem := h.nul (hpop.text.subset hmem)
  size := Nat.le_trans (Nat.add_le_add_right hpop.utf8ByteSize_le 15) h.size
  base := hpop.isAbsolute ▸ h.base

theorem Begins.start_join (h : fs.Begins base p) {name : String} (hname : Place.Plain name) :
    fs.start (p.join name) = .ok base := by
  have hnul : Char.ofNat 0 ∉ (p.join name).text.toList := by
    intro hmem
    rcases Path.mem_join hmem with hmem | hmem | hmem
    · exact h.nul hmem
    · cases hmem
    · exact hname.nul hmem
  have hsize : ¬ (p.join name).text.utf8ByteSize > maxPath := by
    have hjoin := Path.utf8ByteSize_join_le p name
    have hp := h.size
    have hn := hname.size
    omega
  have hne : (p.join name).text.isEmpty = false := by
    have hname : name.toList ≠ [] := fun hnil => by simpa [hnil, Component.ofSegment?] using hname.component
    simpa [String.isEmpty_iff] using p.join_ne_nil hname
  simp [start, hnul, hsize, hne, Path.isAbsolute_join hname.slash, h.base]

/-- The path leads to this directory, and a name that is joined to it is looked up there. -/
structure Leads (fs : FileSystem) (base here : Place) (p : Path) : Prop where
  begins : fs.Begins base p
  walk : base.walk (crumbs p.text.toList) = .ok here
  directory : here.here.isDirectory = true

theorem Leads.find_join (h : fs.Leads base here p) {name : String} (hname : Place.Plain name) :
    fs.find (p.join name) = here.step name.toList := by
  obtain ⟨ss, hsegments, hcrumbs⟩ := Path.segments_join hname.slash p
  have hbase := Place.isDirectory_of_walk h.walk h.directory
  have hwalk : base.walk ss = .ok here := (Place.walk_crumbs_iff hbase h.directory).mp (hcrumbs ▸ h.walk)
  simp [find, h.begins.start_join hname, hsegments, Place.walk_append, hwalk, Except.bind, Place.walk_singleton]

/-- Popping a path leads back by one place, or nowhere if no place is left. -/
theorem Leads.pop (h : fs.Leads base here p) (hpop : p.pop? = some q) :
    (crumbs p.text.toList = [] ∧ crumbs q.text.toList = [] ∧ fs.Leads base here q) ∨
      ∃ before s, crumbs p.text.toList = crumbs q.text.toList ++ [s] ∧ before.step s = .ok here ∧
        fs.Leads base before q := by
  have hcrumbs := (Path.pops_of_pop? hpop).crumbs
  have hbegins := h.begins.pop (Path.pops_of_pop? hpop)
  by_cases hnil : crumbs p.text.toList = []
  · have hq : crumbs q.text.toList = [] := by simp [hcrumbs, hnil]
    exact .inl ⟨hnil, hq, hbegins, by rw [hq, ← hnil]; exact h.walk, h.directory⟩
  · have hsplit : crumbs p.text.toList = crumbs q.text.toList ++ [(crumbs p.text.toList).getLast hnil] := by
      rw [hcrumbs, List.dropLast_append_getLast]
    have hwalk := h.walk
    rw [hsplit, Place.walk_append] at hwalk
    cases hbefore : base.walk (crumbs q.text.toList) with
    | error e => simp [hbefore, Except.bind] at hwalk
    | ok before =>
        simp only [hbefore, Except.bind, Place.walk_singleton] at hwalk
        exact .inr ⟨before, _, hsplit, hwalk, hbegins, hbefore, Place.isDirectory_of_step hwalk⟩

/-! ## Searching -/

/-- The preferred settings file that a search meets at this path. -/
def hit? (fs : FileSystem) (p : Path) : Option Path :=
  (Settings.fileNames.map p.join).find? fs.pathExists

theorem find_eq_findSome? (fs : FileSystem) (p : Path) : Settings.find fs p = p.ancestors.findSome? fs.hit? := by
  rw [Settings.find, Settings.candidates, List.find?_flatMap]
  rfl

/-- Trying one after another finds the first that leads somewhere. -/
theorem map_find?_toBool {α ε β : Type} {f : α → Except ε β} {g : α → Option β} {as : List α}
    (h : ∀ a ∈ as, (f a).toOption = g a) :
    (as.find? (fun a => (f a).toBool)).map f = (as.findSome? g).map .ok := by
  induction as with
  | nil => rfl
  | cons a as ih =>
      have hrest := ih (fun b hb => h b (List.mem_cons_of_mem _ hb))
      simp only [List.find?_cons, List.findSome?_cons, ← h a List.mem_cons_self]
      cases ha : f a with
      | error e => exact hrest
      | ok b => simp [Except.toBool, Except.toOption, ha]

theorem Leads.map_hit? (h : fs.Leads base here p) : (fs.hit? p).map fs.find = here.settings?.map .ok := by
  have hentry : ∀ name ∈ Settings.fileNames, (fs.find (p.join name)).toOption = here.entry? name := by
    intro name hmem
    have hname := Place.plain_of_mem hmem
    rw [h.find_join hname, Place.step_plain hname h.directory]
  rw [hit?, List.find?_map, Option.map_map]
  exact map_find?_toBool hentry

theorem Leads.map_findSome?_cons (h : fs.Leads base here p) {ps : List Path} {places : List Place}
    (hrest : (ps.findSome? fs.hit?).map fs.find = (places.findSome? Place.settings?).map .ok) :
    ((p :: ps).findSome? fs.hit?).map fs.find = ((here :: places).findSome? Place.settings?).map .ok := by
  have hhit := h.map_hit?
  simp only [List.findSome?_cons]
  cases hp : fs.hit? p with
  | none =>
      have hnone : here.settings? = none := by simpa [hp] using hhit.symm
      simpa [hnone] using hrest
  | some found =>
      obtain ⟨place, hplace, -⟩ := Option.map_eq_some_iff.mp (hhit.symm.trans (congrArg (Option.map fs.find) hp))
      simpa [hp, hplace] using hhit

/-- A search that starts here meets the settings of the places that the path leads past. -/
theorem Leads.map_findSome? (h : fs.Leads base here p) {n : Nat} (hn : (crumbs p.text.toList).length ≤ n) :
    ((Path.popUpTo n p).findSome? fs.hit?).map fs.find =
      ((base.trail (crumbs p.text.toList)).reverse.findSome? Place.settings?).map .ok := by
  -- A path without crumbs, such as `.`, leads nowhere else than the path it pops to.
  have hstill {here : Place} {p : Path} (h : fs.Leads base here p) (hnil : crumbs p.text.toList = []) :
      base = here := by
    simpa [hnil, Place.walk] using h.walk
  induction n generalizing p here with
  | zero =>
      have hnil := List.length_eq_zero_iff.mp (Nat.le_zero.mp hn)
      obtain rfl := hstill h hnil
      rw [hnil]
      exact h.map_findSome?_cons rfl
  | succ n ih =>
      cases hpop : p.pop? with
      | none =>
          have hnil := Path.crumbs_of_pop?_none hpop
          obtain rfl := hstill h hnil
          rw [hnil, Path.popUpTo, hpop]
          exact h.map_findSome?_cons rfl
      | some q =>
          rw [Path.popUpTo, hpop]
          rcases h.pop hpop with ⟨hp, hq, hrest⟩ | ⟨before, s, hcrumbs, hstep, hrest⟩
          · have hsame := ih hrest (by simp [hq])
            rw [hq] at hsame
            rw [hp]
            obtain rfl := hstill h hp
            refine (h.map_findSome?_cons hsame).trans ?_
            cases hbase : base.settings? <;> simp [Place.trail, hbase]
          · have hlength : (crumbs q.text.toList).length ≤ n := by
              simpa [hcrumbs] using hn
            rw [hcrumbs, Place.trail_concat hrest.walk hstep, List.reverse_append]
            exact h.map_findSome?_cons (ih hrest hlength)

theorem leads_of_find (hfind : fs.find p = .ok here) (hdirectory : here.here.isDirectory = true)
    (hsize : p.text.utf8ByteSize + 15 ≤ maxPath) : ∃ base, fs.start p = .ok base ∧ fs.Leads base here p := by
  unfold find at hfind
  cases hstart : fs.start p with
  | error e => simp [hstart] at hfind
  | ok base =>
      simp only [hstart] at hfind
      have hbase := Place.isDirectory_of_walk hfind hdirectory
      exact ⟨base, rfl, begins_of_start hstart hsize, (Place.walk_crumbs_iff hbase hdirectory).mpr hfind, hdirectory⟩

/-- The settings that are found for a directory are the preferred ones of the nearest place, from there up to the root,
that holds any. -/
def FindsNearest (fs : FileSystem) (start : Path) : Prop :=
  ∀ here, fs.find start = .ok here → here.here.isDirectory = true →
    (Settings.find fs start).map fs.find = (here.lineage.findSome? Place.settings?).map .ok

/-- The settings that are found for a directory are the preferred ones of the nearest place that holds any, among those
that the path leads past. Unless the path leads up somewhere, these are the directory and all above it for an absolute
path, and for a relative one those of them up to the current directory. The path has to leave room for a name. -/
theorem find_passed (hfind : fs.find p = .ok here) (hdirectory : here.here.isDirectory = true)
    (hsize : p.text.utf8ByteSize + 15 ≤ maxPath) :
    (Settings.find fs p).map fs.find = ((fs.passed p).findSome? Place.settings?).map .ok ∧
      (.parent ∉ p.components → p.isAbsolute = true → fs.passed p = here.lineage) ∧
      (.parent ∉ p.components → p.isAbsolute = false → ∃ current,
        fs.top.walk (fs.current.map String.toList) = .ok current ∧
          here.lineage = fs.passed p ++ current.lineage.tail) := by
  obtain ⟨base, hstart, hleads⟩ := leads_of_find hfind hdirectory hsize
  have hpassed : fs.passed p = (base.trail (crumbs p.text.toList)).reverse := by simp [passed, hstart]
  have hlineage : .parent ∉ p.components → here.lineage = fs.passed p ++ base.lineage.tail := by
    intro hup
    rw [hpassed]
    refine Place.lineage_walk (fun s hs => ?_) hleads.walk
    obtain ⟨c, hc, hmem⟩ := Path.component_of_mem_crumbs hs
    refine ⟨by simp [isBlank, hc], fun hparent => hup ?_⟩
    rwa [← Option.some.inj (hc.symm.trans hparent)]
  refine ⟨?_, fun hup habsolute => ?_, fun hup hrelative => ⟨base, ?_, hlineage hup⟩⟩
  · rw [find_eq_findSome?, hpassed]
    exact hleads.map_findSome? p.length_crumbs_le
  · have hbase := hleads.begins.base
    rw [if_pos habsolute] at hbase
    cases hbase
    simpa [top, Place.lineage, Place.lineageFrom] using (hlineage hup).symm
  · have hbase := hleads.begins.base
    rwa [if_neg (by simp [hrelative])] at hbase

/-- A settings file beside the directory that is asked for. -/
def aside : FileSystem where
  root := .directory [("a", .directory [("meridian.toml", .file .empty)])]

/-- A settings file above the current directory. -/
def aloft : FileSystem where
  root := .directory [("a", .empty), ("meridian.toml", .file .empty)]
  current := ["a"]

/-- From the current directory's absolute path the search goes on to the directory above it. -/
theorem find_passed_aloft :
    aloft.find ⟨"/a/."⟩ = .ok ⟨.empty, [(aloft.root, "a")]⟩ ∧ FileTree.empty.isDirectory = true ∧
      Settings.find aloft ⟨"/a/."⟩ = some ⟨"/meridian.toml"⟩ ∧
      (Settings.find aloft ⟨"/a/."⟩).map aloft.find =
        ((aloft.passed ⟨"/a/."⟩).findSome? Place.settings?).map .ok ∧
      aloft.passed ⟨"/a/."⟩ = Place.lineage ⟨.empty, [(aloft.root, "a")]⟩ :=
  have hfound := @find_passed aloft _ ⟨"/a/."⟩ rfl rfl (by decide)
  ⟨rfl, rfl, rfl, hfound.1, hfound.2.1 (by decide) rfl⟩

/-- A search looks below the directory that is asked for, and not above the current one. -/
theorem not_findsNearest : ¬ aside.FindsNearest ⟨"/a/.."⟩ ∧ ¬ aloft.FindsNearest ⟨"."⟩ := by
  constructor
  · intro h
    have hfound : Settings.find aside ⟨"/a/.."⟩ = some ⟨"/a/meridian.toml"⟩ := rfl
    have hnone : aside.top.lineage.findSome? Place.settings? = none := rfl
    have hnearest := h aside.top rfl rfl
    rw [hfound, hnone] at hnearest
    cases hnearest
  · intro h
    have hmissed : Settings.find aloft ⟨"."⟩ = none := rfl
    have hthere : (Place.lineage ⟨.empty, [(aloft.root, "a")]⟩).findSome? Place.settings? =
      some ⟨.file .empty, [(aloft.root, "meridian.toml")]⟩ := rfl
    have hnearest := h ⟨.empty, [(aloft.root, "a")]⟩ rfl rfl
    rw [hmissed, hthere] at hnearest
    cases hnearest

end FileSystem

end BuildRound
