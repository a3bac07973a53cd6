import BuildRound.Proofs.Launch
import BuildRound.Proofs.Reading
import BuildRound.Settings.Load

/-!
# Settings that get out

Whatever files there are, whatever they hold and however their formats are parsed, settings get out only if they are
valid, and then a build round takes them: its options are checked in another unit, but by the same numbers. A file that
is found and of no use is never passed over for another one.
-/

namespace BuildRound

/-! ## The two validations -/

theorem BuildSettings.validate_iff (b : BuildSettings) : b.validate = .ok () ↔ 0 < b.jobs ∧ 0 < b.reportSeconds := by
  unfold validate
  split
  · simp [*]
  · split <;> simp [*, Nat.pos_iff_ne_zero]

theorem Options.validate_iff (o : Options) : o.validate = .ok () ↔ 0 < o.jobs ∧ 0 < o.reportInterval := by
  unfold validate
  split
  · simp [*]
  · split <;> simp [*, Nat.pos_iff_ne_zero]

/-- A whole number of seconds lasts some time just if it is not zero. -/
theorem Nanos.ofSeconds_pos (n : Nat) : 0 < ofSeconds n ↔ 0 < n := by
  simp [ofSeconds]

theorem Options.validate_ofSettings_iff (b : BuildSettings) :
    (ofSettings b).validate = .ok () ↔ b.validate = .ok () := by
  rw [Options.validate_iff, BuildSettings.validate_iff, ofSettings, Nanos.ofSeconds_pos]

namespace Settings

variable {loader : Loader} {fs : FileSystem} {p : Path} {s : Settings} {e : ConfigError}

theorem validate_iff (s : Settings) :
    s.validate = .ok () ↔ s.build.validate = .ok () ∧ s.logging.validate = .ok () := by
  unfold validate
  cases s.build.validate <;> simp

/-- The defaults are valid on every machine, whether it can tell its processors or not. -/
theorem validate_default (m : Machine) : (Settings.default m).validate = .ok () := by
  have hlevel : asciiLower "warn" ∈ levelNames := by decide
  exact (validate_iff _).mpr ⟨(BuildSettings.validate_iff _).mpr ⟨m.jobs_pos, Nat.zero_lt_succ 14⟩, if_pos hlevel⟩

/-- Settings that a build round takes: it goes on to call its engine. -/
structure Accepted (s : Settings) : Prop where
  valid : s.validate = .ok ()
  options : (Options.ofSettings s.build).validate = .ok ()
  rounds : ∀ {σ : Type} (l : Launch σ), l.setup.options = Options.ofSettings s.build →
    ∃ calls, l.record.calls = .prepare :: calls

theorem accepted_of_valid (h : s.validate = .ok ()) : s.Accepted := by
  have hoptions := (Options.validate_ofSettings_iff s.build).mpr ((validate_iff s).mp h).1
  refine ⟨h, hoptions, fun l hl => ?_⟩
  obtain ⟨t, u, v, r, hpassage⟩ := l.passage (hl ▸ hoptions)
  rw [hpassage.record, Record.calls_append, hpassage.opening.calls]
  exact ⟨_, rfl⟩

/-! ## Loading a file -/

/-- Why the file at a path is of no use. -/
inductive Unusable (loader : Loader) (fs : FileSystem) (p : Path) : ConfigError → Prop where
  | directory {place : FileTree.Place} (hfind : fs.find p = .ok place) (hhere : place.here.isDirectory = true) :
      Unusable loader fs p (.unreadable .isDirectory)
  /-- It cannot be read as text, for whatever reason. -/
  | unreadable {reason : ReadError} (hread : fs.readText p = .error reason) :
      Unusable loader fs p (.unreadable reason)
  | malformed {text : String} (hread : fs.readText p = .ok text)
      (hparse : (loader.parser (formatOf p)).read? loader.machine text = none) :
      Unusable loader fs p (malformed (formatOf p))
  | invalid {text : String} {s : Settings} {e : ConfigError} (hread : fs.readText p = .ok text)
      (hparse : (loader.parser (formatOf p)).read? loader.machine text = some s)
      (hinvalid : s.validate = .error e) : Unusable loader fs p e

theorem load_of_unusable (h : Unusable loader fs p e) : load loader fs p = .error e := by
  cases h with
  | directory hfind hhere =>
      rename_i place
      cases hplace : place.here with
      | file content => simp [hplace, FileTree.isDirectory] at hhere
      | directory entries => simp [load, FileSystem.readText, hfind, hplace]
  | unreadable hread => simp [load, hread]
  | malformed hread hparse => simp [load, hread, parse, hparse]
  | invalid hread hparse hinvalid => simp [load, hread, parse, hparse, checked, hinvalid]

/-- A file is of no use, or it holds the settings that are loaded from it, and they are valid. -/
theorem load_cases (loader : Loader) (fs : FileSystem) (p : Path) :
    (∃ e, Unusable loader fs p e) ∨ ∃ s, load loader fs p = .ok s ∧ s.validate = .ok () := by
  cases hread : fs.readText p with
  | error reason => exact .inl ⟨_, .unreadable hread⟩
  | ok text =>
      cases hparse : (loader.parser (formatOf p)).read? loader.machine text with
      | none => exact .inl ⟨_, .malformed hread hparse⟩
      | some s =>
          cases hvalid : s.validate with
          | error e => exact .inl ⟨_, .invalid hread hparse hvalid⟩
          | ok => exact .inr ⟨s, by simp [load, hread, parse, hparse, checked, hvalid], hvalid⟩

theorem valid_of_load (h : load loader fs p = .ok s) : s.validate = .ok () := by
  rcases load_cases loader fs p with ⟨e, hunusable⟩ | ⟨s', hload, hvalid⟩
  · cases h.symm.trans (load_of_unusable hunusable)
  · cases h.symm.trans hload
    exact hvalid

/-! ## Finding and loading -/

variable {directory : Path}

theorem loadFrom_of_find (h : find fs directory = some p) :
    loadFrom loader fs directory = (load loader fs p).map (·, p) := by
  simp only [loadFrom, h]
  cases load loader fs p <;> rfl

theorem loadFrom_eq_ok (h : loadFrom loader fs directory = .ok (s, p)) :
    find fs directory = some p ∧ load loader fs p = .ok s := by
  cases hfind : find fs directory with
  | none => simp [loadFrom, hfind] at h
  | some found =>
      rw [loadFrom_of_find hfind] at h
      cases hload : load loader fs found with
      | error e => simp [hload, Except.map] at h
      | ok s' =>
          simp only [hload, Except.map, Except.ok.injEq, Prod.mk.injEq] at h
          obtain ⟨rfl, rfl⟩ := h
          exact ⟨rfl, hload⟩

theorem loadOrDefault_of_error (h : loadFrom loader fs directory = .error e) :
    loadOrDefault loader fs directory = (.default loader.machine, none) := by
  simp [loadOrDefault, h]

theorem valid_loadOrDefault (loader : Loader) (fs : FileSystem) (directory : Path) :
    (loadOrDefault loader fs directory).1.validate = .ok () := by
  cases hload : loadFrom loader fs directory with
  | error e =>
      rw [loadOrDefault_of_error hload]
      exact validate_default loader.machine
  | ok found =>
      obtain ⟨s, p⟩ := found
      simpa [loadOrDefault, hload] using valid_of_load (loadFrom_eq_ok hload).2

/-- What can be relied on when settings are loaded from these files. -/
structure Guarded (loader : Loader) (fs : FileSystem) : Prop where
  loaded : ∀ p s, load loader fs p = .ok s → s.Accepted
  found : ∀ directory s p, loadFrom loader fs directory = .ok (s, p) →
    s.Accepted ∧ find fs directory = some p ∧ load loader fs p = .ok s
  settled : ∀ directory, (loadOrDefault loader fs directory).1.Accepted
  /-- If the file that is found is of no use, no other is tried. -/
  unusable : ∀ directory p e, find fs directory = some p → Unusable loader fs p e →
    load loader fs p = .error e ∧ loadFrom loader fs directory = .error e ∧
      loadOrDefault loader fs directory = (.default loader.machine, none)
  usable : ∀ directory p, find fs directory = some p → (∀ e, ¬ Unusable loader fs p e) →
    ∃ s, load loader fs p = .ok s ∧ loadFrom loader fs directory = .ok (s, p) ∧
      loadOrDefault loader fs directory = (s, some p)
  missing : ∀ directory, find fs directory = none →
    loadFrom loader fs directory = .error (.notFound directory) ∧
      loadOrDefault loader fs directory = (.default loader.machine, none)

/-- Only valid settings get out, whatever the machine, the parsers and the files are, and the options that a round is
given for some settings are valid just if the settings of the build are. -/
theorem guarded (loader : Loader) (fs : FileSystem) : Guarded loader fs ∧
    ∀ b : BuildSettings, (Options.ofSettings b).validate = .ok () ↔ b.validate = .ok () := by
  refine ⟨?_, Options.validate_ofSettings_iff⟩
  exact {
    loaded := fun p s h => accepted_of_valid (valid_of_load h)
    found := fun directory s p h =>
      ⟨accepted_of_valid (valid_of_load (loadFrom_eq_ok h).2), loadFrom_eq_ok h⟩
    settled := fun directory => accepted_of_valid (valid_loadOrDefault loader fs directory)
    unusable := fun directory p e hfind hunusable => by
      have hload := load_of_unusable hunusable
      have hfrom : loadFrom loader fs directory = .error e := by rw [loadFrom_of_find hfind, hload]; rfl
      exact ⟨hload, hfrom, loadOrDefault_of_error hfrom⟩
    usable := fun directory p hfind husable => by
      rcases load_cases loader fs p with ⟨e, hunusable⟩ | ⟨s, hload, -⟩
      · exact absurd hunusable (husable e)
      · have hfrom : loadFrom loader fs directory = .ok (s, p) := by rw [loadFrom_of_find hfind, hload]; rfl
        exact ⟨s, hload, hfrom, by simp [loadOrDefault, hfrom]⟩
    missing := fun directory hfind => by
      have hfrom : loadFrom loader fs directory = .error (.notFound directory) := by simp [loadFrom, hfind]
      exact ⟨hfrom, loadOrDefault_of_error hfrom⟩ }

end Settings

end BuildRound
