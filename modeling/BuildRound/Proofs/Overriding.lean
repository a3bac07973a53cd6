import BuildRound.Proofs.Loading
import BuildRound.Settings.Formats

/-!
# Overriding the defaults

A settings file says some of the fields, and what it says overrides the defaults field by field. How it says that, in
which of the two formats, in what order and beside which unknown fields, makes no difference to the settings that are
loaded or to the field that is complained of. What a file says is what the parser of its format makes of its text.
-/

namespace BuildRound

/-! ## What a file may say -/

/-- Among these entries a field stands once with the value that is given, or not at all. Other fields may stand
anywhere, with any values. -/
def Fields.Stands {α β : Type} (reads : α → β → Prop) (entries : List (String × β)) (name : String)
    (value : Option α) : Prop :=
  match value, entries.filter (·.1 = name) with
  | none, [] => True
  | some v, [e] => reads v e.2
  | _, _ => False

instance {α β : Type} (reads : α → β → Prop) [∀ v b, Decidable (reads v b)] (entries : List (String × β))
    (name : String) (value : Option α) : Decidable (Fields.Stands reads entries name value) := by
  unfold Fields.Stands
  split <;> infer_instance

/-- The value is a map, of whose entries this holds. -/
def Parser.Maps (p : Parser) (holds : List (String × p.Value) → Prop) (v : p.Value) : Prop :=
  match p.fields? v with
  | some (.named entries) => holds entries
  | _ => False

instance (p : Parser) (holds : List (String × p.Value) → Prop) [DecidablePred holds] (v : p.Value) :
    Decidable (p.Maps holds v) := by
  unfold Parser.Maps
  split <;> infer_instance

open Fields

/-- The fields of a build that a file says. -/
structure BuildOverrides where
  jobs : Option Nat := none
  keepGoing : Option Bool := none
  reportSeconds : Option Nat := none

namespace BuildOverrides

def Written (p : Parser) (o : BuildOverrides) : p.Value → Prop :=
  p.Maps fun entries =>
    Stands (fun n v => p.nat? v = some n) entries "jobs" o.jobs ∧
    Stands (fun b v => p.bool? v = some b) entries "keep_going" o.keepGoing ∧
    Stands (fun n v => p.nat? v = some n) entries "progress_report_interval_secs" o.reportSeconds

instance (p : Parser) (o : BuildOverrides) (v : p.Value) : Decidable (o.Written p v) := by
  unfold Written
  infer_instance

/-- The defaults of this machine, with what is said in place of them. -/
def settings (m : Machine) (o : BuildOverrides) : BuildSettings :=
  let defaults := BuildSettings.default m
  { jobs := o.jobs.getD defaults.jobs
    keepGoing := o.keepGoing.getD defaults.keepGoing
    reportSeconds := o.reportSeconds.getD defaults.reportSeconds }

end BuildOverrides

/-- The fields of a log that a file says. -/
structure LogOverrides where
  level : Option String := none
  toFile : Option Bool := none
  directory : Option String := none

namespace LogOverrides

def Written (p : Parser) (o : LogOverrides) : p.Value → Prop :=
  p.Maps fun entries =>
    Stands (fun s v => p.text? v = some s) entries "level" o.level ∧
    Stands (fun b v => p.bool? v = some b) entries "file" o.toFile ∧
    Stands (fun s v => p.optional? v = some (some s)) entries "directory" o.directory

instance (p : Parser) (o : LogOverrides) (v : p.Value) : Decidable (o.Written p v) := by
  unfold Written
  infer_instance

def settings (o : LogOverrides) : LogSettings :=
  let defaults : LogSettings := {}
  { level := o.level.getD defaults.level
    toFile := o.toFile.getD defaults.toFile
    directory := (o.directory.map (some ⟨·⟩)).getD defaults.directory }

end LogOverrides

/-- All that a file says, by sections. A section may be there and say nothing. -/
structure Overrides where
  build : Option BuildOverrides := none
  logging : Option LogOverrides := none

namespace Overrides

/-- The value of a file that says just this. -/
def Written (p : Parser) (o : Overrides) : p.Value → Prop :=
  p.Maps fun entries =>
    Stands (BuildOverrides.Written p) entries "build" o.build ∧
    Stands (LogOverrides.Written p) entries "logging" o.logging

instance (p : Parser) (o : Overrides) (v : p.Value) : Decidable (o.Written p v) := by
  unfold Written
  infer_instance

/-- The defaults of this machine, with what is said in place of them. -/
def settings (m : Machine) (o : Overrides) : Settings :=
  { build := (o.build.getD {}).settings m
    logging := (o.logging.getD {}).settings }

def jobs (o : Overrides) : Option Nat :=
  o.build.bind (·.jobs)

def reportSeconds (o : Overrides) : Option Nat :=
  o.build.bind (·.reportSeconds)

def level (o : Overrides) : Option String :=
  o.logging.bind (·.level)

/-- Whether a level is one of the five, in whatever case. -/
def Known (level : String) : Prop :=
  asciiLower level ∈ ["trace", "debug", "info", "warn", "error"]

instance (level : String) : Decidable (Known level) :=
  inferInstanceAs (Decidable (asciiLower level ∈ ["trace", "debug", "info", "warn", "error"]))

/-- The answer is what is said, over the defaults of this machine, or names the first field that cannot be as it is
said. -/
structure Decides (m : Machine) (o : Overrides) (answer : Except ConfigError Settings) : Prop where
  jobs : o.jobs = some 0 → answer = .error (.invalidValue "build.jobs" "must be at least 1")
  reportSeconds : o.jobs ≠ some 0 → o.reportSeconds = some 0 →
    answer = .error (.invalidValue "build.progress_report_interval_secs" "must be at least 1")
  level : o.jobs ≠ some 0 → o.reportSeconds ≠ some 0 → (∃ l ∈ o.level, ¬ Known l) →
    answer = .error (.invalidValue "logging.level" "must be one of: trace, debug, info, warn, error")
  fine : o.jobs ≠ some 0 → o.reportSeconds ≠ some 0 → (∀ l ∈ o.level, Known l) → answer = .ok (o.settings m)

end Overrides

/-- A file says this: the parser of the format that its name calls for makes such a value of its text. -/
def FileSystem.Says (parser : Format → Parser) (fs : FileSystem) (path : Path) (o : Overrides) : Prop :=
  ∃ text, fs.readText path = .ok text ∧ ∃ v ∈ (parser (Settings.formatOf path)).value? text,
    o.Written (parser (Settings.formatOf path)) v

instance (parser : Format → Parser) (fs : FileSystem) (path : Path) (o : Overrides) :
    Decidable (fs.Says parser path o) :=
  match hread : fs.readText path with
  | .error e => .isFalse fun ⟨_, htext, _⟩ => by simp [hread] at htext
  | .ok text =>
      decidable_of_iff (∃ v ∈ (parser (Settings.formatOf path)).value? text,
        o.Written (parser (Settings.formatOf path)) v) (by simp [FileSystem.Says, hread])

/-! ## Reading fields -/

namespace Fields

variable {α β γ : Type} {reads : α → β → Prop} {entries : List (String × β)} {name : String} {value : Option α}

theorem lookup_eq_head?_filter (entries : List (String × β)) (name : String) :
    entries.lookup name = (entries.filter (·.1 = name)).head?.map (·.2) := by
  induction entries with
  | nil => rfl
  | cons e rest ih =>
      obtain ⟨key, b⟩ := e
      by_cases h : name = key
      · simp [h]
      · simp [List.lookup_cons, beq_eq_false_iff_ne.mpr h, Ne.symm h, ih]

theorem Stands.length_le (h : Stands reads entries name value) : (entries.filter (·.1 = name)).length ≤ 1 := by
  unfold Stands at h
  split at h
  · rename_i heq
    simp [heq]
  · rename_i heq
    simp [heq]
  · exact h.elim

/-- A field is read as it stands, and is at its default where it does not. -/
theorem Stands.field (h : Stands reads entries name value) {read : β → Option γ} {f : α → γ}
    (hread : ∀ v b, reads v b → read b = some (f v)) (absent : γ) :
    Fields.field entries name read absent = some ((value.map f).getD absent) := by
  unfold Fields.field
  rw [lookup_eq_head?_filter]
  unfold Stands at h
  split at h
  · rename_i heq
    simp [heq]
  · rename_i v e heq
    simpa [heq] using hread v e.2 h
  · exact h.elim

/-- A field that says a value of the type that is read. -/
theorem Stands.field_of_read {read : β → Option α} (h : Stands (fun a b => read b = some a) entries name value)
    (absent : α) : Fields.field entries name read absent = some (value.getD absent) := by
  simpa using h.field (f := id) (fun _ _ hread => hread) absent

end Fields

/-- A section with these entries is read if no known field stands twice. -/
theorem Parser.section?_of_maps {p : Parser} {holds : List (String × p.Value) → Prop} {v : p.Value}
    (h : p.Maps holds v) (known : List String)
    (honce : ∀ entries, holds entries → ∀ name ∈ known, (entries.filter (·.1 = name)).length ≤ 1) :
    ∃ entries, p.section? known v = some entries ∧ holds entries := by
  unfold Maps at h
  split at h
  · rename_i entries hfields
    refine ⟨entries, ?_, h⟩
    simpa [section?, hfields, Fields.entries?] using honce entries h
  · exact h.elim

/-! ## Reading sections -/

section

variable {p : Parser} {v : p.Value}

theorem BuildOverrides.read {o : BuildOverrides} (h : o.Written p v) (m : Machine) :
    p.buildSettings? m v = some (o.settings m) := by
  obtain ⟨entries, hentries, hjobs, hgo, hreport⟩ := Parser.section?_of_maps h
    ["jobs", "keep_going", "progress_report_interval_secs"]
    (fun entries ⟨hjobs, hgo, hreport⟩ => by simp [hjobs.length_le, hgo.length_le, hreport.length_le])
  simp [Parser.buildSettings?, hentries, hjobs.field_of_read, hgo.field_of_read, hreport.field_of_read, settings]

theorem LogOverrides.read {o : LogOverrides} (h : o.Written p v) : p.logSettings? v = some o.settings := by
  obtain ⟨entries, hentries, hlevel, hfile, hdirectory⟩ := Parser.section?_of_maps h ["level", "file", "directory"]
    (fun entries ⟨hlevel, hfile, hdirectory⟩ => by simp [hlevel.length_le, hfile.length_le, hdirectory.length_le])
  have hpath : field entries "directory" p.path? none = some ((o.directory.map (some ⟨·⟩)).getD none) :=
    hdirectory.field (fun s d hs => by simp [Parser.path?, hs]) none
  simp [Parser.logSettings?, hentries, hlevel.field_of_read, hfile.field_of_read, hpath, settings]

namespace Overrides

variable {o : Overrides}

/-- A section that is not there is as one that says nothing. -/
theorem read (h : o.Written p v) (m : Machine) : p.settings? m v = some (o.settings m) := by
  obtain ⟨entries, hentries, hbuild, hlogging⟩ := Parser.section?_of_maps h ["build", "logging"]
    (fun entries ⟨hbuild, hlogging⟩ => by simp [hbuild.length_le, hlogging.length_le])
  have hbuilds : field entries "build" (p.buildSettings? m) (.default m) =
      some ((o.build.map (·.settings m)).getD (.default m)) :=
    hbuild.field (fun _ _ hb => BuildOverrides.read hb m) _
  have hlogs : field entries "logging" p.logSettings? {} = some ((o.logging.map (·.settings)).getD {}) :=
    hlogging.field (fun _ _ => LogOverrides.read) {}
  simp only [Parser.settings?, hentries, Option.bind_eq_bind, Option.bind_some, Settings.default, hbuilds, hlogs,
    settings]
  cases o.build <;> cases o.logging <;> rfl

/-! ## Checking -/

theorem jobs_settings_iff (m : Machine) (o : Overrides) : (o.settings m).build.jobs = 0 ↔ o.jobs = some 0 := by
  have hdefault : m.jobs ≠ 0 := Nat.pos_iff_ne_zero.mp m.jobs_pos
  rcases hbuild : o.build with _ | ⟨_ | _, _, _⟩ <;>
    simp [settings, BuildOverrides.settings, BuildSettings.default, jobs, hbuild, hdefault]

theorem reportSeconds_settings_iff (m : Machine) (o : Overrides) :
    (o.settings m).build.reportSeconds = 0 ↔ o.reportSeconds = some 0 := by
  rcases hbuild : o.build with _ | ⟨_, _, _ | _⟩ <;>
    simp [settings, BuildOverrides.settings, BuildSettings.default, reportSeconds, hbuild]

theorem level_settings_iff (m : Machine) (o : Overrides) :
    asciiLower (o.settings m).logging.level ∈ levelNames ↔ ∀ l ∈ o.level, Known l := by
  have hnames : levelNames = ["trace", "debug", "info", "warn", "error"] := by decide
  have hdefault : asciiLower "warn" ∈ levelNames := by decide
  rcases hlogging : o.logging with _ | ⟨_ | l, _, _⟩
  · simpa [settings, LogOverrides.settings, level, hlogging] using hdefault
  · simpa [settings, LogOverrides.settings, level, hlogging] using hdefault
  · simp [settings, LogOverrides.settings, level, hlogging, Known, hnames]

theorem decides_checked (m : Machine) (o : Overrides) : o.Decides m (o.settings m).checked := by
  have hjobs := o.jobs_settings_iff m
  have hreport := o.reportSeconds_settings_iff m
  have hlevel := o.level_settings_iff m
  have hnames : ", ".intercalate levelNames = "trace, debug, info, warn, error" := by decide
  refine ⟨fun hj => ?_, fun hj hr => ?_, fun hj hr hl => ?_, fun hj hr hl => ?_⟩
  · simp [Settings.checked, Settings.validate, BuildSettings.validate, hjobs.mpr hj]
  · simp [Settings.checked, Settings.validate, BuildSettings.validate, hjobs, hj, hreport.mpr hr]
  · have hunknown : asciiLower (o.settings m).logging.level ∉ levelNames := by
      rw [hlevel]
      obtain ⟨l, hl, hknown⟩ := hl
      exact fun hall => hknown (hall l hl)
    simp [Settings.checked, Settings.validate, BuildSettings.validate, LogSettings.validate, hjobs, hj, hreport, hr,
      hunknown, hnames]
  · simp [Settings.checked, Settings.validate, BuildSettings.validate, LogSettings.validate, hjobs, hj, hreport, hr,
      hlevel.mpr hl]

end Overrides

end

/-! ## Files -/

variable {loader : Settings.Loader} {fs fs' : FileSystem} {path path' : Path} {o : Overrides}

theorem FileSystem.Says.load (h : fs.Says loader.parser path o) :
    Settings.load loader fs path = (o.settings loader.machine).checked := by
  obtain ⟨text, htext, v, hv, hwritten⟩ := h
  simp [Settings.load, htext, Settings.parse, Parser.read?, Option.mem_def.mp hv,
    Overrides.read hwritten loader.machine]

/-- Whatever the machine and the parsers are: two files that say the same, each in either of the two formats, are
loaded alike. What they say overrides the defaults, and of what cannot be so the first is complained of. -/
theorem Settings.load_overrides (h : fs.Says loader.parser path o) (h' : fs'.Says loader.parser path' o) :
    load loader fs path = load loader fs' path' ∧ o.Decides loader.machine (load loader fs path) := by
  rw [h.load, h'.load]
  exact ⟨rfl, o.decides_checked loader.machine⟩

/-- The same said in both formats, in another order and beside other fields. -/
def twice : FileSystem where
  root := .directory
    [("meridian.toml", .file
        "title = [1]\n[logging]\nlevel = \"Info\"\ncolor.on = true\n[build]\nkeep_going = true\njobs = 16\n".toUTF8),
      (".meridian.yaml", .file
        "build:\n  jobs: 0x10\n  extra: ~\n  keep_going: True\nlogging: \x7blevel: 'Info'\x7d\n".toUTF8)]

def busyInfo : Overrides where
  build := some { jobs := some 16, keepGoing := some true }
  logging := some { level := some "Info" }

def eightProcessors : Settings.Loader where
  machine := ⟨some ⟨8, by decide⟩⟩
  parser := Format.parser

theorem Settings.load_overrides_twice : twice.Says eightProcessors.parser ⟨"meridian.toml"⟩ busyInfo ∧
    twice.Says eightProcessors.parser ⟨".meridian.yaml"⟩ busyInfo ∧
      load eightProcessors twice ⟨"meridian.toml"⟩ = load eightProcessors twice ⟨".meridian.yaml"⟩ ∧
        load eightProcessors twice ⟨"meridian.toml"⟩ = .ok ⟨⟨16, true, 15⟩, ⟨"Info", false, none⟩⟩ := by
  have htoml : twice.Says eightProcessors.parser ⟨"meridian.toml"⟩ busyInfo := by decide +kernel
  have hyaml : twice.Says eightProcessors.parser ⟨".meridian.yaml"⟩ busyInfo := by decide +kernel
  obtain ⟨hsame, hdecides⟩ := load_overrides htoml hyaml
  exact ⟨htoml, hyaml, hsame, hdecides.fine (by decide) (by decide) (by decide)⟩

end BuildRound
