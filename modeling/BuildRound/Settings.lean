import BuildRound.Duration
import BuildRound.Error
import BuildRound.Log

/-!
# Settings

The settings of a build and of its log, their defaults, and what makes them valid. `Options` is the part
that a build round needs, with a validation of its own that accepts the same numbers.
-/

namespace BuildRound

/-! ## The machine -/

/-- What settings depend on besides their file. -/
structure Machine where
  /-- How many processors are available, if the machine can tell. -/
  processors : Option {n : Nat // 0 < n}

/-- How many jobs are run where no number is configured. -/
def Machine.jobs (m : Machine) : Nat :=
  (m.processors.map (·.val)).getD 4

theorem Machine.jobs_pos (m : Machine) : 0 < m.jobs := by
  obtain ⟨_ | n⟩ := m
  · exact Nat.zero_lt_succ 3
  · exact n.property

/-! ## Types and defaults -/

/-- How builds run. -/
structure BuildSettings where
  jobs : Nat
  keepGoing : Bool := false
  reportSeconds : Nat := 15
  deriving DecidableEq, Repr

structure LogSettings where
  level : String := "warn"
  toFile : Bool := false
  directory : Option Path := none
  deriving DecidableEq, Repr

structure Settings where
  build : BuildSettings
  logging : LogSettings := {}
  deriving DecidableEq, Repr

def BuildSettings.default (m : Machine) : BuildSettings :=
  { jobs := m.jobs }

def Settings.default (m : Machine) : Settings :=
  { build := .default m }

/-! ## Validation -/

def asciiLower (s : String) : String :=
  String.ofList (s.toList.map Char.toLower)

/-- The names of the log levels that settings may choose. -/
def levelNames : List String :=
  Log.Level.all.map Log.Level.name

def BuildSettings.validate (b : BuildSettings) : Except ConfigError Unit :=
  if b.jobs = 0 then
    .error (.invalidValue "build.jobs" "must be at least 1")
  else if b.reportSeconds = 0 then
    .error (.invalidValue "build.progress_report_interval_secs" "must be at least 1")
  else .ok ()

/-- Check the settings of the log: the level counts in any case. -/
def LogSettings.validate (l : LogSettings) : Except ConfigError Unit :=
  if asciiLower l.level ∈ levelNames then .ok ()
  else .error (.invalidValue "logging.level" ("must be one of: " ++ ", ".intercalate levelNames))

/-- Check the settings of the build, then those of the log. -/
def Settings.validate (s : Settings) : Except ConfigError Unit :=
  match s.build.validate with
  | .error e => .error e
  | .ok () => s.logging.validate

/-- What is logged while settings are checked. -/
def Settings.validationLog (s : Settings) : List Log.Entry :=
  .event .debug "validating configuration" [] ::
    match s.validate with
    | .ok () => [.event .debug "configuration validation passed" []]
    | .error _ => []

/-! ## Options of a build round -/

/-- What a build round is run with. -/
structure Options where
  keepGoing : Bool
  jobs : Nat
  reportInterval : Nanos
  deriving DecidableEq, Repr

namespace Options

/-- The options that settings ask for. -/
def ofSettings (b : BuildSettings) : Options :=
  ⟨b.keepGoing, b.jobs, Nanos.ofSeconds b.reportSeconds⟩

/-- The options of a build that nothing was configured for. -/
def default (m : Machine) : Options :=
  ofSettings (.default m)

/-- Reject options that no round can run with. -/
def validate (o : Options) : Except ConfigError Unit :=
  if o.jobs = 0 then
    .error (.invalidValue "jobs" "must be greater than 0")
  else if o.reportInterval = 0 then
    .error (.invalidValue "progress_report_interval" "must be greater than 0")
  else .ok ()

end Options

/-! ## The configuration file -/

namespace Settings

/-- The names of configuration files, the preferred one first. -/
def fileNames : List String :=
  ["meridian.toml", "meridian.yaml", ".meridian.toml", ".meridian.yaml"]

/-- A commented file to start from. -/
def template : String :=
  "# Meridian Configuration\n\n" ++
    "[build]\njobs = 4\nkeep_going = false\nprogress_report_interval_secs = 15\n\n" ++
    "[logging]\nlevel = \"warn\"\nfile = false\n"

/-- The file that says the defaults. -/
def defaultFile (m : Machine) : String :=
  let s := Settings.default m
  "[build]\njobs = " ++ toString s.build.jobs ++
    "\nkeep_going = " ++ Log.flag s.build.keepGoing ++
    "\nprogress_report_interval_secs = " ++ toString s.build.reportSeconds ++
    "\n\n[logging]\nlevel = \"" ++ s.logging.level ++
    "\"\nfile = " ++ Log.flag s.logging.toFile ++ "\n"

end Settings

end BuildRound
