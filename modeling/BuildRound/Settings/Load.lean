import BuildRound.FileTree
import BuildRound.Settings.Parser

/-!
# Finding and loading settings

The settings file that counts is the first that exists among the known names, in the directory where the
search starts and then in the directories that popping its path gives. A file is read in the format that
its extension names, by whatever parser that format has. Settings get out only if they are valid.
-/

namespace BuildRound.Settings

/-! ## Loading -/

/-- What settings are loaded with: the machine that their defaults are for, and the parser of each format. -/
structure Loader where
  machine : Machine
  parser : Format → Parser

/-- The format of the file at a path: typed if the extension says so. -/
def formatOf (p : Path) : Format :=
  if p.extension? = some "toml" then .toml else .yaml

def formatName : Format → String
  | .toml => "TOML"
  | .yaml => "YAML"

/-- The error for a text that cannot be read in a format. -/
def malformed : Format → ConfigError
  | .toml => .malformedToml
  | .yaml => .malformedYaml

def parse (loader : Loader) (format : Format) (text : String) : Except ConfigError Settings :=
  match (loader.parser format).read? loader.machine text with
  | none => .error (malformed format)
  | some s => .ok s

/-- The settings if they are valid. -/
def checked (s : Settings) : Except ConfigError Settings :=
  match s.validate with
  | .error e => .error e
  | .ok () => .ok s

def load (loader : Loader) (fs : FileSystem) (p : Path) : Except ConfigError Settings :=
  match fs.readText p with
  | .error e => .error (.unreadable e)
  | .ok text =>
      match parse loader (formatOf p) text with
      | .error e => .error e
      | .ok s => s.checked

/-- What is logged while the settings in a file are loaded. -/
def loadLog (loader : Loader) (fs : FileSystem) (p : Path) : List Log.Entry :=
  .event .info "loading config" [("path", p.text), ("format", formatName (formatOf p))] ::
    match (fs.readText p).toOption.bind (fun text => (parse loader (formatOf p) text).toOption) with
    | none => []
    | some s =>
        s.validationLog ++
          if s.validate.toBool then [.event .debug "config loaded and validated" [("path", p.text)]] else []

/-! ## Finding -/

/-- The paths where settings may be, the preferred first. -/
def candidates (start : Path) : List Path :=
  start.ancestors.flatMap (fun directory => fileNames.map directory.join)

/-- Find the settings file for a directory. -/
def find (fs : FileSystem) (start : Path) : Option Path :=
  (candidates start).find? fs.pathExists

/-- What is logged while a settings file is searched for. -/
def findLog (fs : FileSystem) (start : Path) : List Log.Entry :=
  [.event .debug "searching for config file" [("start_dir", start.text)],
    match find fs start with
    | some p => .event .info "found config file" [("path", p.text)]
    | none => .event .debug "no config file found" []]

/-- Find and load the settings for a directory. -/
def loadFrom (loader : Loader) (fs : FileSystem) (directory : Path) : Except ConfigError (Settings × Path) :=
  match find fs directory with
  | none => .error (.notFound directory)
  | some p =>
      match load loader fs p with
      | .error e => .error e
      | .ok s => .ok (s, p)

/-- What is logged while settings are found and loaded. -/
def loadFromLog (loader : Loader) (fs : FileSystem) (directory : Path) : List Log.Entry :=
  findLog fs directory ++
    match find fs directory with
    | none => []
    | some p => loadLog loader fs p

/-- Find and load the settings for a directory; without usable ones, the defaults. -/
def loadOrDefault (loader : Loader) (fs : FileSystem) (directory : Path) : Settings × Option Path :=
  match loadFrom loader fs directory with
  | .ok (s, p) => (s, some p)
  | .error _ => (.default loader.machine, none)

/-- What is logged on the way to settings that may be the defaults. -/
def loadOrDefaultLog (loader : Loader) (fs : FileSystem) (directory : Path) : List Log.Entry :=
  loadFromLog loader fs directory ++
    match loadFrom loader fs directory with
    | .ok _ => []
    | .error e =>
        [.event .warn "no usable config found, using defaults"
          [("dir", directory.text), ("error", e.message)]]

end BuildRound.Settings
