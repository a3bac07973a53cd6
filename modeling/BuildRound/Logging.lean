import BuildRound.FileTree
import BuildRound.Logging.Filter
import BuildRound.Settings

/-!
# Setting up the log

The console shows what its filter lets through: the one of the environment if that is set and readable,
else the level of the settings. If settings ask for a file and its directory can be made, everything from
debug level on also goes to a file there, one for each day. A process sets up its log once.
-/

namespace BuildRound.Logging

/-! ## The log file -/

def directoryOf (s : LogSettings) (home : Path) : Path :=
  s.directory.getD ((home.join ".meridian").join "logs")

/-- The name of the log file of a day. -/
def fileName (date : String) : String :=
  "meridian.log." ++ date

/-! ## Setting up -/

/-- What surrounds a process that sets up its log. -/
structure Environment where
  files : FileSystem
  home : Path
  filter : Option String
  date : String

/-- A log that is set up: what the console shows, whether there is a file, and the files after it was
made. -/
structure Setup where
  console : Filter
  toFile : Bool
  files : FileSystem

def consoleFilter (env : Environment) (s : LogSettings) : Filter :=
  (env.filter.bind Filter.ofEnvironment?).getD (Filter.ofSettings (asciiLower s.level))

/-- Set up the log. Directories that were made for a log file stay even if there is none in the end. -/
def setUp (env : Environment) (s : LogSettings) : Setup :=
  let console := consoleFilter env s
  if s.toFile then
    let directory := directoryOf s env.home
    match env.files.makeDirectories directory with
    | (true, files) => ⟨console, true, files.createFile directory (fileName env.date)⟩
    | (false, files) => ⟨console, false, files⟩
  else ⟨console, false, env.files⟩

def secondSetUp : String :=
  "failed to install tracing subscriber"

def Setup.shows (s : Setup) (e : Event) : Bool :=
  s.console.passes e

def Setup.writes (s : Setup) (e : Event) : Bool :=
  s.toFile && Threshold.passes (some .debug) e.level

/-! ## Listing files -/

mutual
/-- The paths of everything in a tree, from a directory on; directories end in a slash. -/
def paths (start : String) : FileTree → List String
  | .file _ => []
  | .directory entries => entryPaths start entries

def entryPaths (start : String) : List (String × FileTree) → List String
  | [] => []
  | (name, .file _) :: rest => (start ++ name) :: entryPaths start rest
  | (name, .directory entries) :: rest =>
      let path := start ++ name ++ "/"
      path :: entryPaths path entries ++ entryPaths start rest
end

end BuildRound.Logging
