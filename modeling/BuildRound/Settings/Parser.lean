import BuildRound.Settings

/-!
# Parsing settings

Settings are read off the value that a parser makes of a text. What the parser is stays open here: each format
brings values of its own and decides how a value reads where a number, a truth value, a text or a section is
expected. A section with known fields overrides the defaults field by field; what is unknown is ignored.
-/

namespace BuildRound

inductive Format where
  | toml
  | yaml
  deriving DecidableEq, Repr

/-! ## Parsers -/

/-- What stands where a section is expected: fields with their names, or the fields in the order of their
declaration. -/
inductive Fields (α : Type) where
  | named (entries : List (String × α))
  | ordered (items : List α)

/-- The parser of a format. -/
structure Parser where
  /-- What a text, or a field in it, is parsed to. -/
  Value : Type
  value? : String → Option Value
  fields? : Value → Option (Fields Value)
  nat? : Value → Option Nat
  bool? : Value → Option Bool
  text? : Value → Option String
  /-- A text that may be absent. -/
  optional? : Value → Option (Option String)

/-! ## Fields -/

namespace Fields

variable {α β : Type}

/-- The fields with their names. A known field that occurs twice makes a section unreadable. -/
def entries? (known : List String) : Fields α → Option (List (String × α))
  | named entries =>
      if known.all (fun name => (entries.filter (·.1 = name)).length ≤ 1) then some entries else none
  | ordered items => some (known.zip items)

/-- Read a field, or take its default if it is absent. -/
def field (entries : List (String × α)) (name : String) (read : α → Option β) (absent : β) : Option β :=
  match entries.lookup name with
  | none => some absent
  | some a => read a

end Fields

/-! ## Sections -/

namespace Parser

open Fields

variable (p : Parser)

/-- The fields of a section in which these are known. -/
def section? (known : List String) (v : p.Value) : Option (List (String × p.Value)) :=
  (p.fields? v).bind (Fields.entries? known)

def path? (v : p.Value) : Option (Option Path) :=
  (p.optional? v).map (·.map Path.mk)

def buildSettings? (m : Machine) (v : p.Value) : Option BuildSettings := do
  let entries ← p.section? ["jobs", "keep_going", "progress_report_interval_secs"] v
  let defaults := BuildSettings.default m
  return {
    jobs := ← field entries "jobs" p.nat? defaults.jobs
    keepGoing := ← field entries "keep_going" p.bool? defaults.keepGoing
    reportSeconds := ← field entries "progress_report_interval_secs" p.nat? defaults.reportSeconds }

def logSettings? (v : p.Value) : Option LogSettings := do
  let entries ← p.section? ["level", "file", "directory"] v
  let defaults : LogSettings := {}
  return {
    level := ← field entries "level" p.text? defaults.level
    toFile := ← field entries "file" p.bool? defaults.toFile
    directory := ← field entries "directory" p.path? defaults.directory }

def settings? (m : Machine) (v : p.Value) : Option Settings := do
  let entries ← p.section? ["build", "logging"] v
  let defaults := Settings.default m
  return {
    build := ← field entries "build" (p.buildSettings? m) defaults.build
    logging := ← field entries "logging" p.logSettings? defaults.logging }

/-- The settings that a text says, on this machine. -/
def read? (m : Machine) (text : String) : Option Settings :=
  (p.value? text).bind (p.settings? m)

end Parser

end BuildRound
