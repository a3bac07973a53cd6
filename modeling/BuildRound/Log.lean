/-!
# Log entries

What the library says while it works: events with a level and fields, and spans, which are noted when
they open.
-/

namespace BuildRound.Log

/-- How urgent an event is. -/
inductive Level where
  | trace
  | debug
  | info
  | warn
  | error
  deriving DecidableEq, Repr

namespace Level

def all : List Level :=
  [trace, debug, info, warn, error]

/-- The level in small letters, as settings spell it. -/
def name : Level → String
  | trace => "trace"
  | debug => "debug"
  | info => "info"
  | warn => "warn"
  | error => "error"

/-- The level in capitals, as log lines show it. -/
def label : Level → String
  | trace => "TRACE"
  | debug => "DEBUG"
  | info => "INFO"
  | warn => "WARN"
  | error => "ERROR"

/-- More urgent levels have higher ranks. -/
def rank : Level → Nat
  | trace => 0
  | debug => 1
  | info => 2
  | warn => 3
  | error => 4

end Level

/-- One entry of a log. -/
inductive Entry where
  | event (level : Level) (message : String) (fields : List (String × String))
  | span (name : String) (fields : List (String × String))
  deriving DecidableEq, Repr

def Entry.message : Entry → String
  | .event _ message _ => message
  | .span name _ => name

/-- A truth value as a field shows it. -/
def flag (b : Bool) : String :=
  if b then "true" else "false"

end BuildRound.Log
