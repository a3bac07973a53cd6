import BuildRound.CharClass

/-!
# Patterns

Which texts are patterns for the values of a field. A pattern is read one character at a time: groups and
sets have to be closed, a repetition needs something to repeat, a range goes upwards. Nothing is known of
the characters beyond ASCII but their order, so classes by name, borders of words and letters in either case
are for patterns that leave these characters alone.
-/

namespace BuildRound.Logging.Pattern

/-- How the characters of a pattern are meant. -/
structure Mode where
  eitherCase : Bool := false
  beyondAscii : Bool := true
  /-- White space and comments do not count. -/
  spaced : Bool := false
  deriving DecidableEq, Repr

/-- Set one of the modes that matter. -/
def Mode.set (m : Mode) (on : Bool) : Char → Mode
  | 'i' => { m with eitherCase := on }
  | 'u' => { m with beyondAscii := on }
  | 'x' => { m with spaced := on }
  | _ => m

/-- Where the reading of a pattern stands. -/
inductive Spot where
  /-- Between two items. -/
  | item (repeatable : Bool)
  /-- After a backslash; in a set, maybe after the beginning of a range. -/
  | escape (low : Option Char)
  /-- In the number of a character, with that many digits to come. -/
  | number (isOctet : Bool) (digits value : Nat) (low : Option Char)
  /-- After the parenthesis that opens a group. -/
  | group
  /-- In the flags of a group, which are in reverse. -/
  | flags (read : List Char)
  | nameMark
  /-- In the name of a group, which is in reverse. -/
  | name (read : List Char)
  /-- After the bracket that opens a set. -/
  | set
  /-- After the sign that turns a set around. -/
  | outside
  /-- After hyphens at the beginning of a set. -/
  | hyphens
  | member (last : Option Char)
  /-- After a character that has a meaning if it comes twice. -/
  | twice (c : Char)
  /-- After a hyphen that may make a range. -/
  | range (low : Option Char)
  deriving DecidableEq, Repr

/-- Whether white space does not count at a spot, if it does not count in the pattern. -/
def Spot.skipsSpace : Spot → Bool
  | .escape _ => false
  | .flags _ => false
  | .nameMark => false
  | .name _ => false
  | .twice _ => false
  | _ => true

/-- A pattern in reading: how its characters are meant here and outside of each open group, the names of the
groups so far, how many sets are open, and where the reading stands. -/
structure Reading where
  mode : Mode := {}
  groups : List Mode := []
  names : List (List Char) := []
  sets : Nat := 0
  inComment : Bool := false
  spot : Spot := .item false
  deriving DecidableEq, Repr

namespace Reading

def goTo (r : Reading) (spot : Spot) : Option Reading :=
  some { r with spot }

/-- A character that stands for itself, in a set maybe as the end of a range. -/
def literal (r : Reading) (low : Option Char) (c : Char) : Option Reading :=
  if r.mode.eitherCase && r.mode.beyondAscii then none
  else if r.sets = 0 then r.goTo (.item true)
  else if !r.mode.beyondAscii && 128 ≤ c.toNat then none
  else
    match low with
    | none => r.goTo (.member (some c))
    | some low => if low ≤ c then r.goTo (.member none) else none

/-- A class of characters with a name. -/
def classByName (r : Reading) (low : Option Char) : Option Reading :=
  if r.mode.beyondAscii || low.isSome then none
  else if r.sets = 0 then r.goTo (.item true)
  else r.goTo (.member none)

/-- Something between two characters. -/
def border (r : Reading) : Option Reading :=
  if r.sets = 0 then r.goTo (.item true) else none

/-- What a letter after a backslash stands for. -/
def control? : Char → Option Char
  | 'a' => some '\x07'
  | 'f' => some '\x0c'
  | 'n' => some '\n'
  | 'r' => some '\x0d'
  | 't' => some '\t'
  | 'v' => some '\x0b'
  | _ => none

/-- The character after a backslash. -/
def escaped (r : Reading) (low : Option Char) (c : Char) : Option Reading :=
  match c with
  | 'x' => r.goTo (.number true 2 0 low)
  | 'u' => r.goTo (.number false 4 0 low)
  | 'U' => r.goTo (.number false 8 0 low)
  | 'd' | 's' | 'w' => r.classByName low
  | 'A' | 'z' => r.border
  | 'b' | 'B' | '<' | '>' => if r.mode.beyondAscii then none else r.border
  | _ =>
      match control? c with
      | some c => r.literal low c
      | none => if c.toNat < 128 && !c.isAlphanum then r.literal low c else none

def digit? (c : Char) : Option Nat :=
  if c.isDigit then some (c.toNat - '0'.toNat)
  else if 'a' ≤ c && c ≤ 'f' then some (c.toNat - 'a'.toNat + 10)
  else if 'A' ≤ c && c ≤ 'F' then some (c.toNat - 'A'.toNat + 10)
  else none

/-- A digit of the number of a character. -/
def digit (r : Reading) (isOctet : Bool) (digits value : Nat) (low : Option Char) (c : Char) :
    Option Reading := do
  let value := 16 * value + (← digit? c)
  if 1 < digits then r.goTo (.number isOctet (digits - 1) value low)
  else if !value.isValidChar || (isOctet && !r.mode.beyondAscii && 128 ≤ value) then none
  else r.literal low (Char.ofNat value)

def item (r : Reading) (repeatable : Bool) (c : Char) : Option Reading :=
  match c with
  | '(' => some { r with groups := r.mode :: r.groups, spot := .group }
  | ')' =>
      match r.groups with
      | [] => none
      | mode :: groups => some { r with mode, groups, spot := .item true }
  | '|' => r.goTo (.item false)
  | '[' => some { r with sets := 1, spot := .set }
  | '?' | '*' | '+' => if repeatable then r.goTo (.item true) else none
  | '{' => none
  | '\\' => r.goTo (.escape none)
  | '.' => if r.mode.beyondAscii then r.goTo (.item true) else none
  | '^' | '$' => r.goTo (.item true)
  | _ => r.literal none c

/-- The mode after flags have been read: those after a hyphen are taken away. -/
def flagged (r : Reading) (read : List Char) : Mode :=
  let on := read.reverse.takeWhile (· ≠ '-')
  let off := read.reverse.dropWhile (· ≠ '-')
  off.foldl (·.set false) (on.foldl (·.set true) r.mode)

/-- A character in the flags of a group. Without a group of their own they hold for what follows. -/
def flag (r : Reading) (read : List Char) (c : Char) : Option Reading :=
  match c with
  | ':' => if read.head? = some '-' then none else some { r with mode := r.flagged read, spot := .item false }
  | ')' =>
      if read.isEmpty || read.head? = some '-' then none
      else some { r with mode := r.flagged read, groups := r.groups.tail, spot := .item false }
  | '<' => if read.isEmpty then r.goTo (.name []) else none
  | 'P' => if read.isEmpty then r.goTo .nameMark else none
  | _ => if "imsUuRx-".toList.contains c && !read.contains c then r.goTo (.flags (c :: read)) else none

def name (r : Reading) (read : List Char) (c : Char) : Option Reading :=
  if c = '>' then
    if read.isEmpty || r.names.contains read then none
    else some { r with names := read :: r.names, spot := .item false }
  else if c = '_' || (CharClass.isAlphanumeric c && !(read.isEmpty && c.isDigit)) ||
      (!read.isEmpty && ['.', '[', ']'].contains c) then r.goTo (.name (c :: read))
  else none

def member (r : Reading) (last : Option Char) (c : Char) : Option Reading :=
  match c with
  | ']' =>
      if r.sets ≤ 1 then some { r with sets := 0, spot := .item true }
      else some { r with sets := r.sets - 1, spot := .member none }
  | '[' => some { r with sets := r.sets + 1, spot := .set }
  | '-' => r.goTo (.range last)
  | '&' | '~' => r.goTo (.twice c)
  | '\\' => r.goTo (.escape none)
  | _ => r.literal none c

def first (r : Reading) (c : Char) : Option Reading :=
  match c with
  | '-' => r.goTo .hyphens
  | ']' => r.goTo (.member none)
  | _ => r.member none c

def rangeEnd (r : Reading) (low : Option Char) (c : Char) : Option Reading :=
  if c = '-' then r.goTo (.member none)
  else if c = ']' then r.member none c
  else
    match low with
    | none => r.member none c
    | some low => if c = '\\' then r.goTo (.escape (some low)) else r.literal (some low) c

/-- Read one more character that counts. -/
def read (r : Reading) (c : Char) : Option Reading :=
  match r.spot with
  | .item repeatable => r.item repeatable c
  | .escape low => r.escaped low c
  | .number isOctet digits value low => r.digit isOctet digits value low c
  | .group => if c = '?' then r.goTo (.flags []) else r.item false c
  | .flags read => r.flag read c
  | .nameMark => if c = '<' then r.goTo (.name []) else none
  | .name read => r.name read c
  | .set => if c = '^' then if r.mode.beyondAscii then r.goTo .outside else none else r.first c
  | .outside => r.first c
  | .hyphens => if c = '-' then r.goTo .hyphens else r.member none c
  | .member last => r.member last c
  | .twice first => if c = first then r.goTo (.member none) else r.member (some first) c
  | .range low => r.rangeEnd low c

/-- Read one more character. -/
def next (r : Reading) (c : Char) : Option Reading :=
  if r.inComment then some { r with inComment := c ≠ '\n' }
  else if r.mode.spaced && r.spot.skipsSpace && CharClass.isSpace c then some r
  else if r.mode.spaced && r.spot.skipsSpace && c = '#' then some { r with inComment := true }
  else r.read c

/-- Whether a pattern may end here. -/
def complete (r : Reading) : Bool :=
  match r.spot with
  | .item _ => r.groups.isEmpty
  | _ => false

end Reading

def isValid (text : List Char) : Bool :=
  (text.foldlM Reading.next {}).any Reading.complete

end BuildRound.Logging.Pattern
