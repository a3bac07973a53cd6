import BuildRound.CharClass
import BuildRound.Log
import BuildRound.Logging.Pattern
import BuildRound.Settings

/-!
# Directives of a log filter

A directive names a threshold and, if it likes, what the threshold is for: the origin of events, a span
around them, a field that they have. `debug`, `net=info`, `net[connect]=off` and `[{size=4}]` are
directives. A threshold that is left out lets everything pass.

A directive is read without the white space around it, but its parts are cut out of the text with that
white space, by the places where they were found.
-/

namespace BuildRound.Logging

/-- The least urgent level that passes, or nothing passes. -/
abbrev Threshold := Option Log.Level

namespace Threshold

def passes (t : Threshold) (level : Log.Level) : Bool :=
  t.any (fun least => least.rank ≤ level.rank)

def numbered : List Threshold :=
  none :: Log.Level.all.reverse.map some

/-- Read the name of a threshold, in any case. -/
def ofName? (text : String) : Option Threshold :=
  if asciiLower text = "off" then some none
  else (Log.Level.all.find? (fun level => asciiLower text = level.name)).map some

/-- Read the number of a threshold. -/
def ofNumber? (text : String) : Option Threshold :=
  let digits :=
    match text.toList with
    | '+' :: rest => rest
    | cs => cs
  if digits.isEmpty || !digits.all Char.isDigit then none
  else numbered[digits.foldl (fun n c => 10 * n + (c.toNat - '0'.toNat)) 0]?

def ofText? (text : String) : Option Threshold :=
  (ofNumber? text).orElse (fun _ => ofName? text)

end Threshold

/-! ## Fields -/

/-- Whether a text is the absolute value of a number. -/
def isMagnitude (text : List Char) : Bool :=
  let mantissa := text.takeWhile (fun c => c.isDigit || c = '.')
  let exponent :=
    match text.dropWhile (fun c => c.isDigit || c = '.') with
    | [] => ['0']
    | c :: rest =>
        if c.toLower ≠ 'e' then []
        else
          match rest with
          | '+' :: digits => digits
          | '-' :: digits => digits
          | digits => digits
  ["inf", "infinity", "nan"].contains (asciiLower (String.ofList text)) ||
    (mantissa.any Char.isDigit && mantissa.countP (· = '.') ≤ 1 && !exponent.isEmpty && exponent.all Char.isDigit)

/-- What a directive asks of a field. -/
structure FieldTest where
  name : String
  value : Option String := none
  deriving DecidableEq, Repr

namespace FieldTest

/-- Whether something can be asked of a value: it is a number with a sign or a pattern. Other numbers are
patterns too. -/
def isValue (text : String) : Bool :=
  match text.toList with
  | '+' :: rest => isMagnitude rest
  | cs => Pattern.isValid cs

/-- Read what is asked of a field. What follows a second sign of equality does not count. -/
def ofText? (text : String) : Option FieldTest :=
  if text.isEmpty then none
  else
    match text.splitOn "=" with
    | [name] => some ⟨name, none⟩
    | name :: value :: _ => if isValue value then some ⟨name, some value⟩ else none
    | [] => none

end FieldTest

/-! ## Directives -/

/-- A threshold and what it is for. -/
structure Directive where
  origin : Option String := none
  span : Option String := none
  field : Option FieldTest := none
  threshold : Threshold := some .trace
  deriving DecidableEq, Repr

namespace Directive

/-- What is being read of a directive, and since where. -/
inductive Part where
  | start
  | word
  | span (since : Nat)
  | field (since : Nat)
  | afterField
  | afterSpan
  | threshold (since : Nat)
  deriving DecidableEq, Repr

/-- The part of a text between two places, which are counted in bytes. -/
def cut? (text : String) (since upTo : Nat) : Option String :=
  String.fromUTF8? (text.toUTF8.extract since upTo)

/-- Go on by one character. -/
def next (text : String) (d : Directive) (part : Part) (place : Nat) (c : Char) : Option (Directive × Part) :=
  match part with
  | .start =>
      if c = '[' then some (d, .span (place + 1))
      else if c = '-' || c = ':' || c = '_' || CharClass.isAlphanumeric c then some (d, .word)
      else none
  | .word =>
      if c = '=' then (cut? text 0 place).map (fun origin => ({ d with origin }, .threshold (place + 1)))
      else if c = '[' then (cut? text 0 place).map (fun origin => ({ d with origin }, .span (place + 1)))
      else some (d, .word)
  | .span since =>
      if c = ']' then (cut? text since place).map (fun span => ({ d with span }, .afterSpan))
      else if c = '{' then
        (cut? text since place).map fun span =>
          ({ d with span := if span.isEmpty then none else some span }, .field (place + 1))
      else some (d, .span since)
  | .field since =>
      if c = '}' then
        ((cut? text since place).bind FieldTest.ofText?).map (fun field => ({ d with field }, .afterField))
      else some (d, .field since)
  | .afterField => if c = ']' then some (d, .afterSpan) else none
  | .afterSpan => if c = '=' then some (d, .threshold (place + 1)) else none
  | .threshold since => some (d, .threshold since)

/-- What is read when the text ends. A word alone is a threshold, or else an origin. -/
def finish (text : String) (d : Directive) : Part → Option Directive
  | .word =>
      match Threshold.ofText? text with
      | some threshold => some { d with threshold }
      | none => some { d with origin := some text }
  | .threshold since => do
      let threshold ← cut? text since text.utf8ByteSize
      if threshold.isEmpty then return d
      return { d with threshold := ← Threshold.ofText? threshold }
  | .afterSpan => some d
  | _ => none

def readFrom (text : String) (d : Directive) (part : Part) (place : Nat) : List Char → Option Directive
  | [] => finish text d part
  | c :: rest =>
      match next text d part place c with
      | none => none
      | some (d, part) => readFrom text d part (place + c.utf8Size) rest

/-- The characters of a text without the white space around it. -/
def trimmed (text : String) : List Char :=
  ((text.toList.dropWhile CharClass.isSpace).reverse.dropWhile CharClass.isSpace).reverse

def ofText? (text : String) : Option Directive :=
  readFrom text {} .start 0 (trimmed text)

end Directive

end BuildRound.Logging
