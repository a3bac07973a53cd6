import BuildRound.Settings.Document

/-!
# TOML scalars

Numbers, dates and strings of the typed format. A number or date is taken as the longest run of characters
that may occur in one and then has to be of one of the known forms; fields take integers, so of a float only
the form matters.
-/

namespace BuildRound.Toml

/-- A reader takes what it reads off the front of its input. -/
abbrev Reader (α : Type) := List Char → Option (α × List Char)

/-! ## Characters -/

def isBlank (c : Char) : Bool :=
  c = ' ' || c = '\t'

/-- Characters that may stand in comments and strings: no control characters but the tab. -/
def isPlain (c : Char) : Bool :=
  c = '\t' || (0x20 ≤ c.toNat && c.toNat ≠ 0x7F)

/-- Characters of keys without quotes. -/
def isBare (c : Char) : Bool :=
  c.isAlphanum || c = '_' || c = '-'

def skipBlanks (cs : List Char) : List Char :=
  cs.dropWhile isBlank

def lineBreak? : List Char → Option (List Char)
  | '\n' :: cs => some cs
  | '\r' :: '\n' :: cs => some cs
  | _ => none

/-! ## Numbers -/

def maxInt : Nat := Nat.pow 2 63 - 1

/-- Digits of a base with single underscores between them, without the underscores. -/
def groupedDigits? (base : Nat) (cs : List Char) : Option (List Char) :=
  let ok (c : Char) : Bool := (Word.digitValue c).any (· < base)
  let rec go : Bool → List Char → Option (List Char)
    | afterDigit, [] => if afterDigit then some [] else none
    | afterDigit, '_' :: rest => if afterDigit then go false rest else none
    | _, c :: rest => if ok c then (go true rest).map (c :: ·) else none
  go false cs

/-- Decimal digits, of which the first is no needless zero. -/
def decimal? (cs : List Char) : Option (List Char) :=
  match groupedDigits? 10 cs with
  | some ('0' :: _ :: _) => none
  | r => r

/-- A sign in front and the rest. -/
def splitSign : List Char → Bool × List Char
  | '-' :: cs => (true, cs)
  | '+' :: cs => (false, cs)
  | cs => (false, cs)

/-- An integer of a base other than ten. -/
def based? (base : Nat) (cs : List Char) : Option Int := do
  let n ← Word.digits? base (← groupedDigits? base cs)
  if n ≤ maxInt then some (Int.ofNat n) else none

def integer? (cs : List Char) : Option Int :=
  match cs with
  | '0' :: 'x' :: rest => based? 16 rest
  | '0' :: 'o' :: rest => based? 8 rest
  | '0' :: 'b' :: rest => based? 2 rest
  | _ => do
      let (negative, rest) := splitSign cs
      let n ← Word.digits? 10 (← decimal? rest)
      if negative then if n ≤ maxInt + 1 then some (-Int.ofNat n) else none
      else if n ≤ maxInt then some (Int.ofNat n)
      else none

/-- Whether `digits * 10 ^ exponent` rounds to a finite number of 64 bits. -/
def isFinite (digits : List Char) (exponent : Int) : Bool :=
  match Word.digits? 10 digits with
  | none => false
  | some 0 => true
  | some m =>
      let size : Int := (toString m).length + exponent
      if size > 310 then false
      else if size < 308 then true
      else
        let limit := Nat.pow 2 1024 - Nat.pow 2 970
        if 0 ≤ exponent then m * Nat.pow 10 exponent.toNat < limit
        else m < limit * Nat.pow 10 (-exponent).toNat

/-- Whether this is the form of a float: a fraction or an exponent follows the integer, or it is infinite
or no number. What is too large for a float is not one, unless it is negative. -/
def isFloat (cs : List Char) : Bool :=
  let (negative, rest) := splitSign cs
  if rest = ['i', 'n', 'f'] || rest = ['n', 'a', 'n'] then true
  else
    let isE (c : Char) : Bool := c = 'e' || c = 'E'
    let mantissa := rest.takeWhile (fun c => !isE c)
    let exponent := rest.dropWhile (fun c => !isE c)
    let whole := mantissa.takeWhile (· ≠ '.')
    let fraction := mantissa.dropWhile (· ≠ '.')
    let fractionDigits? : Option (List Char) :=
      match fraction with
      | [] => some []
      | _ :: ds => groupedDigits? 10 ds
    let exponentValue? : Option Int :=
      match exponent with
      | [] => some 0
      | _ :: ds => do
          let (down, ds) := splitSign ds
          let n ← Word.digits? 10 (← groupedDigits? 10 ds)
          return if down then -Int.ofNat n else Int.ofNat n
    match decimal? whole, fractionDigits?, exponentValue? with
    | some w, some f, some e =>
        (!fraction.isEmpty || !exponent.isEmpty) && (negative || isFinite (w ++ f) (e - f.length))
    | _, _, _ => false

/-! ## Dates and times -/

/-- A number of exactly so many digits and the rest. -/
def fixedDigits? (n : Nat) (cs : List Char) : Option (Nat × List Char) :=
  let ds := cs.take n
  if ds.length = n ∧ ds.all Char.isDigit then (Word.digits? 10 ds).map (·, cs.drop n) else none

def daysInMonth (year month : Nat) : Nat :=
  if month = 2 then
    if year % 4 = 0 ∧ (year % 100 ≠ 0 ∨ year % 400 = 0) then 29 else 28
  else if month ∈ [4, 6, 9, 11] then 30
  else 31

def expect? (c : Char) : List Char → Option (List Char)
  | d :: cs => if c = d then some cs else none
  | [] => none

def date? (cs : List Char) : Option (List Char) := do
  let (year, cs) ← fixedDigits? 4 cs
  let (month, cs) ← fixedDigits? 2 (← expect? '-' cs)
  let (day, cs) ← fixedDigits? 2 (← expect? '-' cs)
  if 1 ≤ month ∧ month ≤ 12 ∧ 1 ≤ day ∧ day ≤ daysInMonth year month then some cs else none

/-- Take hours and minutes. -/
def hourMinute? (cs : List Char) : Option (List Char) := do
  let (hour, cs) ← fixedDigits? 2 cs
  let (minute, cs) ← fixedDigits? 2 (← expect? ':' cs)
  if hour ≤ 23 ∧ minute ≤ 59 then some cs else none

def time? (cs : List Char) : Option (List Char) := do
  let cs ← hourMinute? cs
  let (second, cs) ← fixedDigits? 2 (← expect? ':' cs)
  if second > 60 then none
  else
    match cs with
    | '.' :: rest =>
        if (rest.takeWhile Char.isDigit).isEmpty then none else some (rest.dropWhile Char.isDigit)
    | _ => some cs

/-- Whether this is an offset from universal time, or nothing. -/
def isOffset : List Char → Bool
  | [] => true
  | ['Z'] => true
  | ['z'] => true
  | '+' :: cs => hourMinute? cs = some []
  | '-' :: cs => hourMinute? cs = some []
  | _ => false

/-- Whether this is the form of a date, a time, or both. -/
def isDateTime (cs : List Char) : Bool :=
  if time? cs = some [] then true
  else
    match date? cs with
    | some [] => true
    | some (c :: rest) => (c = 'T' || c = 't' || c = ' ') && (time? rest).any isOffset
    | none => false

/-! ## Scalars without quotes -/

/-- Characters that may occur in a number, a date or a word. -/
def isRun (c : Char) : Bool :=
  c.isAlphanum || c ∈ ['_', '+', '-', '.', ':']

/-- A date or time reads as a table, whose only entry is its text under a name that no field has. -/
def ofDateTime (run : List Char) : Document :=
  .table [("datetime", .text (String.ofList run))]

/-- The value of a run of such characters. -/
def ofRun? (run : List Char) : Option Document :=
  if run = "true".toList then some (.bool true)
  else if run = "false".toList then some (.bool false)
  else
    match integer? run with
    | some i => some (.int i)
    | none =>
        if isFloat run then some .other
        else if isDateTime run then some (ofDateTime run)
        else none

/-- Read a scalar without quotes. A time may follow its date after a space. -/
def unquoted : Reader Document := fun cs =>
  let run := cs.takeWhile isRun
  let rest := cs.dropWhile isRun
  match rest with
  | ' ' :: c :: more =>
      if date? run = some [] ∧ c.isDigit then
        (ofRun? (run ++ ' ' :: (c :: more).takeWhile isRun)).map (·, (c :: more).dropWhile isRun)
      else (ofRun? run).map (·, rest)
  | _ => (ofRun? run).map (·, rest)

/-! ## Strings -/

/-- The character with this code, written in so many hexadecimal digits. -/
def hexChar? (n : Nat) (cs : List Char) : Option (Char × List Char) := do
  let ds := cs.take n
  let code ← if ds.length = n then Word.digits? 16 ds else none
  if code.isValidChar then some (Char.ofNat code, cs.drop n) else none

/-- The character that an escape after a backslash stands for. -/
def escape? : List Char → Option (Char × List Char)
  | 'b' :: cs => some (Char.ofNat 8, cs)
  | 't' :: cs => some ('\t', cs)
  | 'n' :: cs => some ('\n', cs)
  | 'f' :: cs => some (Char.ofNat 12, cs)
  | 'r' :: cs => some ('\r', cs)
  | '"' :: cs => some ('"', cs)
  | '\\' :: cs => some ('\\', cs)
  | 'u' :: cs => hexChar? 4 cs
  | 'U' :: cs => hexChar? 8 cs
  | _ => none

/-- The inside of a string on one line, up to the quote that ends it. Backslashes escape if `escapes`. -/
def lineString (quote : Char) (escapes : Bool) : Nat → Reader (List Char)
  | 0, _ => none
  | _ + 1, [] => none
  | n + 1, c :: cs =>
      if c = quote then some ([], cs)
      else if escapes && c = '\\' then do
        let (d, rest) ← escape? cs
        let (ds, rest) ← lineString quote escapes n rest
        return (d :: ds, rest)
      else if isPlain c then do
        let (ds, rest) ← lineString quote escapes n cs
        return (c :: ds, rest)
      else none

def skipSpace : Nat → List Char → List Char
  | 0, cs => cs
  | n + 1, cs =>
      let cs := skipBlanks cs
      match lineBreak? cs with
      | none => cs
      | some rest => skipSpace n rest

/-- The inside of a string over several lines, up to the three quotes that end it; up to two further
quotes may stand before them. A backslash at the end of a line joins it to the next text. -/
def textString (quote : Char) (escapes : Bool) : Nat → Reader (List Char)
  | 0, _ => none
  | _ + 1, [] => none
  | n + 1, c :: cs =>
      if c = quote then
        let run := (c :: cs).takeWhile (· = quote)
        if run.length < 3 then do
          let (ds, rest) ← textString quote escapes n cs
          return (c :: ds, rest)
        else
          let taken := min run.length 5
          some (run.take (taken - 3), (c :: cs).drop taken)
      else if escapes && c = '\\' then
        match lineBreak? (skipBlanks cs) with
        | some rest => textString quote escapes n (skipSpace n rest)
        | none => do
            let (d, rest) ← escape? cs
            let (ds, rest) ← textString quote escapes n rest
            return (d :: ds, rest)
      else
        match lineBreak? (c :: cs) with
        | some rest => do
            let (ds, rest) ← textString quote escapes n rest
            return ('\n' :: ds, rest)
        | none =>
            if isPlain c then do
              let (ds, rest) ← textString quote escapes n cs
              return (c :: ds, rest)
            else none

/-- Read a string on one line, with its quotes. -/
def quoted : Reader String
  | '"' :: cs => (lineString '"' true (cs.length + 1) cs).map (fun (s, r) => (String.ofList s, r))
  | '\'' :: cs => (lineString '\'' false (cs.length + 1) cs).map (fun (s, r) => (String.ofList s, r))
  | _ => none

/-- Read a string of either kind, with its quotes. -/
def string : Reader String
  | '"' :: '"' :: '"' :: cs => several '"' true cs
  | '\'' :: '\'' :: '\'' :: cs => several '\'' false cs
  | cs => quoted cs
where
  /-- A line break right after the opening quotes does not count. -/
  several (quote : Char) (escapes : Bool) (cs : List Char) : Option (String × List Char) :=
    let cs := (lineBreak? cs).getD cs
    (textString quote escapes (cs.length + 1) cs).map (fun (s, r) => (String.ofList s, r))

end BuildRound.Toml
