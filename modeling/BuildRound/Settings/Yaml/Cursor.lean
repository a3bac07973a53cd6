/-!
# Positions in a YAML text

A cursor is what is left of a text with the line and column reached. Columns count characters, the index
counts octets. A line break may be one of several characters or a pair of them, and all of those read as a
line feed except the two separators of Unicode.
-/

namespace BuildRound.Yaml

/-! ## Characters -/

/-- Characters that may stand in a text at all. -/
def isPrintable (c : Char) : Bool :=
  let n := c.toNat
  n = 0x09 || n = 0x0A || n = 0x0D || (0x20 ≤ n && n ≤ 0x7E) || n = 0x85 || (0xA0 ≤ n && n ≤ 0xD7FF) ||
    (0xE000 ≤ n && n ≤ 0xFFFD) || 0x10000 ≤ n

def isBlank (c : Char) : Bool :=
  c = ' ' || c = '\t'

/-- Characters that break a line. -/
def isBreak (c : Char) : Bool :=
  c = '\n' || c = '\r' || c.toNat ∈ [0x85, 0x2028, 0x2029]

/-- Characters of names. -/
def isWord (c : Char) : Bool :=
  c.isAlphanum || c = '_' || c = '-'

/-! ## Cursors -/

/-- The number of octets that characters take up. -/
def octets (cs : List Char) : Nat :=
  cs.foldl (fun n c => n + c.utf8Size) 0

/-- What is left of a text of so many octets, and where that begins. -/
structure Cursor where
  rest : List Char
  size : Nat
  index : Nat := 0
  line : Nat := 0
  column : Nat := 0

namespace Cursor

def ofText (text : String) : Cursor :=
  { rest := text.toList, size := text.utf8ByteSize }

def left (c : Cursor) : Nat :=
  c.size - c.index

/-- The character that is `n` characters ahead. -/
def peek (c : Cursor) (n : Nat) : Option Char :=
  c.rest[n]?

def at? (c : Cursor) (ch : Char) : Bool :=
  c.rest.head? = some ch

/-- Whether one of these characters is `n` characters ahead. -/
def among (c : Cursor) (n : Nat) (chs : List Char) : Bool :=
  (c.peek n).any (· ∈ chs)

def atEnd (c : Cursor) : Bool :=
  c.rest.isEmpty

def atBreak (c : Cursor) : Bool :=
  c.rest.head?.any isBreak

def atBlank (c : Cursor) : Bool :=
  c.rest.head?.any isBlank

/-- Whether a blank, a line break or the end is `n` characters ahead. -/
def gap (c : Cursor) (n : Nat) : Bool :=
  (c.peek n).all (fun ch => isBlank ch || isBreak ch)

def lineEnds (c : Cursor) : Bool :=
  c.rest.head?.all isBreak

/-- Step over one character of a line. -/
def skip (c : Cursor) : Cursor :=
  { c with rest := c.rest.tail, index := c.index + octets (c.rest.take 1), column := c.column + 1 }

/-- Step over some characters of a line. -/
def skipMany (c : Cursor) (n : Nat) : Cursor :=
  { c with rest := c.rest.drop n, index := c.index + octets (c.rest.take n), column := c.column + n }

/-- Step over the characters of a line that satisfy `p`. -/
def skipWhile (c : Cursor) (p : Char → Bool) : Cursor :=
  c.skipMany (c.rest.takeWhile p).length

/-- Step over a line break, if one comes next, and give what it reads as. -/
def readBreak (c : Cursor) : List Char × Cursor :=
  let next (n : Nat) : Cursor :=
    { c with
      rest := c.rest.drop n, index := c.index + octets (c.rest.take n), line := c.line + 1, column := 0 }
  match c.rest with
  | '\r' :: '\n' :: _ => (['\n'], next 2)
  | ch :: _ =>
      if ch.toNat ∈ [0x2028, 0x2029] then ([ch], next 1)
      else if isBreak ch then (['\n'], next 1)
      else ([], c)
  | [] => ([], c)

def skipBreak (c : Cursor) : Cursor :=
  c.readBreak.2

/-- Whether a marker of three characters stands alone at the beginning of a line. -/
def atMarker (c : Cursor) (ch : Char) : Bool :=
  c.column = 0 && c.rest.take 3 = [ch, ch, ch] && c.gap 3

/-- Whether a document begins or ends here with a marker. -/
def atDocumentMarker (c : Cursor) : Bool :=
  c.atMarker '-' || c.atMarker '.'

/-- Step over the rest of a line, where nothing but a comment may stand; the line break stays. -/
def skipComment? (c : Cursor) : Option Cursor :=
  let c := c.skipWhile isBlank
  let c := if c.at? '#' then c.skipWhile (fun ch => !isBreak ch) else c
  if c.lineEnds then some c else none

end Cursor

end BuildRound.Yaml
