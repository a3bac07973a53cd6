import BuildRound.Settings.Yaml.Scalar

/-!
# YAML tokens

A text as a sequence of tokens. Block collections have no brackets of their own: a collection opens where
an entry or a key is indented more deeply than what surrounds it, and closes where the text is indented
less. Whether a scalar is a key shows only at the colon after it, so its place among the tokens is
remembered as long as it may still turn out to be one: it has to stand on one line with its colon, at most
1024 octets before it.

Escapes in tags stand for octets, which need not make up characters, and a tag ends at an octet zero.
-/

namespace BuildRound.Yaml

/-- The parts a text is made of. -/
inductive Token where
  | versionDirective (major minor : Nat)
  | tagDirective (handle : String) (start : List UInt8)
  | documentStart
  | documentEnd
  | blockSequenceStart
  | blockMappingStart
  | blockEnd
  | flowSequenceStart
  | flowSequenceEnd
  | flowMappingStart
  | flowMappingEnd
  | blockEntry
  | flowEntry
  | key
  | value
  | alias (name : String)
  | anchor (name : String)
  | tag (handle : String) (suffix : List UInt8)
  | scalar (style : Style) (text : String)
  | streamEnd
  deriving DecidableEq, Repr

/-! ## The state of reading -/

/-- A token that may turn out to begin a key, and whether it has to. -/
structure PossibleKey where
  token : Nat
  index : Nat
  line : Nat
  column : Nat
  required : Bool

/-- The tokens so far, and what decides how the text goes on. -/
structure Lexer where
  cursor : Cursor
  tokens : Array Token := #[]
  /-- The possible key of each collection around the cursor, the innermost first. -/
  keys : List (Option PossibleKey) := [none]
  /-- The column of the innermost block collection. -/
  indent : Int := -1
  /-- The columns of the block collections around it. -/
  indents : List Int := []
  /-- How many flow collections are open. -/
  depth : Nat := 0
  /-- Whether a key may begin here. -/
  keyAllowed : Bool := true

namespace Lexer

def inFlow (s : Lexer) : Bool :=
  s.depth > 0

def push (s : Lexer) (t : Token) : Lexer :=
  { s with tokens := s.tokens.push t }

def column (s : Lexer) : Int :=
  s.cursor.column

/-! ## Possible keys -/

/-- Give up the innermost possible key; one that is required may not be given up. -/
def dropKey? (s : Lexer) : Option Lexer :=
  match s.keys with
  | some k :: rest => if k.required then none else some { s with keys := none :: rest }
  | _ => some s

/-- Remember that the next token may begin a key, if one is allowed here. -/
def saveKey? (s : Lexer) : Option Lexer :=
  if s.keyAllowed then do
    let required := !s.inFlow && s.indent = s.column
    let s ← s.dropKey?
    let k : PossibleKey := ⟨s.tokens.size, s.cursor.index, s.cursor.line, s.cursor.column, required⟩
    return { s with keys := some k :: s.keys.tail }
  else some s

/-- Whether the cursor is too far away from a possible key. -/
def isPast (s : Lexer) (k : PossibleKey) : Bool :=
  k.line < s.cursor.line || k.index + 1024 < s.cursor.index

/-! ## Indentation -/

/-- Open a block collection at a column, unless one is open there; its token goes to the given place. -/
def openBlock (s : Lexer) (column : Int) (place : Nat) (t : Token) : Lexer :=
  if !s.inFlow && s.indent < column then
    { s with
      indents := s.indent :: s.indents
      indent := column
      tokens := s.tokens.insertIdxIfInBounds place t }
  else s

/-- Close the block collections that are indented more deeply than a column. -/
def closeBlocks (s : Lexer) (column : Int) : Lexer :=
  if s.inFlow then s
  else
    let rec go : List Int → Lexer → Lexer
      | [], s => s
      | outer :: rest, s =>
          if s.indent > column then
            go rest { s with tokens := s.tokens.push .blockEnd, indent := outer, indents := rest }
          else s
    go s.indents s

/-! ## White space -/

/-- Skip white space and comments up to the next token. A tab may not take part in the indentation of a
key. A byte order mark may stand at the beginning of a line, and takes up a column there. -/
def skipSpace (s : Lexer) : Nat → Lexer
  | 0 => s
  | n + 1 =>
      let tabs := s.inFlow || !s.keyAllowed
      let c := if s.cursor.column = 0 && s.cursor.at? (Char.ofNat 0xFEFF) then s.cursor.skip else s.cursor
      let c := c.skipWhile (fun ch => ch = ' ' || (tabs && ch = '\t'))
      let c := if c.at? '#' then c.skipWhile (fun ch => !isBreak ch) else c
      if c.atBreak then
        skipSpace { s with cursor := c.skipBreak, keyAllowed := s.keyAllowed || !s.inFlow } n
      else { s with cursor := c }

/-! ## Names and tags -/

/-- Read the name of an anchor or alias, with the cursor after its indicator. -/
def anchorName? (c : Cursor) : Option (String × Cursor) :=
  let name := c.rest.takeWhile isWord
  let c := c.skipMany name.length
  if !name.isEmpty && (c.gap 0 || c.among 0 ['?', ':', ',', ']', '\x7d', '%', '@', Char.ofNat 96]) then
    some (String.ofList name, c)
  else none

/-- Characters of tags; commas and brackets only where `open` says so. -/
def isTagChar (brackets : Bool) (c : Char) : Bool :=
  isWord c || c ∈ ";/?:@&=+$.%!~*'()".toList || (brackets && c ∈ [',', '[', ']'])

/-- Read an octet that is written in hexadecimal digits. -/
def escapedOctet? : List Char → Option (UInt8 × List Char)
  | '%' :: a :: b :: rest => (Word.digits? 16 [a, b]).map (fun n => (UInt8.ofNat n, rest))
  | _ => none

/-- How many octets follow one that leads a character. -/
def followers? (lead : UInt8) : Option Nat :=
  if lead < 0x80 then some 0
  else if 0xC0 ≤ lead && lead < 0xE0 then some 1
  else if 0xE0 ≤ lead && lead < 0xF0 then some 2
  else if 0xF0 ≤ lead && lead < 0xF8 then some 3
  else none

/-- Read so many octets that follow a leading one. -/
def readFollowers : Nat → List Char → Option (List UInt8 × List Char)
  | 0, cs => some ([], cs)
  | n + 1, cs => do
      let (octet, rest) ← escapedOctet? cs
      if 0x80 ≤ octet && octet < 0xC0 then
        let (octets, rest) ← readFollowers n rest
        return (octet :: octets, rest)
      else none

/-- The octets of a tag. Escaped ones come as a leading octet with those that follow it. -/
def tagOctets? : Nat → List Char → Option (List UInt8)
  | 0, _ => none
  | _ + 1, [] => some []
  | n + 1, '%' :: rest => do
      let (lead, rest) ← escapedOctet? ('%' :: rest)
      let (octets, rest) ← readFollowers (← followers? lead) rest
      return lead :: octets ++ (← tagOctets? n rest)
  | n + 1, c :: rest => do return UInt8.ofNat c.toNat :: (← tagOctets? n rest)

/-- Read what follows the handle of a tag. It may be empty only if something of the handle is kept. -/
def tagSuffix? (brackets : Bool) (kept : List Char) (mayBeEmpty : Bool) (c : Cursor) :
    Option (List UInt8 × Cursor) := do
  let written := c.rest.takeWhile (isTagChar brackets)
  if written.isEmpty && !mayBeEmpty then none
  else
    let octets ← tagOctets? (kept.length + written.length + 1) (kept ++ written)
    return (octets.takeWhile (· ≠ 0), c.skipMany written.length)

/-- Read the handle of a tag: exclamation marks with a name between them, or the beginning of that. -/
def tagHandle? (directive : Bool) (c : Cursor) : Option (List Char × Cursor) :=
  if c.at? '!' then
    let name := c.skip.rest.takeWhile isWord
    let c := c.skip.skipMany name.length
    if c.at? '!' then some ('!' :: name ++ ['!'], c.skip)
    else if directive && !name.isEmpty then none
    else some ('!' :: name, c)
  else none

def tag? (inFlow : Bool) (c : Cursor) : Option (Token × Cursor) := do
  let (t, c) ←
    if c.peek 1 = some '<' then do
      let (suffix, c) ← tagSuffix? true [] false (c.skipMany 2)
      if c.at? '>' then some (Token.tag "" suffix, c.skip) else none
    else do
      let (handle, c) ← tagHandle? false c
      if handle.length > 1 && handle.getLast? = some '!' then do
        let (suffix, c) ← tagSuffix? false [] false c
        some (Token.tag (String.ofList handle) suffix, c)
      else do
        let (suffix, c) ← tagSuffix? false handle.tail true c
        some (if suffix = [] then Token.tag "" "!".toUTF8.toList else Token.tag "!" suffix, c)
  if c.gap 0 || (inFlow && c.at? ',') then some (t, c) else none

/-! ## Directives -/

def versionNumber? (c : Cursor) : Option (Nat × Cursor) := do
  let ds := c.rest.takeWhile Char.isDigit
  if ds.length > 9 then none
  else return (← Word.digits? 10 ds, c.skipMany ds.length)

/-- Read a directive, with the cursor at its percent sign. -/
def directive? (c : Cursor) : Option (Token × Cursor) := do
  let name := c.skip.rest.takeWhile isWord
  let c := c.skip.skipMany name.length
  if !c.gap 0 then none
  else
    let c := c.skipWhile isBlank
    let (t, c) ←
      if name = "YAML".toList then do
        let (major, c) ← versionNumber? c
        if !c.at? '.' then none
        else
          let (minor, c) ← versionNumber? c.skip
          some (Token.versionDirective major minor, c)
      else if name = "TAG".toList then do
        let (handle, c) ← tagHandle? true c
        if !c.atBlank then none
        else
          let (start, c) ← tagSuffix? true [] false (c.skipWhile isBlank)
          if c.gap 0 then some (Token.tagDirective (String.ofList handle) start, c) else none
      else none
    return (t, (← c.skipComment?).skipBreak)

/-! ## Tokens -/

/-- Add a token of `n` characters that can neither be nor precede a key on its line. -/
def indicator (s : Lexer) (n : Nat) (t : Token) : Lexer :=
  { s.push t with cursor := s.cursor.skipMany n }

/-- The marker of a document's beginning or end. -/
def documentMarker? (s : Lexer) (t : Token) : Option Lexer := do
  let s ← (s.closeBlocks (-1)).dropKey?
  return { s with keyAllowed := false }.indicator 3 t

def openFlow? (s : Lexer) (t : Token) : Option Lexer := do
  let s ← s.saveKey?
  return { s with keys := none :: s.keys, depth := s.depth + 1, keyAllowed := true }.indicator 1 t

def closeFlow? (s : Lexer) (t : Token) : Option Lexer := do
  let s ← s.dropKey?
  let keys := if s.depth = 0 then s.keys else s.keys.tail
  return { s with keys, depth := s.depth - 1, keyAllowed := false }.indicator 1 t

/-- The dash before an entry of a block sequence. -/
def entry? (s : Lexer) : Option Lexer := do
  let s ←
    if s.inFlow then some s
    else if s.keyAllowed then some (s.openBlock s.column s.tokens.size .blockSequenceStart)
    else none
  let s ← s.dropKey?
  return { s with keyAllowed := true }.indicator 1 .blockEntry

/-- The question mark before a key. -/
def key? (s : Lexer) : Option Lexer := do
  let s ←
    if s.inFlow then some s
    else if s.keyAllowed then some (s.openBlock s.column s.tokens.size .blockMappingStart)
    else none
  let s ← s.dropKey?
  return { s with keyAllowed := !s.inFlow }.indicator 1 .key

/-- The colon before a value whose key is complex or left out. -/
def bareValue? (s : Lexer) : Option Lexer :=
  if s.inFlow then some ({ s with keyAllowed := false }.indicator 1 .value)
  else if s.keyAllowed then
    let s := s.openBlock s.column s.tokens.size .blockMappingStart
    some ({ s with keyAllowed := true }.indicator 1 .value)
  else none

/-- The colon before a value. If a key is still possible, it is one now. -/
def value? (s : Lexer) : Option Lexer :=
  match s.keys with
  | some k :: rest =>
      if s.isPast k then s.dropKey?.bind bareValue?
      else
        let s := { s with tokens := s.tokens.insertIdxIfInBounds k.token .key, keys := none :: rest }
        let s := s.openBlock k.column k.token .blockMappingStart
        some ({ s with keyAllowed := false }.indicator 1 .value)
  | _ => s.bareValue?

/-- A token that may begin a key: an alias, an anchor, a tag or a scalar on one line. -/
def nodePart? (s : Lexer) (read : Cursor → Option (Token × Cursor)) : Option Lexer := do
  let s ← s.saveKey?
  let (t, cursor) ← read s.cursor
  return { s.push t with cursor, keyAllowed := false }

/-- A plain scalar. A key may follow it if it ends with a line. -/
def plain? (s : Lexer) : Option Lexer := do
  let s ← s.saveKey?
  let (text, broken, cursor) ← plainScalar s.inFlow (s.indent + 1) s.cursor
  return { s.push (.scalar .plain text) with cursor, keyAllowed := broken }

def block? (s : Lexer) (folds : Bool) : Option Lexer := do
  let s ← s.dropKey?
  let (text, cursor) ← blockScalar folds s.indent s.cursor
  let style := if folds then Style.folded else Style.literal
  return { s.push (.scalar style text) with cursor, keyAllowed := true }

/-- Whether a plain scalar may begin at the cursor. -/
def beginsPlain (s : Lexer) : Bool :=
  let c := s.cursor
  match c.rest with
  | [] => false
  | ch :: _ =>
      let indicators := "-?:,[]#&*!|>'\"%@".toList ++ ['\x7b', '\x7d', Char.ofNat 96]
      if isBlank ch || isBreak ch then false
      else if ch ∉ indicators then true
      else if ch = '-' then !((c.peek 1).any isBlank)
      else !s.inFlow && (ch = '?' || ch = ':') && !c.gap 1

/-- Read the next token; the answer also says whether the text is at its end. -/
def next? (s : Lexer) : Option (Bool × Lexer) := do
  let s := s.skipSpace (s.cursor.left + 1)
  let s := s.closeBlocks s.column
  let c := s.cursor
  let more (s : Option Lexer) : Option (Bool × Lexer) := s.map (false, ·)
  match c.rest with
  | [] => do
      let s ← (s.closeBlocks (-1)).dropKey?
      return (true, s.push .streamEnd)
  | ch :: _ =>
      if c.column = 0 && ch = '%' then do
        let s ← (s.closeBlocks (-1)).dropKey?
        let (t, cursor) ← directive? s.cursor
        return (false, { s.push t with cursor, keyAllowed := false })
      else if c.atMarker '-' then more (s.documentMarker? .documentStart)
      else if c.atMarker '.' then more (s.documentMarker? .documentEnd)
      else if ch = '[' then more (s.openFlow? .flowSequenceStart)
      else if ch = '\x7b' then more (s.openFlow? .flowMappingStart)
      else if ch = ']' then more (s.closeFlow? .flowSequenceEnd)
      else if ch = '\x7d' then more (s.closeFlow? .flowMappingEnd)
      else if ch = ',' then do
        let s ← s.dropKey?
        return (false, { s with keyAllowed := true }.indicator 1 .flowEntry)
      else if ch = '-' && c.gap 1 then more s.entry?
      else if ch = '?' && (s.inFlow || c.gap 1) then more s.key?
      else if ch = ':' && (s.inFlow || c.gap 1) then more s.value?
      else if ch = '*' then
        more (s.nodePart? fun c => (anchorName? c.skip).map fun (name, c) => (.alias name, c))
      else if ch = '&' then
        more (s.nodePart? fun c => (anchorName? c.skip).map fun (name, c) => (.anchor name, c))
      else if ch = '!' then more (s.nodePart? (tag? s.inFlow))
      else if ch = '|' && !s.inFlow then more (s.block? false)
      else if ch = '>' && !s.inFlow then more (s.block? true)
      else if ch = '\'' || ch = '"' then
        more (s.nodePart? fun c => (quotedScalar ch c).map fun (text, c) => (.scalar .quoted text, c))
      else if s.beginsPlain then more s.plain?
      else none

def run : Nat → Lexer → Option (Array Token)
  | 0, _ => none
  | n + 1, s => do
      let (finished, s) ← s.next?
      if finished then return s.tokens else run n s

end Lexer

def tokens? (text : String) : Option (Array Token) :=
  let cursor := Cursor.ofText text
  if cursor.rest.all isPrintable then Lexer.run (cursor.size + 2) { cursor } else none

end BuildRound.Yaml
