import BuildRound.Settings.Document
import BuildRound.Settings.Yaml.Cursor

/-!
# YAML scalars

The texts of scalars in their five styles. Within a scalar a single line break reads as a space, and of
several line breaks all but the first are kept; the literal style keeps all. Escapes exist between double
quotes only.
-/

namespace BuildRound.Yaml

/-- How a scalar is written, as far as it matters for what it means. -/
inductive Style where
  | plain
  | quoted
  | literal
  | folded
  deriving DecidableEq, Repr

/-! ## Pending white space -/

/-- White space that was read within a scalar and counts only if text follows it. The blanks, and the line
breaks after the first, are in reverse. -/
structure Pending where
  blanks : List Char := []
  firstBreak : List Char := []
  furtherBreaks : List Char := []
  onNewLine : Bool := false

namespace Pending

/-- What the white space reads as when text follows, in reverse. -/
def text (p : Pending) : List Char :=
  if p.onNewLine then
    if p.firstBreak = ['\n'] then if p.furtherBreaks.isEmpty then [' '] else p.furtherBreaks
    else p.furtherBreaks ++ p.firstBreak.reverse
  else p.blanks

def addBlank (p : Pending) (c : Char) : Pending :=
  if p.onNewLine then p else { p with blanks := c :: p.blanks }

def addBreak (p : Pending) (b : List Char) : Pending :=
  if p.onNewLine then { p with furtherBreaks := b.reverse ++ p.furtherBreaks }
  else { p with blanks := [], firstBreak := b, onNewLine := true }

end Pending

/-! ## Plain scalars -/

/-- Characters that end a plain scalar in a flow collection. -/
def flowIndicators : List Char :=
  [',', '[', ']', '\x7b', '\x7d']

/-- Whether a plain scalar ends before the next character. -/
def plainEnds (inFlow : Bool) (c : Cursor) : Bool :=
  (c.at? ':' && c.gap 1) || (inFlow && c.among 0 flowIndicators)

mutual
/-- The text of a plain scalar that may go on at the cursor, in reverse; whether a line break came after
it; and where it ends. In a block collection its lines have to be indented by `indent`. -/
def plainWord (inFlow : Bool) (indent : Int) :
    Nat → List Char → Pending → Cursor → Option (List Char × Bool × Cursor)
  | 0, _, _, _ => none
  | n + 1, text, pending, c =>
      if c.atDocumentMarker || c.at? '#' then some (text, pending.onNewLine, c)
      else plainChars inFlow indent n text pending c

/-- The same within a word, where a `#` is a character like any other. -/
def plainChars (inFlow : Bool) (indent : Int) :
    Nat → List Char → Pending → Cursor → Option (List Char × Bool × Cursor)
  | 0, _, _, _ => none
  | n + 1, text, pending, c =>
      match c.rest with
      | [] => some (text, pending.onNewLine, c)
      | ch :: _ =>
          if isBlank ch || isBreak ch then plainSpace inFlow indent n text pending c
          else if inFlow && ch = ':' && c.among 1 ('?' :: flowIndicators) then none
          else if plainEnds inFlow c then some (text, pending.onNewLine, c)
          else plainChars inFlow indent n (ch :: (pending.text ++ text)) {} c.skip

/-- The same in white space. -/
def plainSpace (inFlow : Bool) (indent : Int) :
    Nat → List Char → Pending → Cursor → Option (List Char × Bool × Cursor)
  | 0, _, _, _ => none
  | n + 1, text, pending, c =>
      match c.rest with
      | [] => plainAfterSpace inFlow indent n text pending c
      | ch :: _ =>
          if isBlank ch then
            if pending.onNewLine && (c.column : Int) < indent && ch = '\t' then none
            else plainSpace inFlow indent n text (pending.addBlank ch) c.skip
          else if isBreak ch then
            let (b, c) := c.readBreak
            plainSpace inFlow indent n text (pending.addBreak b) c
          else plainAfterSpace inFlow indent n text pending c

/-- The same after white space: a line that is not indented ends the scalar. -/
def plainAfterSpace (inFlow : Bool) (indent : Int) :
    Nat → List Char → Pending → Cursor → Option (List Char × Bool × Cursor)
  | 0, _, _, _ => none
  | n + 1, text, pending, c =>
      if !inFlow && (c.column : Int) < indent then some (text, pending.onNewLine, c)
      else plainWord inFlow indent n text pending c
end

/-- Read a plain scalar; the answer also says whether a line break came after it. -/
def plainScalar (inFlow : Bool) (indent : Int) (c : Cursor) : Option (String × Bool × Cursor) := do
  let (text, broken, c) ← plainWord inFlow indent (4 * c.left + 8) [] {} c
  return (String.ofList text.reverse, broken, c)

/-! ## Quoted scalars -/

/-- The character with this code, written in so many hexadecimal digits. -/
def hexChar? (digits : Nat) (c : Cursor) : Option (Char × Cursor) := do
  let ds := c.rest.take digits
  let code ← if ds.length = digits then Word.digits? 16 ds else none
  if code.isValidChar then some (Char.ofNat code, c.skipMany digits) else none

/-- The characters that short escapes stand for. -/
def shortEscapes : List (Char × Nat) :=
  [('0', 0), ('a', 7), ('b', 8), ('t', 9), ('\t', 9), ('n', 10), ('v', 11), ('f', 12), ('r', 13), ('e', 27),
    (' ', 0x20), ('"', 0x22), ('/', 0x2F), ('\\', 0x5C), ('N', 0x85), ('_', 0xA0), ('L', 0x2028), ('P', 0x2029)]

/-- The character that an escape stands for, with the cursor after the backslash. -/
def escape? (c : Cursor) : Option (Char × Cursor) := do
  let ch ← c.peek 0
  match shortEscapes.lookup ch with
  | some code => some (Char.ofNat code, c.skip)
  | none =>
      match ch with
      | 'x' => hexChar? 2 c.skip
      | 'u' => hexChar? 4 c.skip
      | 'U' => hexChar? 8 c.skip
      | _ => none

mutual
/-- The text of a quoted scalar from the cursor on, in reverse, and where it ends. -/
def quotedChars (quote : Char) : Nat → List Char → Pending → Cursor → Option (List Char × Cursor)
  | 0, _, _, _ => none
  | n + 1, text, pending, c =>
      match c.rest with
      | [] => none
      | ch :: _ =>
          let text' := pending.text ++ text
          if isBlank ch || isBreak ch then quotedSpace quote n text' {} c
          else if quote = '\'' && ch = '\'' && c.peek 1 = some '\'' then
            quotedChars quote n ('\'' :: text') {} (c.skipMany 2)
          else if ch = quote then some (text', c.skip)
          else if quote = '"' && ch = '\\' then
            if (c.peek 1).any isBreak then
              quotedSpace quote n text' { onNewLine := true } c.skip.skipBreak
            else
              match escape? c.skip with
              | none => none
              | some (d, c) => quotedChars quote n (d :: text') {} c
          else quotedChars quote n (ch :: text') {} c.skip

/-- The same in white space. A document marker may not stand within a scalar. -/
def quotedSpace (quote : Char) : Nat → List Char → Pending → Cursor → Option (List Char × Cursor)
  | 0, _, _, _ => none
  | n + 1, text, pending, c =>
      if c.atBlank then quotedSpace quote n text (pending.addBlank (c.rest.headD ' ')) c.skip
      else if c.atBreak then
        let (b, c) := c.readBreak
        quotedSpace quote n text (pending.addBreak b) c
      else if c.atDocumentMarker then none
      else quotedChars quote n text pending c
end

/-- Read a quoted scalar, with the cursor at its first quote. -/
def quotedScalar (quote : Char) (c : Cursor) : Option (String × Cursor) := do
  let (text, c) ← quotedChars quote (4 * c.left + 8) [] {} c.skip
  return (String.ofList text.reverse, c)

/-! ## Block scalars -/

/-- What becomes of the line breaks at the end of a block scalar. -/
inductive Chomping where
  | strip
  | clip
  | keep
  deriving DecidableEq, Repr

/-- Read the header of a block scalar: an indentation indicator and a chomping indicator in either order. -/
def blockHeader? (c : Cursor) : Option (Chomping × Option Nat × Cursor) := do
  let chomping? (c : Cursor) : Option (Chomping × Cursor) :=
    if c.at? '+' then some (.keep, c.skip) else if c.at? '-' then some (.strip, c.skip) else none
  let digit? (c : Cursor) : Option Nat :=
    (c.peek 0).bind (fun ch => if ch.isDigit then Word.digitValue ch else none)
  match chomping? c with
  | some (chomping, c) =>
      match digit? c with
      | some 0 => none
      | some d => some (chomping, some d, c.skip)
      | none => some (chomping, none, c)
  | none =>
      match digit? c with
      | some 0 => none
      | some d =>
          match chomping? c.skip with
          | some (chomping, c) => some (chomping, some d, c)
          | none => some (.clip, some d, c.skip)
      | none => some (.clip, none, c)

/-- Skip indentation and empty lines; the answer has the line breaks, in reverse, and the deepest indentation
met. With an `indent` of zero, any indentation is skipped. -/
def blockBreaks (indent : Nat) : Nat → Nat → List Char → Cursor → Option (List Char × Nat × Cursor)
  | 0, _, _, _ => none
  | n + 1, deepest, breaks, c =>
      let free := (c.rest.takeWhile (· = ' ')).length
      let c := c.skipMany (if indent = 0 then free else min free (indent - c.column))
      let deepest := max deepest c.column
      if (indent = 0 || c.column < indent) && c.at? '\t' then none
      else if c.atBreak then
        let (b, c) := c.readBreak
        blockBreaks indent n deepest (b.reverse ++ breaks) c
      else some (breaks, deepest, c)

/-- Read the lines of a block scalar that are indented by `indent`. The text so far is in reverse; the last
line break and the empty lines after it are not part of it yet. -/
def blockLines (folds : Bool) (indent : Nat) :
    Nat → List Char → Bool → List Char → List Char → Cursor → Option (List Char × List Char × List Char × Cursor)
  | 0, _, _, _, _, _ => none
  | n + 1, text, blankBefore, lastBreak, breaks, c =>
      if c.column = indent && !c.atEnd then do
        let blankNow := c.atBlank
        let text :=
          if folds && lastBreak = ['\n'] && !blankBefore && !blankNow then
            if breaks.isEmpty then ' ' :: text else text
          else lastBreak.reverse ++ text
        let text := breaks ++ text
        let line := c.rest.takeWhile (fun ch => !isBreak ch)
        let (lastBreak, c) := (c.skipMany line.length).readBreak
        let (breaks, _, c) ← blockBreaks indent (c.left + 1) 0 [] c
        blockLines folds indent n (line.reverse ++ text) blankNow lastBreak breaks c
      else some (text, lastBreak, breaks, c)

/-- Read a block scalar inside a block that is indented by `parent`, with the cursor at its indicator. -/
def blockScalar (folds : Bool) (parent : Int) (c : Cursor) : Option (String × Cursor) := do
  let (chomping, increment, c) ← blockHeader? c.skip
  let c := (← c.skipComment?).skipBreak
  let fixed : Nat :=
    match increment with
    | none => 0
    | some i => if parent ≥ 0 then parent.toNat + i else i
  let (breaks, deepest, c) ← blockBreaks fixed (c.left + 1) 0 [] c
  let indent := if fixed = 0 then max (max deepest (parent + 1).toNat) 1 else fixed
  let (text, lastBreak, breaks, c) ←
    blockLines folds indent (c.left + 1) [] false [] breaks c
  let text := text.reverse
  let ending :=
    match chomping with
    | .strip => []
    | .clip => lastBreak
    | .keep => lastBreak ++ breaks.reverse
  return (String.ofList (text ++ ending), c)

end BuildRound.Yaml
