import BuildRound.Settings.Parser
import BuildRound.Settings.Toml
import BuildRound.Settings.Yaml

/-!
# The formats of settings files

How the documents of the two formats read, and the parsers that this makes.
-/

namespace BuildRound

/-! ## Documents -/

namespace Document

def fields? : Document → Option (Fields Document)
  | table entries => some (.named entries)
  | list items => some (.ordered items)
  | word _ "" => some (.named [])
  | _ => none

def nat? : Document → Option Nat
  | word _ w => Word.nat? w
  | int i => if 0 ≤ i then Word.within64 i.toNat else none
  | _ => none

def bool? : Document → Option Bool
  | word _ w => Word.bool? w
  | bool b => some b
  | _ => none

def text? : Document → Option String
  | word _ w => some w
  | text s => some s
  | _ => none

/-- Read a text that may be absent: a blank and the null value are absences. -/
def optional? : Document → Option (Option String)
  | word none w => if w.isEmpty || Word.isNull w then some none else some (some w)
  | word (some tag) w =>
      if tag = Word.nullTag then if Word.isNull w then some none else none
      else some (some w)
  | text s => some (some s)
  | _ => none

/-- The parser that reads texts to documents in this way. -/
def parser (document? : String → Option Document) : Parser :=
  { Value := Document, value? := document?, fields?, nat?, bool?, text?, optional? }

end Document

/-- The parser of each format. -/
def Format.parser : Format → Parser
  | .toml => Document.parser Toml.document?
  | .yaml => Document.parser Yaml.document?

end BuildRound
