import BuildRound.Settings.Toml.Scalar

/-!
# TOML documents

Reads the typed format of settings files into a document. Lines either open a table or give a key its
value. A table may be opened once, also if dotted keys or headers below it have mentioned it before; a key
may get a value once; values are closed and cannot be extended later.
-/

namespace BuildRound.Toml

/-! ## Keys and values -/

/-- How deep values may be nested, and how many parts a key may have. -/
def depthLimit : Nat := 80

/-- Read one part of a key. -/
def simpleKey : Reader String := fun cs =>
  match cs with
  | '"' :: _ => quoted cs
  | '\'' :: _ => quoted cs
  | _ =>
      let name := cs.takeWhile isBare
      if name.isEmpty then none else some (String.ofList name, cs.dropWhile isBare)

/-- Read a key: parts with dots between them, and blanks around the dots. -/
def dottedKey : Nat → Reader (List String)
  | 0, _ => none
  | n + 1, cs => do
      let (part, rest) ← simpleKey (skipBlanks cs)
      match skipBlanks rest with
      | '.' :: more =>
          let (parts, rest) ← dottedKey n more
          return (part :: parts, rest)
      | _ => return ([part], rest)

/-- Read a key that has fewer parts than the limit. -/
def key : Reader (List String) :=
  dottedKey (depthLimit - 1)

def skipComment : List Char → List Char
  | '#' :: cs => cs.dropWhile isPlain
  | cs => cs

/-- Skip blanks, line breaks and comments; whether this begins in a comment is given. -/
def skipLines (inComment : Bool) : List Char → List Char
  | [] => []
  | '\n' :: cs => skipLines false cs
  | '\r' :: '\n' :: cs => skipLines false cs
  | c :: cs =>
      if isBlank c || (inComment && isPlain c) then skipLines inComment cs
      else if !inComment && c = '#' then skipLines true cs
      else c :: cs

/-- Skip the rest of a line, where nothing but a comment may stand. -/
def lineEnd? (cs : List Char) : Option (List Char) :=
  match skipComment (skipBlanks cs) with
  | [] => some []
  | cs => lineBreak? cs

/-! ## Tables -/

/-- How a table came to be: only mentioned on the way to another, and mentioned in a dotted key. -/
structure Origin where
  isImplicit : Bool
  dotted : Bool
  deriving DecidableEq, Repr

/-- What a key may stand for: a value, a table, or a list of tables that headers add to. -/
inductive Item where
  | value (d : Document)
  | table (origin : Origin) (entries : List (String × Item))
  | tables (items : List (Origin × List (String × Item)))

abbrev Entries := List (String × Item)

/-- Replace the entry of a key, or add it at the end. -/
def setEntry (k : String) (item : Item) : Entries → Entries
  | [] => [(k, item)]
  | (j, old) :: rest => if j = k then (k, item) :: rest else (j, old) :: setEntry k item rest

/-- Change the table at the end of a path, making tables that are not there yet. A dotted key does not
lead through tables that were opened by a header. -/
def descend (dotted : Bool) (change : Origin → Entries → Option (Origin × Entries)) :
    List String → Origin → Entries → Option (Origin × Entries)
  | [], origin, entries => change origin entries
  | k :: path, origin, entries =>
      match entries.lookup k with
      | none => do
          let (o, es) ← descend dotted change path ⟨true, dotted⟩ []
          return (origin, setEntry k (.table o es) entries)
      | some (.value _) => none
      | some (.table o es) =>
          if dotted && !o.isImplicit then none
          else do
            let (o, es) ← descend dotted change path o es
            return (origin, setEntry k (.table o es) entries)
      | some (.tables items) => do
          let (o, es) ← items.getLast?
          let last ← descend dotted change path o es
          return (origin, setEntry k (.tables (items.dropLast ++ [last])) entries)

/-- Give a key a value in the table that its path leads to. -/
def assign (path : List String) (k : String) (d : Document) (origin : Origin) (entries : Entries) :
    Option (Origin × Entries) :=
  descend true
    (fun o es =>
      if o.dotted = path.isEmpty then none
      else if (es.lookup k).isSome then none
      else some (o, es ++ [(k, .value d)]))
    path origin entries

mutual
def Item.document : Item → Document
  | .value d => d
  | .table _ entries => .table (documents entries)
  | .tables items => .list (tableDocuments items)

def documents : List (String × Item) → List (String × Document)
  | [] => []
  | (k, item) :: rest => (k, item.document) :: documents rest

def tableDocuments : List (Origin × List (String × Item)) → List Document
  | [] => []
  | (_, entries) :: rest => .table (documents entries) :: tableDocuments rest
end

/-! ## Values -/

/-- The start of a pair that a key and a value make: the path, the last part of the key, and what follows
the equals sign. -/
def keyEquals (cs : List Char) : Option (List String × String × List Char) := do
  let (parts, rest) ← key cs
  let last ← parts.getLast?
  let rest ← expect? '=' (skipBlanks rest)
  return (parts.dropLast, last, skipBlanks rest)

mutual
/-- Read a value, nested at most `depth` deep. -/
def value : Nat → Nat → Reader Document
  | 0, _, _ => none
  | n + 1, depth, cs =>
      match cs with
      | '"' :: _ => (string cs).map (fun (s, r) => (.text s, r))
      | '\'' :: _ => (string cs).map (fun (s, r) => (.text s, r))
      | '[' :: rest => if depth = 0 then none else elements n (depth - 1) [] (skipLines false rest)
      | '\x7b' :: rest =>
          if depth = 0 then none
          else
            match skipBlanks rest with
            | '\x7d' :: rest => some (.table [], rest)
            | rest => pairs n (depth - 1) ⟨false, false⟩ [] rest
      | _ => unquoted cs

/-- Read the elements of a list up to its end; a comma may follow the last. -/
def elements : Nat → Nat → List Document → Reader Document
  | 0, _, _, _ => none
  | _ + 1, _, items, ']' :: rest => some (.list items.reverse, rest)
  | n + 1, depth, items, cs => do
      let (d, rest) ← value n depth cs
      match skipLines false rest with
      | ',' :: rest => elements n depth (d :: items) (skipLines false rest)
      | ']' :: rest => some (.list (d :: items).reverse, rest)
      | _ => none

/-- Read the pairs of a table in braces up to its end; no comma may follow the last. -/
def pairs : Nat → Nat → Origin → Entries → Reader Document
  | 0, _, _, _, _ => none
  | n + 1, depth, origin, entries, cs => do
      let (path, last, rest) ← keyEquals cs
      let (d, rest) ← value n depth rest
      let (origin, entries) ← assign path last d origin entries
      match skipBlanks rest with
      | ',' :: rest => pairs n depth origin entries rest
      | '\x7d' :: rest => some (.table (documents entries), rest)
      | _ => none
end

/-! ## Lines -/

/-- What was read so far: everything, and the table that keys now belong to. -/
structure State where
  origin : Origin := ⟨false, false⟩
  entries : Entries := []
  current : List String := []

def State.change (s : State) (path : List String)
    (f : Origin → Entries → Option (Origin × Entries)) : Option State := do
  let (origin, entries) ← descend false f path s.origin s.entries
  return { s with origin, entries }

def State.openTable (s : State) (path : List String) : Option State := do
  let last ← path.getLast?
  let s ← s.change path.dropLast fun o es =>
    match es.lookup last with
    | none => some (o, es ++ [(last, .table ⟨false, false⟩ [])])
    | some (.table ⟨true, false⟩ sub) => some (o, setEntry last (.table ⟨false, false⟩ sub) es)
    | _ => none
  return { s with current := path }

def State.addTable (s : State) (path : List String) : Option State := do
  let last ← path.getLast?
  let s ← s.change path.dropLast fun o es =>
    match es.lookup last with
    | none => some (o, es ++ [(last, .tables [(⟨false, false⟩, [])])])
    | some (.tables items) => some (o, setEntry last (.tables (items ++ [(⟨false, false⟩, [])])) es)
    | _ => none
  return { s with current := path }

/-- Give a key of the current table its value. -/
def State.assign (s : State) (path : List String) (k : String) (d : Document) : Option State :=
  s.change s.current (Toml.assign path k d)

/-- Read one line that is not empty. -/
def line (s : State) : List Char → Option (State × List Char)
  | '[' :: '[' :: cs => do
      let (path, rest) ← key cs
      let rest ← expect? ']' (← expect? ']' (skipBlanks rest))
      return (← s.addTable path, rest)
  | '[' :: cs => do
      let (path, rest) ← key cs
      let rest ← expect? ']' (skipBlanks rest)
      return (← s.openTable path, rest)
  | cs => do
      let (path, last, rest) ← keyEquals cs
      let (d, rest) ← value (2 * rest.length + 2) (depthLimit - 1) rest
      return (← s.assign path last d, rest)

/-- Read all lines. -/
def lines : Nat → State → List Char → Option State
  | 0, _, _ => none
  | n + 1, s, cs =>
      match lineEnd? cs with
      | some [] => some s
      | some rest => lines n s rest
      | none => do
          let (s, rest) ← line s (skipBlanks cs)
          match ← lineEnd? rest with
          | [] => return s
          | rest => lines n s rest

/-- Read the text of a settings file. A byte order mark in front does not count. -/
def document? (text : String) : Option Document := do
  let cs := text.toList
  let cs := if cs.head? = some (Char.ofNat 0xFEFF) then cs.tail else cs
  let s ← lines (cs.length + 2) {} cs
  return .table (documents s.entries)

end BuildRound.Toml
