/-!
# Paths

A path keeps the text it was written with and is compared by its components. Empty segments and `.`
segments are skipped, except a `.` that opens a relative path; `..` is a component like any other, for
nothing here looks at a file system. Popping removes the last component and whatever skipped segments
would then trail.
-/

namespace BuildRound

inductive Component where
  | root
  | current
  | parent
  | name (text : String)
  deriving DecidableEq, Repr

namespace Component

/-- The root comes before `.`, `.` before `..`, and both before every name. -/
def rank : Component → Nat
  | root => 0
  | current => 1
  | parent => 2
  | name _ => 3

/-- Components are ordered by rank; two names by their characters. -/
def order : Component → Component → Ordering
  | name a, name b => compare a b
  | a, b => compare a.rank b.rank

/-- The component a segment between slashes stands for, if it is not skipped. -/
def ofSegment? : List Char → Option Component
  | [] => none
  | ['.'] => none
  | ['.', '.'] => some parent
  | segment => some (name (String.ofList segment))

end Component

/-- A path, as it was written. -/
structure Path where
  text : String
  deriving DecidableEq, Repr

namespace Path

/-! ## Segments -/

/-- The segments between the slashes of a text; a text of `n` slashes has `n + 1` of them. -/
def segments : List Char → List (List Char)
  | [] => [[]]
  | c :: cs =>
      if c = '/' then [] :: segments cs
      else
        match segments cs with
        | [] => [[c]]
        | s :: ss => (c :: s) :: ss

def ofSegments (ss : List (List Char)) : List Char :=
  List.intercalate ['/'] ss

def isBlank (segment : List Char) : Bool :=
  (Component.ofSegment? segment).isNone

/-- What a path opens with, apart from its segments. -/
inductive Lead where
  | nothing
  | root
  | current
  deriving DecidableEq, Repr

def Lead.component? : Lead → Option Component
  | .nothing => none
  | .root => some .root
  | .current => some .current

def Lead.text : Lead → List Char
  | .nothing => []
  | .root => ['/']
  | .current => ['.']

def splitLead : List Char → Lead × List Char
  | '/' :: body => (.root, body)
  | ['.'] => (.current, [])
  | '.' :: '/' :: body => (.current, '/' :: body)
  | body => (.nothing, body)

/-! ## Components and order -/

/-- The components of a path, which decide its equality and its place in the order. -/
def components (p : Path) : List Component :=
  let (lead, body) := splitLead p.text.toList
  lead.component?.toList ++ (segments body).filterMap Component.ofSegment?

/-- Paths are ordered by their components, a shorter path before its continuations. -/
def order (p q : Path) : Ordering :=
  List.compareLex Component.order p.components q.components

def isAbsolute (p : Path) : Bool :=
  p.text.toList.head? == some '/'

/-! ## Names -/

/-- The last component, if it is a name. -/
def fileName? (p : Path) : Option String :=
  match p.components.getLast? with
  | some (.name n) => some n
  | _ => none

/-- What follows the last dot of the file name; a dot that opens the name does not count. -/
def extension? (p : Path) : Option String := do
  let name ← p.fileName?
  let backwards := name.toList.reverse
  match backwards.dropWhile (· ≠ '.') with
  | [] => none
  | [_] => none
  | _ => some (String.ofList (backwards.takeWhile (· ≠ '.')).reverse)

def join (p : Path) (name : String) : Path :=
  match p.text.toList.getLast? with
  | none => ⟨name⟩
  | some '/' => ⟨p.text ++ name⟩
  | some _ => ⟨p.text ++ "/" ++ name⟩

/-! ## Parents -/

/-- Remove the last component; `none` if there is none, or only the root. -/
def pop? (p : Path) : Option Path :=
  let (lead, body) := splitLead p.text.toList
  match (segments body).reverse.dropWhile isBlank with
  | [] => if lead = .current then some ⟨""⟩ else none
  | _ :: rest => some ⟨String.ofList (lead.text ++ ofSegments (rest.dropWhile isBlank).reverse)⟩

/-- The path and at most `n` of the paths that popping it gives, nearest first. -/
def popUpTo : Nat → Path → List Path
  | 0, p => [p]
  | n + 1, p =>
      p :: match p.pop? with
        | none => []
        | some q => popUpTo n q

/-- The path and everything that popping it gives: each pop removes one component, so there are no
more pops than components. -/
def ancestors (p : Path) : List Path :=
  popUpTo p.components.length p

end Path

end BuildRound
