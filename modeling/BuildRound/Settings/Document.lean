/-!
# Settings documents

What a settings file says, once its text is read: a tree of tables, lists and scalars. In one format a
scalar has a type of its own. In the other it is a word, and the field that takes it decides what it
means; there an empty table may also be left blank.
-/

namespace BuildRound

inductive Document where
  /-- An untyped scalar and its tag. -/
  | word (tag : Option String) (text : String)
  | text (s : String)
  | int (i : Int)
  | bool (b : Bool)
  /-- A value that no field takes. -/
  | other
  | list (items : List Document)
  | table (entries : List (String × Document))
  deriving Repr

/-! ## Words -/

namespace Word

/-- The tag of the null value. -/
def nullTag : String := "tag:yaml.org,2002:null"

def isNull (word : String) : Bool :=
  word ∈ ["null", "Null", "NULL", "~"]

/-- The truth value a word stands for. -/
def bool? (word : String) : Option Bool :=
  if word ∈ ["true", "True", "TRUE"] then some true
  else if word ∈ ["false", "False", "FALSE"] then some false
  else none

def digitValue (c : Char) : Option Nat :=
  if c.isDigit then some (c.toNat - '0'.toNat)
  else if 'a' ≤ c ∧ c ≤ 'f' then some (c.toNat - 'a'.toNat + 10)
  else if 'A' ≤ c ∧ c ≤ 'F' then some (c.toNat - 'A'.toNat + 10)
  else none

/-- The number that the digits stand for in a base, if there are any and all are digits of it. -/
def digits? (base : Nat) (cs : List Char) : Option Nat :=
  if cs.isEmpty then none
  else
    cs.foldl
      (fun acc c => do
        let n ← acc
        let d ← digitValue c
        if d < base then some (n * base + d) else none)
      (some 0)

def maxNat64 : Nat := Nat.pow 2 64 - 1

/-- A number of at most 64 bits. -/
def within64 (n : Nat) : Option Nat :=
  if n ≤ maxNat64 then some n else none

/-- The number a word stands for: decimal without needless zeros in front, or with a base in front, after
an optional plus. -/
def nat? (word : String) : Option Nat :=
  let cs := word.toList
  let cs := if cs.head? = some '+' then cs.tail else cs
  let n :=
    match cs with
    | '0' :: 'x' :: rest => digits? 16 rest
    | '0' :: 'o' :: rest => digits? 8 rest
    | '0' :: 'b' :: rest => digits? 2 rest
    | '0' :: _ :: _ => none
    | _ => digits? 10 cs
  n.bind within64

end Word

end BuildRound
