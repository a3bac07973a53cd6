/-!
# JSON values

Values as they stand in a JSON text. Numbers are decimal: `digits / 10 ^ places`.
-/

namespace BuildRound

/-- A JSON value; the members of an object are in the order of the text. -/
inductive Json where
  | null
  | bool (b : Bool)
  | number (digits : Int) (places : Nat)
  | string (s : String)
  | array (items : List Json)
  | object (members : List (String × Json))
  deriving Repr, Inhabited

namespace Json

/-- All that stands under a name. -/
def values (members : List (String × Json)) (name : String) : List Json :=
  (members.filter (·.1 = name)).map (·.2)

/-- What stands under a name, if the name is there just once. -/
def member? (members : List (String × Json)) (name : String) : Option Json :=
  match values members name with
  | [j] => some j
  | _ => none

end Json

end BuildRound
