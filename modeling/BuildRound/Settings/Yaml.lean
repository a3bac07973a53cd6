import BuildRound.Settings.Yaml.Node

/-!
# YAML documents

Turns the nodes of the untyped format into a settings document. Only the tables of sections and their
fields are looked at, so nothing deeper is converted, and aliases are followed no further.
-/

namespace BuildRound.Yaml

/-- The node that an alias stands for, any other node itself. -/
def Tree.resolve (t : Tree) : Node → Node
  | .alias number => ((t.meanings.lookup number).bind (t.anchored.lookup ·)).getD (.blank none)
  | n => n

/-- The scalar that a node is, as a key. -/
def Tree.keyText? (t : Tree) (n : Node) : Option String :=
  match t.resolve n with
  | .scalar _ _ text => some text
  | _ => none

/-- The document of a scalar. Only plain scalars are words, and literal ones whose tag says what they are. -/
def scalarDocument (tag : Option String) (style : Style) (text : String) : Document :=
  let isTagged (name : String) : Bool := style = .literal && tag = some ("tag:yaml.org,2002:" ++ name)
  if style = .plain || (isTagged "int" && (Word.nat? text).isSome) || (isTagged "bool" && (Word.bool? text).isSome)
  then .word tag text
  else .text text

/-- The document of a node, down to so many levels. A table with a key that is no scalar has no fields. -/
def Tree.toDocument (t : Tree) : Nat → Node → Document
  | levels, n =>
      match t.resolve n, levels with
      | .scalar tag style text, _ => scalarDocument tag style text
      | .mapping entries, levels + 1 =>
          match entries.mapM (fun (k, v) => (t.keyText? k).map (·, v)) with
          | none => .other
          | some entries => .table (entries.map (fun (k, v) => (k, t.toDocument levels v)))
      | _, _ => .other

/-- Read the text of a settings file. -/
def document? (text : String) : Option Document := do
  let t ← tree? text
  return t.toDocument 2 t.root

end BuildRound.Yaml
