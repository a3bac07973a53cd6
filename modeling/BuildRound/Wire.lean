import BuildRound.Artifact
import BuildRound.Json

/-!
# The serialised data model

Artifacts and actions as JSON values. A record is written as an object with all its fields and read from
an object that has each of them once, whatever other members it has, or from an array of exactly its fields
in order; a kind is written as its name and read from the name or from an object with the name alone and
`null`. Everything written is read back as it was, spelling and order included.
-/

namespace BuildRound.Wire

/-! ## Kinds -/

/-- The name of a unit variant: a string, or an object that gives the name no content. -/
def variantName? : Json → Option String
  | .string name => some name
  | .object [(name, .null)] => some name
  | _ => none

def ofArtifactKind : ArtifactKind → Json
  | .source => .string "source"
  | .derived => .string "derived"

def artifactKind? (j : Json) : Option ArtifactKind :=
  match variantName? j with
  | some "source" => some .source
  | some "derived" => some .derived
  | _ => none

def ofActionKind : ActionKind → Json
  | .normal => .string "normal"
  | .middleman => .string "middleman"

def actionKind? (j : Json) : Option ActionKind :=
  match variantName? j with
  | some "normal" => some .normal
  | some "middleman" => some .middleman
  | _ => none

/-! ## Texts -/

def string? : Json → Option String
  | .string s => some s
  | _ => none

def ofPath (p : Path) : Json :=
  .string p.text

def path? (j : Json) : Option Path :=
  (string? j).map Path.mk

def ofActionId (id : ActionId) : Json :=
  .string id.text

def actionId? (j : Json) : Option ActionId :=
  (string? j).map ActionId.mk

/-! ## Artifacts -/

def ofArtifact (a : Artifact) : Json :=
  .object [("path", ofPath a.path), ("kind", ofArtifactKind a.kind)]

def artifact? : Json → Option Artifact
  | .object members => do
      let path ← path? (← Json.member? members "path")
      let kind ← artifactKind? (← Json.member? members "kind")
      return ⟨path, kind⟩
  | .array [path, kind] => do
      return ⟨← path? path, ← artifactKind? kind⟩
  | _ => none

def artifacts? : Json → Option (List Artifact)
  | .array items => items.mapM artifact?
  | _ => none

/-! ## Actions -/

def ofAction (a : Action) : Json :=
  .object
    [("id", ofActionId a.id), ("mnemonic", .string a.mnemonic), ("kind", ofActionKind a.kind),
      ("outputs", .array (a.outputs.map ofArtifact))]

/-- The kind that the members of an action state. They may leave it out. -/
def statedKind? (members : List (String × Json)) : Option ActionKind :=
  match Json.values members "kind" with
  | [] => some .normal
  | [kind] => actionKind? kind
  | _ => none

def action? : Json → Option Action
  | .object members => do
      let id ← actionId? (← Json.member? members "id")
      let mnemonic ← string? (← Json.member? members "mnemonic")
      let kind ← statedKind? members
      let outputs ← artifacts? (← Json.member? members "outputs")
      return { id, mnemonic, kind, outputs }
  | .array [id, mnemonic, kind, outputs] => do
      return {
        id := ← actionId? id, mnemonic := ← string? mnemonic,
        kind := ← actionKind? kind, outputs := ← artifacts? outputs }
  | _ => none

end BuildRound.Wire
