import BuildRound.Wire
import Mathlib.Data.List.Forall2
import Mathlib.Data.List.Perm.Basic

/-!
# The forms of the data model

A value may stand in several forms: a record as an object or as an array, a kind as its name or as an object, and an
action may leave out its kind. Just these forms are read, each as the value that stands in it, and what is written of a
value is one of them. So nothing is lost by writing, and what was read and written once is not changed by doing so
again.
-/

namespace BuildRound

/-! ## Forms -/

/-- A unit variant stands as its name, or as an object that gives the name no content. -/
inductive Json.Names (name : String) : Json → Prop
  | alone : Names name (.string name)
  | member : Names name (.object [(name, .null)])

/-- Of the names of a record just these fields are there, each once. They are in any order, among any members with
other names. -/
def Json.Lists (names : List String) (fields members : List (String × Json)) : Prop :=
  (members.filter (·.1 ∈ names)).Perm fields

def ArtifactKind.StandsAs : ArtifactKind → Json → Prop
  | .source => Json.Names "source"
  | .derived => Json.Names "derived"

inductive Artifact.StandsAs (a : Artifact) : Json → Prop
  | object {kind : Json} {members : List (String × Json)} (hkind : a.kind.StandsAs kind)
      (hmembers : Json.Lists ["path", "kind"] [("path", .string a.path.text), ("kind", kind)] members) :
      a.StandsAs (.object members)
  | array {kind : Json} (hkind : a.kind.StandsAs kind) : a.StandsAs (.array [.string a.path.text, kind])

/-- An id stands as its bare text. -/
def ActionId.StandsAs (id : ActionId) (j : Json) : Prop :=
  j = .string id.text

def ActionKind.StandsAs : ActionKind → Json → Prop
  | .normal => Json.Names "normal"
  | .middleman => Json.Names "middleman"

inductive Action.StandsAs (a : Action) : Json → Prop
  | object {kind : Json} {outputs : List Json} {members : List (String × Json)} (hkind : a.kind.StandsAs kind)
      (houtputs : a.outputs.Forall₂ Artifact.StandsAs outputs)
      (hmembers : Json.Lists ["id", "mnemonic", "kind", "outputs"]
        [("id", .string a.id.text), ("mnemonic", .string a.mnemonic), ("kind", kind), ("outputs", .array outputs)]
        members) :
      a.StandsAs (.object members)
  | kindless {outputs : List Json} {members : List (String × Json)} (hkind : a.kind = .normal)
      (houtputs : a.outputs.Forall₂ Artifact.StandsAs outputs)
      (hmembers : Json.Lists ["id", "mnemonic", "kind", "outputs"]
        [("id", .string a.id.text), ("mnemonic", .string a.mnemonic), ("outputs", .array outputs)] members) :
      a.StandsAs (.object members)
  | array {kind : Json} {outputs : List Json} (hkind : a.kind.StandsAs kind)
      (houtputs : a.outputs.Forall₂ Artifact.StandsAs outputs) :
      a.StandsAs (.array [.string a.id.text, .string a.mnemonic, kind, .array outputs])

namespace Wire

/-- What is written for what was read. -/
def resaved? {α : Type} (write : α → Json) (read : Json → Option α) (j : Json) : Option Json :=
  (read j).map write

/-- Values of a type are read in just these forms, and kept by writing and reading. -/
structure Faithful {α : Type} (write : α → Json) (read : Json → Option α) (StandsAs : α → Json → Prop) : Prop where
  reads : ∀ j x, read j = some x ↔ StandsAs x j
  restores : ∀ x, read (write x) = some x
  rereads : ∀ j x, read j = some x → ∃ j', resaved? write read j = some j' ∧ read j' = some x
  settles : ∀ j, (resaved? write read j).bind (resaved? write read) = resaved? write read j

/-- It is enough that just the forms are read and that each value is written in one of its forms. -/
theorem Faithful.of_forms {α : Type} {write : α → Json} {read : Json → Option α} {StandsAs : α → Json → Prop}
    (hreads : ∀ j x, read j = some x ↔ StandsAs x j) (hwrites : ∀ x, StandsAs x (write x)) :
    Faithful write read StandsAs := by
  have hrestores : ∀ x, read (write x) = some x := fun x => (hreads (write x) x).mpr (hwrites x)
  refine ⟨hreads, hrestores, fun j x h => ⟨write x, by rw [resaved?, h]; rfl, hrestores x⟩, fun j => ?_⟩
  cases h : read j with
  | none => simp [resaved?, h]
  | some x => simp [resaved?, h, hrestores]

end Wire

/-! ## Members -/

namespace Json

variable {names : List String} {fields members : List (String × Json)} {name : String} {j : Json}

theorem values_filter (h : name ∈ names) : values (members.filter (·.1 ∈ names)) name = values members name := by
  have hboth : ∀ m : String × Json, (decide (m.1 = name) && decide (m.1 ∈ names)) = decide (m.1 = name) := by
    intro m
    by_cases hm : m.1 = name <;> simp [hm, h]
  simp [values, List.filter_filter, hboth]

theorem count_values [DecidableEq Json] (members : List (String × Json)) (name : String) (j : Json) :
    (values members name).count j = members.count (name, j) := by
  have hpair : ∀ m : String × Json, (m.2 == j && decide (m.1 = name)) = (m == (name, j)) := by
    rintro ⟨key, value⟩
    by_cases hkey : key = name <;> simp [hkey]
  simp only [values, List.count_eq_countP, List.countP_map, List.countP_filter, Function.comp_def, hpair]

/-- The fields can be told from what stands under each name. -/
theorem lists_iff (hfields : ∀ f ∈ fields, f.1 ∈ names) :
    Lists names fields members ↔ ∀ name ∈ names, (values members name).Perm (values fields name) := by
  classical
  constructor
  · intro h name hname
    rw [← values_filter hname]
    exact (h.filter _).map _
  · intro h
    refine List.perm_iff_count.mpr fun (key, j) => ?_
    by_cases hkey : key ∈ names
    · rw [List.count_filter (by simpa using hkey), ← count_values, ← count_values]
      exact (h key hkey).count_eq j
    · have hfield : (key, j) ∉ fields := fun hmem => hkey (hfields _ hmem)
      rw [List.count_eq_zero_of_not_mem (by simp [hkey]), List.count_eq_zero_of_not_mem hfield]

theorem member?_eq_some_iff : member? members name = some j ↔ values members name = [j] := by
  unfold member?
  split
  · rename_i only hvalues
    simp [hvalues]
  · rename_i hvalues
    simpa using hvalues j

end Json

namespace Wire

/-! ## Kinds and texts -/

theorem variantName?_eq_some_iff {j : Json} {name : String} : variantName? j = some name ↔ j.Names name := by
  constructor
  · intro h
    unfold variantName? at h
    split at h
    · cases h
      exact .alone
    · cases h
      exact .member
    · cases h
  · rintro (_ | _) <;> rfl

theorem artifactKind?_eq_some_iff {j : Json} {k : ArtifactKind} : artifactKind? j = some k ↔ k.StandsAs j := by
  constructor
  · intro h
    unfold artifactKind? at h
    split at h <;> cases h <;> exact variantName?_eq_some_iff.mp ‹_›
  · intro h
    cases k <;> simp [artifactKind?, variantName?_eq_some_iff.mpr h]

theorem actionKind?_eq_some_iff {j : Json} {k : ActionKind} : actionKind? j = some k ↔ k.StandsAs j := by
  constructor
  · intro h
    unfold actionKind? at h
    split at h <;> cases h <;> exact variantName?_eq_some_iff.mp ‹_›
  · intro h
    cases k <;> simp [actionKind?, variantName?_eq_some_iff.mpr h]

theorem string?_eq_some_iff {j : Json} {s : String} : string? j = some s ↔ j = .string s := by
  cases j <;> simp [string?]

theorem path?_eq_some_iff {j : Json} {p : Path} : path? j = some p ↔ j = .string p.text := by
  simp only [path?, Option.map_eq_some_iff, string?_eq_some_iff]
  exact ⟨fun ⟨s, hj, hp⟩ => hp ▸ hj, fun h => ⟨p.text, h, rfl⟩⟩

theorem actionId?_eq_some_iff {j : Json} {id : ActionId} : actionId? j = some id ↔ id.StandsAs j := by
  simp only [actionId?, Option.map_eq_some_iff, string?_eq_some_iff]
  exact ⟨fun ⟨s, hj, hid⟩ => hid ▸ hj, fun h => ⟨id.text, h, rfl⟩⟩

/-! ## Artifacts -/

theorem lists_artifact {members : List (String × Json)} {path kind : Json} :
    Json.Lists ["path", "kind"] [("path", path), ("kind", kind)] members ↔
      Json.values members "path" = [path] ∧ Json.values members "kind" = [kind] := by
  rw [Json.lists_iff (by simp)]
  simp [Json.values]

theorem artifact?_eq_some_iff {j : Json} {a : Artifact} : artifact? j = some a ↔ a.StandsAs j := by
  constructor
  · intro h
    unfold artifact? at h
    split at h
    · simp only [bind, Option.bind_eq_some_iff, Json.member?_eq_some_iff] at h
      obtain ⟨j, hj, path, hpath, k, hk, kind, hkind, ha⟩ := h
      cases ha
      rw [path?_eq_some_iff.mp hpath] at hj
      exact .object (artifactKind?_eq_some_iff.mp hkind) (lists_artifact.mpr ⟨hj, hk⟩)
    · simp only [bind, Option.bind_eq_some_iff] at h
      obtain ⟨path, hpath, kind, hkind, ha⟩ := h
      cases ha
      rw [path?_eq_some_iff.mp hpath]
      exact .array (artifactKind?_eq_some_iff.mp hkind)
    · cases h
  · rintro (⟨hkind, hmembers⟩ | ⟨hkind⟩)
    · obtain ⟨hpath, hvalues⟩ := lists_artifact.mp hmembers
      simp [artifact?, Json.member?, hpath, hvalues, path?_eq_some_iff.mpr rfl, artifactKind?_eq_some_iff.mpr hkind]
    · simp [artifact?, path?_eq_some_iff.mpr rfl, artifactKind?_eq_some_iff.mpr hkind]

theorem standsAs_ofArtifactKind (k : ArtifactKind) : k.StandsAs (ofArtifactKind k) := by
  cases k <;> exact .alone

theorem standsAs_ofArtifact (a : Artifact) : a.StandsAs (ofArtifact a) :=
  .object (standsAs_ofArtifactKind a.kind) (lists_artifact.mpr ⟨rfl, rfl⟩)

/-! ## Actions -/

/-- Values that are read one by one stand one by one. -/
theorem mapM_eq_some_iff {α : Type} {read : Json → Option α} {StandsAs : α → Json → Prop}
    (hread : ∀ j x, read j = some x ↔ StandsAs x j) {items : List Json} {xs : List α} :
    items.mapM read = some xs ↔ xs.Forall₂ StandsAs items := by
  induction items generalizing xs with
  | nil => simp [eq_comm]
  | cons item items ih =>
      simp only [List.mapM_cons, bind, Option.bind_eq_some_iff, hread, ih, List.forall₂_cons_right_iff]
      constructor
      · rintro ⟨x, hx, rest, hrest, h⟩
        cases h
        exact ⟨x, rest, hx, hrest, rfl⟩
      · rintro ⟨x, rest, hx, hrest, rfl⟩
        exact ⟨x, hx, rest, hrest, rfl⟩

theorem artifacts?_eq_some_iff {j : Json} {as : List Artifact} :
    artifacts? j = some as ↔ ∃ items, j = .array items ∧ as.Forall₂ Artifact.StandsAs items := by
  cases j with
  | array items => simp [artifacts?, mapM_eq_some_iff fun _ _ => artifact?_eq_some_iff]
  | _ => simp [artifacts?]

theorem standsAs_ofActionKind (k : ActionKind) : k.StandsAs (ofActionKind k) := by
  cases k <;> exact .alone

theorem statedKind?_eq_some_iff {members : List (String × Json)} {k : ActionKind} :
    statedKind? members = some k ↔ (Json.values members "kind" = [] ∧ k = .normal) ∨
      ∃ kind, Json.values members "kind" = [kind] ∧ k.StandsAs kind := by
  unfold statedKind?
  split
  · rename_i hvalues
    simp [hvalues, eq_comm]
  · rename_i kind hvalues
    simp [hvalues, actionKind?_eq_some_iff]
  · rename_i hnone hone
    refine iff_of_false nofun ?_
    rintro (⟨hvalues, -⟩ | ⟨kind, hvalues, -⟩)
    · exact hnone hvalues
    · exact hone kind hvalues

theorem lists_action {members : List (String × Json)} {id mnemonic kind outputs : Json} :
    Json.Lists ["id", "mnemonic", "kind", "outputs"]
        [("id", id), ("mnemonic", mnemonic), ("kind", kind), ("outputs", outputs)] members ↔
      Json.values members "id" = [id] ∧ Json.values members "mnemonic" = [mnemonic] ∧
        Json.values members "kind" = [kind] ∧ Json.values members "outputs" = [outputs] := by
  rw [Json.lists_iff (by simp)]
  simp [Json.values]

theorem lists_kindless {members : List (String × Json)} {id mnemonic outputs : Json} :
    Json.Lists ["id", "mnemonic", "kind", "outputs"]
        [("id", id), ("mnemonic", mnemonic), ("outputs", outputs)] members ↔
      Json.values members "id" = [id] ∧ Json.values members "mnemonic" = [mnemonic] ∧
        Json.values members "kind" = [] ∧ Json.values members "outputs" = [outputs] := by
  rw [Json.lists_iff (by simp)]
  simp [Json.values]

theorem action?_eq_some_iff {j : Json} {a : Action} : action? j = some a ↔ a.StandsAs j := by
  constructor
  · intro h
    unfold action? at h
    split at h
    · simp only [bind, Option.bind_eq_some_iff, Json.member?_eq_some_iff, actionId?_eq_some_iff, string?_eq_some_iff,
        statedKind?_eq_some_iff, artifacts?_eq_some_iff] at h
      obtain ⟨_, hid, id, rfl, _, hmnemonic, mnemonic, rfl, kind, hkind, _, hvalues, outputs,
        ⟨items, rfl, houtputs⟩, ha⟩ := h
      cases ha
      rcases hkind with ⟨hnone, rfl⟩ | ⟨kind, hone, hkind⟩
      · exact .kindless rfl houtputs (lists_kindless.mpr ⟨hid, hmnemonic, hnone, hvalues⟩)
      · exact .object hkind houtputs (lists_action.mpr ⟨hid, hmnemonic, hone, hvalues⟩)
    · simp only [bind, Option.bind_eq_some_iff, actionId?_eq_some_iff, string?_eq_some_iff, actionKind?_eq_some_iff,
        artifacts?_eq_some_iff] at h
      obtain ⟨id, rfl, mnemonic, rfl, kind, hkind, outputs, ⟨items, rfl, houtputs⟩, ha⟩ := h
      cases ha
      exact .array hkind houtputs
    · cases h
  · rintro (⟨hkind, houtputs, hmembers⟩ | ⟨hkind, houtputs, hmembers⟩ | ⟨hkind, houtputs⟩)
    · obtain ⟨hid, hmnemonic, hone, hvalues⟩ := lists_action.mp hmembers
      simp [action?, Json.member?, statedKind?, hid, hmnemonic, hone, hvalues, string?, actionId?,
        actionKind?_eq_some_iff.mpr hkind, artifacts?_eq_some_iff.mpr ⟨_, rfl, houtputs⟩]
    · obtain ⟨hid, hmnemonic, hnone, hvalues⟩ := lists_kindless.mp hmembers
      simp [action?, Json.member?, statedKind?, hid, hmnemonic, hnone, hvalues, string?, actionId?,
        ← hkind, artifacts?_eq_some_iff.mpr ⟨_, rfl, houtputs⟩]
    · simp [action?, string?, actionId?, actionKind?_eq_some_iff.mpr hkind,
        artifacts?_eq_some_iff.mpr ⟨_, rfl, houtputs⟩]

theorem standsAs_ofAction (a : Action) : a.StandsAs (ofAction a) := by
  have houtputs : a.outputs.Forall₂ Artifact.StandsAs (a.outputs.map ofArtifact) :=
    List.forall₂_map_right_iff.mpr (List.forall₂_same.mpr fun output _ => standsAs_ofArtifact output)
  exact .object (standsAs_ofActionKind a.kind) houtputs (lists_action.mpr ⟨rfl, rfl, rfl, rfl⟩)

/-- Artifacts and actions, their kinds and their ids are read in just the forms in which they may stand, whatever these
have nested in them, and come back from what is written of them as they were: a path as it was spelled, the outputs in
their order and as often as they were there, and of an action all that it holds and not its id alone. -/
theorem values_kept :
    Faithful ofArtifactKind artifactKind? ArtifactKind.StandsAs ∧ Faithful ofArtifact artifact? Artifact.StandsAs ∧
      Faithful ofActionId actionId? ActionId.StandsAs ∧ Faithful ofActionKind actionKind? ActionKind.StandsAs ∧
      Faithful ofAction action? Action.StandsAs := by
  refine ⟨.of_forms ?_ standsAs_ofArtifactKind, .of_forms ?_ standsAs_ofArtifact, .of_forms ?_ ?_,
    .of_forms ?_ standsAs_ofActionKind, .of_forms ?_ standsAs_ofAction⟩
  · exact fun _ _ => artifactKind?_eq_some_iff
  · exact fun _ _ => artifact?_eq_some_iff
  · exact fun _ _ => actionId?_eq_some_iff
  · exact fun _ => rfl
  · exact fun _ _ => actionKind?_eq_some_iff
  · exact fun _ _ => action?_eq_some_iff

/-- An object without a kind, with outputs in three forms, is read and written in the one form. -/
example :
    resaved? ofAction action? (.object
      [("since", .null), ("outputs", .array
        [.array [.string "out//a", .string "derived"],
          .object [("kind", .object [("derived", .null)]), ("path", .string "b/.")],
          .array [.string "out//a", .object [("derived", .null)]]]),
        ("mnemonic", .string "Link"), ("id", .string "link")]) =
      some (ofAction
        { id := ⟨"link"⟩, mnemonic := "Link", kind := .normal, outputs :=
          [⟨⟨"out//a"⟩, .derived⟩, ⟨⟨"b/."⟩, .derived⟩, ⟨⟨"out//a"⟩, .derived⟩] }) := by
  rfl

end Wire

end BuildRound
