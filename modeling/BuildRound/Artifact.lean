import BuildRound.Path

/-!
# Artifacts and actions

An artifact is a file that a build reads or writes, and an action a step that writes some. Two artifacts
are the same if their kinds and the components of their paths are; two actions are the same if their ids
are, whatever else they hold.
-/

namespace BuildRound

/-! ## Artifacts -/

/-- Whether an artifact is checked in or produced by the build. -/
inductive ArtifactKind where
  | source
  | derived
  deriving DecidableEq, Repr

def ArtifactKind.rank : ArtifactKind → Nat
  | .source => 0
  | .derived => 1

/-- A build input or output, named by its path. -/
structure Artifact where
  path : Path
  kind : ArtifactKind
  deriving DecidableEq, Repr

namespace Artifact

/-- What decides whether two artifacts are the same. -/
structure Identity where
  components : List Component
  kind : ArtifactKind
  deriving DecidableEq, Repr

/-- An artifact without the spelling of its path. -/
def identity (a : Artifact) : Identity :=
  ⟨a.path.components, a.kind⟩

/-- Whether two artifacts are the same, however their paths are spelled. -/
def same (a b : Artifact) : Bool :=
  a.identity = b.identity

@[simp] theorem same_iff {a b : Artifact} : a.same b = true ↔ a.identity = b.identity := by
  simp [same]

/-- Artifacts are ordered by path, then by kind. -/
def order (a b : Artifact) : Ordering :=
  (Path.order a.path b.path).then (compare a.kind.rank b.kind.rank)

/-- Whether no action generates the artifact. -/
def isSource (a : Artifact) : Bool :=
  a.kind = .source

/-- An artifact is shown as its path. -/
def text (a : Artifact) : String :=
  a.path.text

def sorted (as : List Artifact) : List Artifact :=
  as.mergeSort (fun a b => (order a b).isLE)

end Artifact

/-! ## Actions -/

/-- The name of an action, unique within one build graph. -/
structure ActionId where
  text : String
  deriving DecidableEq, Repr

/-- Middlemen only group other artifacts and do no work of their own. -/
inductive ActionKind where
  | normal
  | middleman
  deriving DecidableEq, Repr

/-- A unit of work and the artifacts it produces. -/
structure Action where
  id : ActionId
  mnemonic : String
  kind : ActionKind := .normal
  outputs : List Artifact
  deriving DecidableEq, Repr

namespace Action

def same (a b : Action) : Bool :=
  a.id = b.id

/-- Whether the action counts towards progress. -/
def isReportWorthy (a : Action) : Bool :=
  a.kind ≠ .middleman

/-- One line for people: the mnemonic and the first output, or the id if there is none. -/
def describe (a : Action) : String :=
  match a.outputs with
  | output :: _ => a.mnemonic ++ " " ++ output.text
  | [] => a.mnemonic ++ " " ++ a.id.text

end Action

end BuildRound
