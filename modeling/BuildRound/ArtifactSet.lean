import BuildRound.Artifact

/-!
# Sets of artifacts

A set holds no two artifacts that are the same. Inserting one that is already there changes nothing, so
the spelling of a path is that of the first insertion.
-/

namespace BuildRound

/-- A set of artifacts, told apart by their identity. -/
structure ArtifactSet where
  toList : List Artifact
  distinct : toList.Pairwise (fun a b => a.identity ≠ b.identity)

namespace ArtifactSet

def empty : ArtifactSet :=
  ⟨[], .nil⟩

/-- Whether the set holds the artifact, in whatever spelling. -/
def contains (s : ArtifactSet) (a : Artifact) : Bool :=
  s.toList.any (fun b => b.same a)

theorem contains_iff {s : ArtifactSet} {a : Artifact} :
    s.contains a = true ↔ ∃ b ∈ s.toList, b.identity = a.identity := by
  simp [contains]

theorem contains_congr {s : ArtifactSet} {a b : Artifact} (h : a.identity = b.identity) :
    s.contains a = s.contains b := by
  simp [contains, Artifact.same, h]

/-- Add an artifact, unless the same one is already there. -/
def insert (s : ArtifactSet) (a : Artifact) : ArtifactSet :=
  if h : s.contains a = true then s
  else
    ⟨a :: s.toList, List.pairwise_cons.2
      ⟨fun b hb hab => h (contains_iff.2 ⟨b, hb, hab.symm⟩), s.distinct⟩⟩

theorem contains_insert {s : ArtifactSet} {a b : Artifact} :
    (s.insert a).contains b = true ↔ s.contains b = true ∨ a.identity = b.identity := by
  unfold insert
  split
  next h =>
    constructor
    · exact Or.inl
    · rintro (hb | hab)
      · exact hb
      · rwa [← contains_congr hab]
  next => simp [contains, or_comm]

def insertNew (s : ArtifactSet) (a : Artifact) : Bool × ArtifactSet :=
  (!s.contains a, s.insert a)

def extend (s : ArtifactSet) (as : List Artifact) : ArtifactSet :=
  as.foldl insert s

theorem contains_extend {s : ArtifactSet} {as : List Artifact} {b : Artifact} :
    (s.extend as).contains b = true ↔ s.contains b = true ∨ ∃ a ∈ as, a.identity = b.identity := by
  induction as generalizing s with
  | nil => simp [extend]
  | cons a as ih =>
      have h := ih (s := s.insert a)
      simp only [extend, List.foldl_cons] at h ⊢
      rw [h, contains_insert]
      simp [or_assoc]

/-- The set of the listed artifacts; of two spellings the first is kept. -/
def ofList (as : List Artifact) : ArtifactSet :=
  empty.extend as

def size (s : ArtifactSet) : Nat :=
  s.toList.length

/-- Move the contents out and leave the set empty. -/
def take (s : ArtifactSet) : ArtifactSet × ArtifactSet :=
  (s, empty)

def sorted (s : ArtifactSet) : List Artifact :=
  Artifact.sorted s.toList

end ArtifactSet

end BuildRound
