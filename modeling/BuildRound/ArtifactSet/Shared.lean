import BuildRound.ArtifactSet

/-!
# Shared sets of artifacts

Sets that several threads use at the same time, through handles. A copy of a handle refers to the same set, so what is
done through one of them shows through all. Each call holds the lock of its set from beginning to end and is one step:
the calls of all threads come one after another, in whatever order. A history keeps what was done.
-/

namespace BuildRound

/-! ## Calls -/

namespace ArtifactSet

/-- A call on a shared set. -/
inductive Access where
  | insert (a : Artifact)
  | extend (as : List Artifact)
  | contains (a : Artifact)
  | size
  /-- Move the contents out. -/
  | take
  deriving DecidableEq, Repr

@[reducible] def Access.Reply : Access → Type
  | insert _ | contains _ => Bool
  | extend _ => Unit
  | size => Nat
  | take => ArtifactSet

/-- A call and its reply. -/
structure Deed where
  access : Access
  reply : access.Reply

def perform (s : ArtifactSet) : (c : Access) → c.Reply × ArtifactSet
  | .insert a => s.insertNew a
  | .extend as => ((), s.extend as)
  | .contains a => (s.contains a, s)
  | .size => (s.size, s)
  | .take => s.take

end ArtifactSet

/-! ## Handles -/

open ArtifactSet

namespace Sharing

/-- What was done by some thread. Handles are numbered in the order in which they were made. -/
inductive Event where
  /-- A new set was made, with a first handle. -/
  | shared (initial : ArtifactSet)
  | copied (handle : Nat)
  | called (handle : Nat) (deed : Deed)

/-- A step of some thread. -/
inductive Move where
  | share (initial : ArtifactSet)
  | copy (handle : Nat)
  | call (handle : Nat) (access : Access)

end Sharing

/-- All shared sets, to which of them each handle refers, and what was done so far. -/
structure Sharing where
  sets : List ArtifactSet := []
  handles : List Nat := []
  history : List Sharing.Event := []

namespace Sharing

/-- Let some thread take a step. Nothing is done through a handle that does not exist. -/
def move (s : Sharing) : Move → Sharing
  | .share initial => ⟨s.sets ++ [initial], s.handles ++ [s.sets.length], s.history ++ [.shared initial]⟩
  | .copy handle =>
      match s.handles[handle]? with
      | none => s
      | some i => ⟨s.sets, s.handles ++ [i], s.history ++ [.copied handle]⟩
  | .call handle access =>
      match s.handles[handle]?.bind (fun i => s.sets[i]?.map (i, ·)) with
      | none => s
      | some (i, set) =>
          let (reply, set) := set.perform access
          ⟨s.sets.set i set, s.handles, s.history ++ [.called handle ⟨access, reply⟩]⟩

def run (s : Sharing) (moves : List Move) : Sharing :=
  moves.foldl move s

end Sharing

end BuildRound
