import BuildRound.Settings.Yaml.Token

/-!
# YAML nodes

The nodes that a sequence of tokens describes. An alias stands for the node with its anchor, which has to
come before it; it is kept as a reference, since a node may contain an alias of itself. Anchors are
numbered by how many names there were before, so after a name was used once more the next name gets a
number that was given before, and this number then stands for the node that began last. A text holds at
most one document.
-/

namespace BuildRound.Yaml

/-- A node of a document. Aliases refer to anchored nodes by number. -/
inductive Node where
  | scalar (tag : Option String) (style : Style) (text : String)
  | sequence (items : List Node)
  | mapping (entries : List (Node × Node))
  | alias (number : Nat)
  deriving Repr

/-- A document, with its anchored nodes in the order of their beginnings, and which of them each number
stands for. -/
structure Tree where
  root : Node
  anchored : List (Nat × Node)
  meanings : List (Nat × Nat)

/-! ## The state of reading -/

/-- The tokens that are left, the tag handles that were declared, the numbers of the anchors met so far, the
places among all anchored nodes that the numbers stand for, and the nodes at these places. -/
structure Parse where
  tokens : List Token
  handles : List (String × List UInt8) := []
  anchors : List (String × Nat) := []
  meanings : List (Nat × Nat) := []
  anchored : List (Nat × Node) := []

abbrev Reader := StateT Parse Option

namespace Reader

def peek : Reader Token := do
  return (← get).tokens.headD .streamEnd

def skip : Reader Unit :=
  modify fun p => { p with tokens := p.tokens.tail }

def accept (t : Token) : Reader Bool := do
  if (← peek) = t then skip; return true
  else return false

def require (t : Token) : Reader Unit := do
  if !(← accept t) then failure

end Reader

open Reader

/-- A node that was left out. -/
def Node.blank (tag : Option String) : Node :=
  .scalar tag .plain ""

/-! ## Properties of nodes -/

/-- The handles that need not be declared. -/
def standardHandles : List (String × List UInt8) :=
  [("!", "!".toUTF8.toList), ("!!", "tag:yaml.org,2002:".toUTF8.toList)]

/-- The tag that a handle and a suffix stand for. Octets that make up no text are no known tag. -/
def resolveTag (handle : String) (suffix : List UInt8) : Reader String := do
  let start ←
    if handle.isEmpty then pure []
    else
      match ((← get).handles ++ standardHandles).lookup handle with
      | some start => pure start
      | none => failure
  return (String.fromUTF8? ⟨(start ++ suffix).toArray⟩).getD ""

/-- Take note of an anchor and give the place of its node. -/
def declareAnchor (name : String) : Reader Nat := do
  let p ← get
  let number := p.anchors.length
  let place := p.meanings.length
  set { p with
    anchors := (name, number) :: p.anchors.filter (·.1 ≠ name)
    meanings := (number, place) :: p.meanings }
  return place

/-- Read the anchor and the tag of a node, each at most once and in either order. -/
def properties : Reader (Option Nat × Option String) := do
  match ← peek with
  | .anchor name => do
      skip
      let place ← declareAnchor name
      match ← peek with
      | .tag handle suffix => do
          skip
          return (some place, some (← resolveTag handle suffix))
      | _ => return (some place, none)
  | .tag handle suffix => do
      skip
      let tag ← resolveTag handle suffix
      match ← peek with
      | .anchor name => do
          skip
          return (some (← declareAnchor name), some tag)
      | _ => return (none, some tag)
  | _ => return (none, none)

/-- Take note of the node that has an anchor. -/
def settle (anchor : Option Nat) (node : Node) : Reader Node := do
  match anchor with
  | none => return node
  | some place => do
      modify fun p => { p with anchored := (place, node) :: p.anchored }
      return node

/-! ## Nodes -/

mutual
/-- Read a node. A block collection is allowed if `block`; a sequence that is not indented more than its
key is allowed if `flush`. -/
def node (block flush : Bool) : Nat → Reader Node
  | 0 => failure
  | n + 1 => do
      match ← peek with
      | .alias name => do
          skip
          match (← get).anchors.lookup name with
          | some number => return .alias number
          | none => failure
      | _ => do
          let (anchor, tag) ← properties
          let content : Reader Node := do
            match ← peek with
            | .scalar style text => do
                skip
                return .scalar tag style text
            | .blockEntry => if flush then flushSequence n [] else left anchor tag
            | .flowSequenceStart => do
                skip
                flowSequence n true []
            | .flowMappingStart => do
                skip
                flowMapping n true []
            | .blockSequenceStart =>
                if block then do
                  skip
                  blockSequence n []
                else left anchor tag
            | .blockMappingStart =>
                if block then do
                  skip
                  blockMapping n []
                else left anchor tag
            | _ => left anchor tag
          settle anchor (← content)

/-- A node without content, which is one only if it has an anchor or a tag. -/
def left (anchor : Option Nat) (tag : Option String) : Reader Node :=
  if anchor.isSome || tag.isSome then pure (.blank tag) else failure

/-- Read a node unless one of the given tokens comes next, which stand for a node that was left out. -/
def nodeUnless (stops : List Token) (block flush : Bool) : Nat → Reader Node
  | 0 => failure
  | n + 1 => do
      if (← peek) ∈ stops then return .blank none else node block flush n

/-- Read the entries of a block sequence up to its end. -/
def blockSequence : Nat → List Node → Reader Node
  | 0, _ => failure
  | n + 1, items => do
      if ← accept .blockEntry then
        let item ← nodeUnless [.blockEntry, .blockEnd] true false n
        blockSequence n (item :: items)
      else
        require .blockEnd
        return .sequence items.reverse

/-- Read the entries of a sequence that is not indented more than its key. -/
def flushSequence : Nat → List Node → Reader Node
  | 0, _ => failure
  | n + 1, items => do
      if ← accept .blockEntry then
        let item ← nodeUnless [.blockEntry, .key, .value, .blockEnd] true false n
        flushSequence n (item :: items)
      else return .sequence items.reverse

/-- Read the entries of a block mapping up to its end. -/
def blockMapping : Nat → List (Node × Node) → Reader Node
  | 0, _ => failure
  | n + 1, entries => do
      if ← accept .key then
        let stops := [Token.key, .value, .blockEnd]
        let k ← nodeUnless stops true true n
        let v ← if ← accept .value then nodeUnless stops true true n else pure (.blank none)
        blockMapping n ((k, v) :: entries)
      else
        require .blockEnd
        return .mapping entries.reverse

/-- Read the entries of a flow sequence up to its end; an entry may be a pair. -/
def flowSequence : Nat → Bool → List Node → Reader Node
  | 0, _, _ => failure
  | n + 1, first, items => do
      if ← accept .flowSequenceEnd then return .sequence items.reverse
      else
        if !first then require .flowEntry
        if ← accept .flowSequenceEnd then return .sequence items.reverse
        else if ← accept .key then
          let k ← pairKey n
          let v ←
            if ← accept .value then nodeUnless [.flowEntry, .flowSequenceEnd] false false n
            else pure (.blank none)
          flowSequence n false (.mapping [(k, v)] :: items)
        else
          let item ← node false false n
          flowSequence n false (item :: items)

/-- Read the key of a pair in a flow sequence. If it is left out, so is the token after it. -/
def pairKey : Nat → Reader Node
  | 0 => failure
  | n + 1 => do
      if (← peek) ∈ [Token.value, .flowEntry, .flowSequenceEnd] then
        skip
        return .blank none
      else node false false n

/-- Read the entries of a flow mapping up to its end; a key may stand without a value. -/
def flowMapping : Nat → Bool → List (Node × Node) → Reader Node
  | 0, _, _ => failure
  | n + 1, first, entries => do
      if ← accept .flowMappingEnd then return .mapping entries.reverse
      else
        if !first then require .flowEntry
        if ← accept .flowMappingEnd then return .mapping entries.reverse
        else if ← accept .key then
          let k ← nodeUnless [.value, .flowEntry, .flowMappingEnd] false false n
          let v ←
            if ← accept .value then nodeUnless [.flowEntry, .flowMappingEnd] false false n
            else pure (.blank none)
          flowMapping n false ((k, v) :: entries)
        else
          let k ← node false false n
          flowMapping n false ((k, .blank none) :: entries)
end

/-! ## Documents -/

/-- Read the directives before a document: at most one version, and no handle twice. -/
def directives : Nat → Bool → Reader Bool
  | 0, _ => failure
  | n + 1, versioned => do
      match ← peek with
      | .versionDirective major minor =>
          if versioned || major ≠ 1 || (minor ≠ 1 && minor ≠ 2) then failure
          else do
            skip
            directives n true
      | .tagDirective handle start => do
          let p ← get
          if (p.handles.lookup handle).isSome then failure
          else do
            set { p with handles := (handle, start) :: p.handles }
            skip
            directives n versioned
      | _ => return versioned

/-- Skip the markers after a document. -/
def skipEnds : Nat → Reader Unit
  | 0 => return ()
  | n + 1 => do
      if ← accept .documentEnd then skipEnds n

/-- Read the only document of a text. An empty text holds a node that was left out. -/
def document (fuel : Nat) : Reader Node := do
  match ← peek with
  | .streamEnd => return .blank none
  | _ => do
      let before := (← get).tokens.length
      let _ ← directives fuel false
      let directed := (← get).tokens.length ≠ before
      let marked ← accept .documentStart
      if directed && !marked then failure
      let root ←
        if marked && (← peek) ∈ [Token.documentStart, .documentEnd, .streamEnd] then pure (.blank none)
        else node true false fuel
      skipEnds fuel
      require .streamEnd
      return root

/-- The document that a text holds. -/
def tree? (text : String) : Option Tree := do
  let tokens ← tokens? text
  let (root, p) ← document (6 * tokens.size + 8) { tokens := tokens.toList }
  return ⟨root, p.anchored, p.meanings⟩

end BuildRound.Yaml
