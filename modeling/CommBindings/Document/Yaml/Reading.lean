import CommBindings.Document.SetOrder
import CommBindings.Document.Yaml.Composition
import CommBindings.Document.Yaml.Denotation
import CommBindings.Document.Yaml.Merge

set_option autoImplicit false

/-! # Reading YAML documents

The value of a document from its graph. The nodes are visited level by level: first the root, then
its children, then their children, and each node but once. So of several failures the one that is
nearest to the root counts, and of those on one level the first. A merge changes a mapping only when
the mapping is visited; what is visited before finds it unmerged.
-/

namespace CommBindings.Yaml

/-! ## Scalars -/

/-- The text of a scalar. A mapping with the default key has that of the value there. A chain of such
mappings that is longer than there are nodes leads back to itself. -/
def Graph.scalarText (g : Graph) : Nat → NodeId → Except Failure (List Char)
  | 0, _ => .error .endlessAlias
  | fuel + 1, id =>
    match g.content id with
    | .scalar text => .ok text
    | .sequence _ => .error .invalid
    | .mapping entries =>
      match entries.find? fun entry => g.tag entry.1 = .defaultValue with
      | some (_, value) => g.scalarText fuel value
      | none => .error .invalid

/-- Whether a node is a scalar and does not only have the text of one. -/
def Graph.isScalar (g : Graph) (id : NodeId) : Bool :=
  match g.content id with
  | .scalar _ => true
  | _ => false

/-- The tags under which a node stands for no value. -/
def valuelessTags : List Tag := [.merge, .defaultValue, .other]

/-- The scalar that a node denotes, if its tag is one of scalars. A moment has a text of its own. -/
def Graph.scalar (g : Graph) (id : NodeId) : Except Failure Scalar := do
  if valuelessTags.contains (g.tag id) then throw .invalid
  let text ← g.scalarText (g.size + 1) id
  if g.tag id = .timestamp && !g.isScalar id then throw (.scalar .noTextOfItsOwn)
  denote (id + 1) (g.tag id) text

/-! ## Visiting the nodes -/

/-- The kinds of collections that tags ask for. -/
inductive Collection where
  | list
  | pairs
  | set
  | mapping
  deriving Repr, DecidableEq

/-- The kind of collection that a tag asks for. -/
def Tag.collection? : Tag → Option Collection
  | .sequence => some .list
  | .orderedMapping | .pairs => some .pairs
  | .set => some .set
  | .mapping => some .mapping
  | _ => none

/-- What a node has been found to be; its parts are nodes themselves. -/
inductive Finding where
  | scalar (value : Scalar)
  | list (items : List NodeId)
  | pairs (entries : List (NodeId × NodeId))
  | set (members : List Scalar)
  | mapping (entries : List (Key × NodeId))
  deriving Repr

/-- A collection in which nothing has been found yet. -/
def Collection.unfilled : Collection → Finding
  | list => .list []
  | pairs => .pairs []
  | set => .set []
  | mapping => .mapping []

/-- What is known in the course of a visit: the graph as far as it has been merged, the findings,
and the collections whose parts are still to be visited, the last first. -/
structure Visit where
  graph : Graph
  findings : Array (Option Finding)
  waiting : List (Collection × NodeId)

/-- A step of a visit. -/
abbrev Visiting := StateT Visit (Except Failure)

namespace Visiting

/-- What a node has been found to be, if it was visited. -/
def finding? (id : NodeId) : Visiting (Option Finding) := do
  pure ((← get).findings[id]?.join)

/-- Remembers what a node has been found to be. -/
def record (id : NodeId) (finding : Finding) : Visiting Unit :=
  modify fun v => { v with findings := v.findings.setIfInBounds id (some finding) }

/-- Visits a node: a scalar is read, and the parts of a collection are left for the next level. -/
def visit (id : NodeId) : Visiting Unit := do
  if (← finding? id).isNone then
    let g := (← get).graph
    match (g.tag id).collection? with
    | some kind =>
      record id kind.unfilled
      modify fun v => { v with waiting := (kind, id) :: v.waiting }
    | none =>
      let scalar ← (g.scalar id : Except Failure Scalar)
      record id (.scalar scalar)

/-- Visits a node that is the key of an entry, which must be a scalar. -/
def visitKey (id : NodeId) : Visiting Key := do
  visit id
  match ← finding? id with
  | some (.scalar key) => pure key
  | _ => throw .invalid

/-- Visits the keys and the values of entries. -/
def visitEntries : List (NodeId × NodeId) → Visiting (List (Key × NodeId))
  | [] => pure []
  | (key, value) :: rest => do
    let found ← visitKey key
    visit value
    let others ← visitEntries rest
    pure ((found, value) :: others)

/-- The only entry of a mapping. -/
def onlyEntry (id : NodeId) : Visiting (NodeId × NodeId) := do
  match (← get).graph.content id with
  | .mapping [entry] => pure entry
  | _ => throw .invalid

/-- Visits the keys and the values of mappings with one entry each. -/
def visitPairs : List NodeId → Visiting (List (NodeId × NodeId))
  | [] => pure []
  | item :: rest => do
    let (key, value) ← onlyEntry item
    visit key
    visit value
    let others ← visitPairs rest
    pure ((key, value) :: others)

/-- The items of a sequence. -/
def itemsOf (id : NodeId) : Visiting (List NodeId) := do
  match (← get).graph.content id with
  | .sequence items => pure items
  | _ => throw .invalid

/-- The entries of a mapping, which is merged before. -/
def entriesOf (id : NodeId) : Visiting (List (NodeId × NodeId)) := do
  match (← get).graph.content id with
  | .mapping _ =>
    let g ← ((← get).graph.merge id : Except Failure Graph)
    modify fun v => { v with graph := g }
    pure (g.entries id)
  | _ => throw .invalid

/-- Visits the parts of a collection. -/
def fill (kind : Collection) (id : NodeId) : Visiting Unit := do
  match kind with
  | .list =>
    let items ← itemsOf id
    items.forM visit
    record id (.list items)
  | .pairs => record id (.pairs (← visitPairs (← itemsOf id)))
  | .set =>
    let entries ← visitEntries (← entriesOf id)
    record id (.set (SetOrder.arrange ((dedupEntries entries).map (·.1))))
  | .mapping =>
    let entries ← visitEntries (← entriesOf id)
    record id (.mapping (dedupEntries entries))

/-- Visits what is left to be visited, level by level. -/
def levels : Nat → Visiting Unit
  | 0 => pure ()
  | fuel + 1 => do
    let level := (← get).waiting.reverse
    modify fun v => { v with waiting := [] }
    level.forM fun (kind, id) => fill kind id
    if !(← get).waiting.isEmpty then levels fuel

/-- Visits all nodes from the root on. No level but the last is without a node of its own. -/
def all (root : NodeId) : Visiting Unit := do
  visit root
  levels ((← get).graph.size + 1)

end Visiting

/-- What the nodes of a graph are found to be. -/
def findings (g : Graph) (root : NodeId) : Except Failure (Array (Option Finding)) := do
  let (_, visit) ← (Visiting.all root).run ⟨g, Array.replicate g.size none, []⟩
  pure visit.findings

/-! ## Values -/

/-- A value as far as it has been unfolded, and whether that is all of it. -/
structure Unfolding where
  value : Value
  isWhole : Bool
  deriving Inhabited

/-- What is known of a node before it is unfolded. -/
def Unfolding.unknown : Unfolding := ⟨Value.null, false⟩

/-- The mark of a part of a node, which only a value that is not whole bears. -/
def markOf (isWhole : Bool) (id : NodeId) (part : Nat) : Option Mark :=
  if isWhole then none else some ⟨id, part⟩

/-- The pairs of a node, where the parts are numbered from the given one on. -/
def unfoldPairs (known : NodeId → Unfolding) (id : NodeId) :
    Nat → List (NodeId × NodeId) → List Value
  | _, [] => []
  | part, (key, value) :: rest =>
    let isWhole := (known key).isWhole && (known value).isWhole
    .pair (known key).value (known value).value (markOf isWhole id part) ::
      unfoldPairs known id (part + 1) rest

/-- Unfolds a node by one level over what is known of its parts. -/
def Finding.unfold (known : NodeId → Unfolding) (id : NodeId) : Finding → Unfolding
  | .scalar value => ⟨.scalar value, true⟩
  | .list items =>
    let isWhole := items.all fun item => (known item).isWhole
    ⟨.list (items.map fun item => (known item).value) (markOf isWhole id 0), isWhole⟩
  | .pairs entries =>
    let isWhole := entries.all fun entry => (known entry.1).isWhole && (known entry.2).isWhole
    ⟨.list (unfoldPairs known id 1 entries) (markOf isWhole id 0), isWhole⟩
  | .set members => ⟨.set members, true⟩
  | .mapping entries =>
    let isWhole := entries.all fun entry => (known entry.2).isWhole
    ⟨.mapping (entries.map fun entry => (entry.1, (known entry.2).value)) (markOf isWhole id 0),
      isWhole⟩

/-- Unfolds all nodes by one more level, as far as they are not whole. -/
def unfoldLevel (found : Array (Option Finding)) (known : Array Unfolding) : Array Unfolding :=
  known.mapIdx fun id unfolding =>
    if unfolding.isWhole then unfolding
    else
      match found[id]?.join with
      | some finding => finding.unfold (fun part => known[part]?.getD .unknown) id
      | none => unfolding

/-- The value of a node, unfolded until it is whole or by so many levels. -/
def unfold (found : Array (Option Finding)) (id : NodeId) : Nat → Array Unfolding → Value
  | 0, known => (known[id]?.getD .unknown).value
  | levels + 1, known =>
    if (known[id]?.getD .unknown).isWhole then (known[id]?.getD .unknown).value
    else unfold found id levels (unfoldLevel found known)

/-- The length of the longest text in a graph. -/
def Graph.longestText (g : Graph) : Nat :=
  g.nodes.foldl (fun (longest : Nat) (node : Node) =>
    match node.content with
    | Content.scalar text => max longest text.length
    | _ => longest) 0

/-- The number of levels by which a value is unfolded that lies inside itself: a reference of the
document follows no more keys than its text has characters, and from where it leads, or a schema
lies, every node can be met once before one is met again. -/
def Graph.depth (g : Graph) : Nat := g.longestText + 3 * g.size + 2

/-- Reads the document of a text. A text without a document holds nothing. -/
def read (text : List Char) : Except Failure Value := do
  match ← Graph.ofText? text with
  | some (g, root) =>
    let found ← findings g root
    pure (unfold found root g.depth (Array.replicate g.size .unknown))
  | none => pure Value.null

end CommBindings.Yaml
