import CommBindings.Document.Yaml.Tag

set_option autoImplicit false

/-! # Graphs of YAML nodes

The nodes of a document, told apart by their numbers. An alias stands for the very node with its
anchor, so a node may have several places in the document and may even lie inside itself.
-/

namespace CommBindings.Yaml

/-- The number of a node. -/
abbrev NodeId := Nat

/-- What is in a node: the text of a scalar, or the nodes of a collection. -/
inductive Content where
  | scalar (text : List Char)
  | sequence (items : List NodeId)
  | mapping (entries : List (NodeId × NodeId))
  deriving Repr, DecidableEq

/-- A node and its tag. -/
structure Node where
  tag : Tag
  content : Content
  deriving Repr, DecidableEq

/-- The nodes of a document by their numbers. -/
structure Graph where
  nodes : Array Node
  deriving Repr

namespace Node

/-- The node of an empty place. -/
def empty : Node := ⟨.null, .scalar []⟩

end Node

namespace Graph

/-- The graph without nodes. -/
def empty : Graph := ⟨#[]⟩

/-- The number of nodes. -/
def size (g : Graph) : Nat := g.nodes.size

/-- The node with a number. -/
def node (g : Graph) (id : NodeId) : Node := g.nodes[id]?.getD Node.empty

/-- The tag of a node. -/
def tag (g : Graph) (id : NodeId) : Tag := (g.node id).tag

/-- The content of a node. -/
def content (g : Graph) (id : NodeId) : Content := (g.node id).content

/-- The entries of a node, which has none unless it is a mapping. -/
def entries (g : Graph) (id : NodeId) : List (NodeId × NodeId) :=
  match g.content id with
  | .mapping entries => entries
  | _ => []

/-- The graph with one more node, which gets the next number. -/
def add (g : Graph) (node : Node) : Graph := ⟨g.nodes.push node⟩

/-- The graph with another content of a node. -/
def setContent (g : Graph) (id : NodeId) (content : Content) : Graph :=
  ⟨g.nodes.modify id fun node => { node with content := content }⟩

/-- The graph with another tag of a node. -/
def setTag (g : Graph) (id : NodeId) (tag : Tag) : Graph :=
  ⟨g.nodes.modify id fun node => { node with tag := tag }⟩

theorem size_add (g : Graph) (node : Node) : (g.add node).size = g.size + 1 := by
  simp [size, add]

theorem node_add (g : Graph) (node : Node) : (g.add node).node g.size = node := by
  simp [Graph.node, add, size]

theorem size_setContent (g : Graph) (id : NodeId) (content : Content) :
    (g.setContent id content).size = g.size := by
  simp [size, setContent]

theorem size_setTag (g : Graph) (id : NodeId) (tag : Tag) : (g.setTag id tag).size = g.size := by
  simp [size, setTag]

end Graph

end CommBindings.Yaml
