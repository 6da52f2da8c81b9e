import CommBindings.Document.Yaml.Cursor
import CommBindings.Document.Yaml.Graph

set_option autoImplicit false

/-! # Merging YAML mappings

A merge key in a mapping puts the entries of other mappings in front of those of its own. Merging
changes the graph: a mapping has no merge keys afterwards, wherever in the document it stands. A
mapping may be asked to merge with itself; it is then merged with what it holds at that moment.
-/

namespace CommBindings.Yaml

namespace Graph

/-- The first entry with a merge key, and the entries without it. -/
def splitMerge? (g : Graph) :
    List (NodeId × NodeId) → Option (NodeId × List (NodeId × NodeId))
  | [] => none
  | (key, value) :: rest =>
    if g.tag key = .merge then some (value, rest)
    else (g.splitMerge? rest).map fun found => (found.1, (key, value) :: found.2)

/-- The number of entries with a merge key. -/
def mergeCount (g : Graph) : Nat :=
  (g.nodes.toList.flatMap fun node =>
    match node.content with
    | .mapping entries => entries
    | _ => []).countP fun entry => g.tag entry.1 = .merge

/-- The graph where the default keys of a mapping have become texts. -/
def plainDefaults (g : Graph) (entries : List (NodeId × NodeId)) : Graph :=
  entries.foldl
    (fun g entry => if g.tag entry.1 = .defaultValue then g.setTag entry.1 .text else g) g

/-- The graph where a mapping without merge keys has got the gathered entries in front of its
own. -/
def putInFront (g : Graph) (id : NodeId) (gathered : List (NodeId × NodeId)) : Graph :=
  let own := g.entries id
  let g := g.plainDefaults own
  if gathered.isEmpty then g else g.setContent id (.mapping (gathered ++ own))

/-- The graph where the entries of a mapping have been merged, with those gathered already in front
of them. Every step takes an entry with a merge key out of the graph. -/
def mergeWith : Nat → List (NodeId × NodeId) → Graph → NodeId → Except Failure Graph
  | 0, _, _, _ => .error .invalid
  | fuel + 1, gathered, g, id =>
    match g.splitMerge? (g.entries id) with
    | none => .ok (g.putInFront id gathered)
    | some (source, own) =>
      let g := g.setContent id (.mapping own)
      match g.content source with
      | .mapping _ => do
        let g ← mergeWith fuel [] g source
        mergeWith fuel (gathered ++ g.entries source) g id
      | .sequence items => do
        let (g, lists) ← items.foldlM (fun (g, lists) item =>
          match g.content item with
          | .mapping _ => do
            let g ← mergeWith fuel [] g item
            pure (g, g.entries item :: lists)
          | _ => Except.error Failure.invalid) (g, [])
        mergeWith fuel (gathered ++ lists.flatten) g id
      | .scalar _ => .error .invalid

/-- The graph where the entries of a mapping have been merged. -/
def merge (g : Graph) (id : NodeId) : Except Failure Graph :=
  match g.splitMerge? (g.entries id) with
  | none => .ok (g.putInFront id [])
  | some _ => mergeWith (g.mergeCount + 1) [] g id

end Graph

end CommBindings.Yaml
