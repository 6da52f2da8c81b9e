import CommBindings.Document.Yaml.Graph
import CommBindings.Document.Yaml.Token

set_option autoImplicit false

/-! # The graph of a YAML text

The nodes that the tokens of a text describe. A node gets its number before the nodes inside of it
get theirs, so that an alias inside a node may stand for the node itself. Of the failures in a text
the first counts, where tokens are looked at only when they are needed.
-/

namespace CommBindings.Yaml

/-- The tokens that are left, the failure after the last of them if there is one, the handles of
tags, the nodes with an anchor, and the nodes so far. -/
structure Parser where
  tokens : List Token
  failure : Option Failure
  handles : List (List Char × List Char)
  anchors : List (List Char × NodeId)
  graph : Graph

/-- A step in building nodes. -/
abbrev Parse := StateT Parser (Except Failure)

namespace Parse

/-- The next token. -/
def peek : Parse Token := do
  let p ← get
  match p.tokens with
  | token :: _ => pure token
  | [] => throw (p.failure.getD .invalid)

/-- Leaves the next token behind. -/
def skip : Parse Unit := modify fun p => { p with tokens := p.tokens.drop 1 }

/-- Leaves the next token behind, which must be the given one. -/
def expect (token : Token) : Parse Unit := do
  if (← peek) = token then skip else throw .invalid

/-- Whether the next token is one of some. -/
def nextIsIn (tokens : List Token) : Parse Bool := do pure (tokens.contains (← peek))

/-- The anchor and the tag in front of a node, in either order. -/
def properties : Parse (Option (List Char) × Option (Option (List Char) × List Char)) := do
  match ← peek with
  | .anchor name =>
    skip
    match ← peek with
    | .tag handle suffix =>
      skip
      pure (some name, some (handle, suffix))
    | _ => pure (some name, none)
  | .tag handle suffix =>
    skip
    match ← peek with
    | .anchor name =>
      skip
      pure (some name, some (handle, suffix))
    | _ => pure (none, some (handle, suffix))
  | _ => pure (none, none)

/-- The name of a tag. A tag of one exclamation mark is none. -/
def tagName (tag : Option (Option (List Char) × List Char)) : Parse (Option (List Char)) := do
  match tag with
  | none => pure none
  | some (none, suffix) => pure (some suffix)
  | some (some handle, suffix) =>
    match (← get).handles.lookup handle with
    | some replacement => pure (some (replacement ++ suffix))
    | none => throw .invalid

/-- The tag with a name, or else the given one. -/
def tagOr (name : Option (List Char)) (otherwise : Tag) : Tag :=
  match name with
  | some name => if name = ['!'] then otherwise else Tag.ofName name
  | none => otherwise

/-- The tag of a scalar. One with the tag of a single mark is looked at even if it is quoted. -/
def scalarTag (name : Option (List Char)) (text : List Char) (isPlain : Bool) : Tag :=
  tagOr name (if isPlain || name.isSome then Tag.ofLooks text else .text)

/-- Adds a node, and remembers its anchor, which must be a new one. -/
def addNode (anchor : Option (List Char)) (node : Node) : Parse NodeId := do
  match anchor with
  | none => pure ()
  | some name => if ((← get).anchors.lookup name).isSome then throw .invalid
  modifyGet fun p =>
    let id := p.graph.size
    let named := (anchor.map fun name => (name, id)).toList
    (id, { p with anchors := named ++ p.anchors, graph := p.graph.add node })

/-- Adds the node of an empty place. -/
def addEmpty : Parse NodeId := addNode none Node.empty

/-- Fills a sequence with its items. -/
def fillSequence (id : NodeId) (items : List NodeId) : Parse NodeId :=
  modifyGet fun p => (id, { p with graph := p.graph.setContent id (.sequence items) })

/-- Fills a mapping with its entries. -/
def fillMapping (id : NodeId) (entries : List (NodeId × NodeId)) : Parse NodeId :=
  modifyGet fun p => (id, { p with graph := p.graph.setContent id (.mapping entries) })

/-- The node that an alias stands for. -/
def resolveAlias (name : List Char) : Parse NodeId := do
  match (← get).anchors.lookup name with
  | some id => pure id
  | none => throw .invalid

mutual

/-- Reads a node. Only in a block may it be a block itself, and only as an entry of a mapping may
its items stand without further indentation. -/
def node : Nat → Bool → Bool → Parse NodeId
  | 0, _, _ => throw .invalid
  | fuel + 1, inBlock, indentless => do
    match ← peek with
    | .aliasOf name =>
      skip
      resolveAlias name
    | _ =>
      let (anchor, tag) ← properties
      let name ← tagName tag
      let token ← peek
      let sequence : Node := ⟨tagOr name .sequence, .sequence []⟩
      let mapping : Node := ⟨tagOr name .mapping, .mapping []⟩
      if indentless && token = .blockEntry then
        let id ← addNode anchor sequence
        fillSequence id (← indentlessItems fuel)
      else
        match token with
        | .scalar text isPlain =>
          skip
          addNode anchor ⟨scalarTag name text isPlain, .scalar text⟩
        | .flowSequenceStart =>
          let id ← addNode anchor sequence
          skip
          fillSequence id (← flowItems fuel true)
        | .flowMappingStart =>
          let id ← addNode anchor mapping
          skip
          fillMapping id (← flowEntries fuel true)
        | .blockSequenceStart =>
          if inBlock then
            let id ← addNode anchor sequence
            skip
            fillSequence id (← blockItems fuel)
          else emptyNode anchor name
        | .blockMappingStart =>
          if inBlock then
            let id ← addNode anchor mapping
            skip
            fillMapping id (← blockEntries fuel)
          else emptyNode anchor name
        | _ => emptyNode anchor name

/-- A node without content, which must have an anchor or a tag. -/
def emptyNode (anchor name : Option (List Char)) : Parse NodeId :=
  if anchor.isSome || name.isSome then addNode anchor ⟨tagOr name .null, .scalar []⟩
  else throw .invalid

/-- Reads the items of a block sequence up to its end. -/
def blockItems : Nat → Parse (List NodeId)
  | 0 => throw .invalid
  | fuel + 1 => do
    match ← peek with
    | .blockEntry =>
      skip
      let item ← if ← nextIsIn [.blockEntry, .blockEnd] then addEmpty
        else node fuel true false
      let items ← blockItems fuel
      pure (item :: items)
    | .blockEnd =>
      skip
      pure []
    | _ => throw .invalid

/-- Reads the items of a sequence that is not indented further than the mapping around it. -/
def indentlessItems : Nat → Parse (List NodeId)
  | 0 => throw .invalid
  | fuel + 1 => do
    match ← peek with
    | .blockEntry =>
      skip
      let item ← if ← nextIsIn [.blockEntry, .key, .value, .blockEnd] then addEmpty
        else node fuel true false
      let items ← indentlessItems fuel
      pure (item :: items)
    | _ => pure []

/-- Reads the entries of a block mapping up to its end. -/
def blockEntries : Nat → Parse (List (NodeId × NodeId))
  | 0 => throw .invalid
  | fuel + 1 => do
    match ← peek with
    | .key =>
      skip
      let key ← if ← nextIsIn [.key, .value, .blockEnd] then addEmpty
        else node fuel true true
      let value ← blockValue fuel
      let entries ← blockEntries fuel
      pure ((key, value) :: entries)
    | .blockEnd =>
      skip
      pure []
    | _ => throw .invalid

/-- Reads the value after a key of a block mapping. -/
def blockValue : Nat → Parse NodeId
  | 0 => throw .invalid
  | fuel + 1 => do
    match ← peek with
    | .value =>
      skip
      if ← nextIsIn [.key, .value, .blockEnd] then addEmpty else node fuel true true
    | _ => addEmpty

/-- Reads the items of a flow sequence up to its end. An item with a key sign is a mapping of one
entry. -/
def flowItems : Nat → Bool → Parse (List NodeId)
  | 0, _ => throw .invalid
  | fuel + 1, isFirst => do
    if (← peek) = .flowSequenceEnd then
      skip
      pure []
    else
      if !isFirst then expect .flowEntry
      match ← peek with
      | .key =>
        skip
        let key ← if ← nextIsIn [.value, .flowEntry, .flowSequenceEnd] then addEmpty
          else node fuel false false
        let value ← flowValue fuel [.flowEntry, .flowSequenceEnd]
        let item ← addNode none ⟨.mapping, .mapping [(key, value)]⟩
        let items ← flowItems fuel false
        pure (item :: items)
      | .flowSequenceEnd =>
        skip
        pure []
      | _ =>
        let item ← node fuel false false
        let items ← flowItems fuel false
        pure (item :: items)

/-- Reads the entries of a flow mapping up to its end. -/
def flowEntries : Nat → Bool → Parse (List (NodeId × NodeId))
  | 0, _ => throw .invalid
  | fuel + 1, isFirst => do
    if (← peek) = .flowMappingEnd then
      skip
      pure []
    else
      if !isFirst then expect .flowEntry
      match ← peek with
      | .key =>
        skip
        let key ← if ← nextIsIn [.value, .flowEntry, .flowMappingEnd] then addEmpty
          else node fuel false false
        let value ← flowValue fuel [.flowEntry, .flowMappingEnd]
        let entries ← flowEntries fuel false
        pure ((key, value) :: entries)
      | .flowMappingEnd =>
        skip
        pure []
      | _ =>
        let key ← node fuel false false
        let value ← addEmpty
        let entries ← flowEntries fuel false
        pure ((key, value) :: entries)

/-- Reads the value after a key of a flow collection, where the given tokens mean that there is
none. -/
def flowValue : Nat → List Token → Parse NodeId
  | 0, _ => throw .invalid
  | fuel + 1, ends => do
    match ← peek with
    | .value =>
      skip
      if ← nextIsIn ends then addEmpty else node fuel false false
    | _ => addEmpty

end

/-- The handles that every document has. -/
def standardHandles : List (List Char × List Char) := [
  (['!'], ['!']), (['!', '!'], Tag.standardStart.toList)]

/-- Reads the directives of a document. -/
def directives : Nat → Bool → List (List Char × List Char) → Parse Unit
  | 0, _, _ => throw .invalid
  | fuel + 1, hasVersion, handles => do
    match ← peek with
    | .versionDirective major =>
      skip
      if hasVersion || major ≠ 1 then throw .invalid
      else directives fuel true handles
    | .tagDirective handle replacement =>
      skip
      if (handles.lookup handle).isSome then throw .invalid
      else directives fuel hasVersion ((handle, replacement) :: handles)
    | .otherDirective =>
      skip
      directives fuel hasVersion handles
    | _ => modify fun p => { p with handles := handles ++ standardHandles }

/-- Leaves document ends behind. -/
def skipDocumentEnds : Nat → Parse Unit
  | 0 => throw .invalid
  | fuel + 1 => do
    match ← peek with
    | .documentEnd =>
      skip
      skipDocumentEnds fuel
    | _ => pure ()

/-- Whether a token is a directive. -/
def isDirective : Token → Bool
  | .versionDirective _ | .tagDirective _ _ | .otherDirective => true
  | _ => false

/-- Reads a document with its start marked. -/
def markedDocument (fuel : Nat) : Parse NodeId := do
  directives fuel false []
  expect .documentStart
  let token ← peek
  if isDirective token || token = .documentStart || token = .documentEnd || token = .streamEnd then
    addEmpty
  else node fuel true false

/-- Fails after the directives and the start of a second document. -/
def refuseDocument (fuel : Nat) : Parse Unit := do
  directives fuel false []
  expect .documentStart
  throw .invalid

/-- Reads the only document of a text, if there is one. A second one is an error. -/
def document (fuel : Nat) : Parse (Option NodeId) := do
  let token ← peek
  let found ← (if token = .streamEnd then pure none
    else if isDirective token || token = .documentStart then (markedDocument fuel).map some
    else do
      modify fun p => { p with handles := standardHandles }
      (node fuel true false).map some
    : Parse (Option NodeId))
  skipDocumentEnds fuel
  if (← peek) ≠ .streamEnd then refuseDocument fuel
  pure found

end Parse

/-- The document of a text: its graph with the number of its root, if there is one. -/
def Graph.ofText? (text : List Char) : Except Failure (Option (Graph × NodeId)) :=
  if text.all isAllowed then do
    let (tokens, failure) := Token.ofText text
    let (root, parser) ← 
      (Parse.document (4 * tokens.length + 8)).run ⟨tokens, failure, [], [], Graph.empty⟩
    pure (root.map fun id => (parser.graph, id))
  else .error .invalid

end CommBindings.Yaml
