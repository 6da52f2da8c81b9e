import CommBindings.Contract.Typing
import CommBindings.Emission

set_option autoImplicit false

/-! # Walking through contracts

The nodes of a contract with their contexts, each before the nodes inside it: first the params and
the result of each method, then the shared schemas. A *visit* walks through a contract step by step and
calls for the fragments that are written for some of the nodes; it can be cut off after any number of
fragments, and then no further node is looked at.
-/

namespace CommBindings

/-- A node of a schema and the keys that enclose it. -/
structure Node where
  context : Context
  schema : Schema

mutual

/-- A node and all nodes inside it. -/
def walk (context : Context) : Schema → Emission Node Unit
  | .primitive kind description => .emit ⟨context, .primitive kind description⟩
  | .enumeration values description => .emit ⟨context, .enumeration values description⟩
  | .reference pointer description => .emit ⟨context, .reference pointer description⟩
  | .array items description => do
    .emit ⟨context, .array items description⟩
    let inner ← Emission.require (itemsContext context)
    walk inner items
  | .object node => do
    .emit ⟨context, .object node⟩
    walkObject context node

/-- The nodes inside an object. The keys that enclose a property are its own, then the name of the
object if it has one, and then the context of the object. -/
def walkObject (context : Context) : ObjectSchema → Emission Node Unit
  | ⟨some name, _, properties, _, _⟩ => walkProperties (.text name :: context) properties
  | ⟨none, _, properties, _, _⟩ =>
    match context with
    | [] => .require (.error (.violation .objectIsNamed .null none))
    | key :: keys => walkProperties (key :: keys) properties

/-- The nodes of the properties of an object. -/
def walkProperties (owner : Context) : List (Key × Schema) → Emission Node Unit
  | [] => .result ()
  | (key, schema) :: rest => do
    walk (key :: owner) schema
    walkProperties owner rest

end

/-- The nodes of a method. -/
def Method.nodes (method : Method) : Emission Node Unit := do
  Emission.forAll method.params fun param =>
    walk (paramContext method.name param.name) param.schema
  match method.result with
  | some schema => walk (resultContext method.name) schema
  | none => .result ()

/-- The nodes of a contract. -/
def Contract.nodes (contract : Contract) : Emission Node Unit := do
  Emission.forAll contract.methods Method.nodes
  Emission.forAll contract.schemas fun entry => walk [entry.1] entry.2

/-- The object at a node, if there is one. -/
def Node.object? (node : Node) : Option ObjectSchema :=
  match node.schema with
  | .object object => some object
  | _ => none

/-- The values of the enumeration at a node, if there is one. -/
def Node.values? (node : Node) : Option (List String) :=
  match node.schema with
  | .enumeration values _ => some values
  | _ => none

/-! ## Step by step

A traversal that can be left and taken up again holds what is left to do in *frames*, the innermost
first. A step of a frame hands out one node at most; what is inside this node is only looked at in a
later step.
-/

/-- The keys that enclose the properties of an object, as in `walkObject`. -/
def propertyContext (context : Context) (node : ObjectSchema) : Except Fault Context :=
  match node.name, context with
  | some name, _ => .ok (.text name :: context)
  | none, key :: keys => .ok (key :: keys)
  | none, [] => .error (.violation .objectIsNamed .null none)

/-- The nodes right inside a node. -/
def Node.children : Node → Except Fault (List Node)
  | ⟨context, .array items _⟩ => (itemsContext context).map fun inner => [⟨inner, items⟩]
  | ⟨context, .object node⟩ =>
    (propertyContext context node).map fun owner =>
      node.properties.map fun property => ⟨property.1 :: owner, property.2⟩
  | _ => .ok []

/-- The nodes that a method has by itself: those of its params, and that of its result. -/
def Method.roots (method : Method) : List Node :=
  method.params.map (fun param => ⟨paramContext method.name param.name, param.schema⟩) ++
    method.result.toList.map fun schema => ⟨resultContext method.name, schema⟩

/-- A part of a traversal that is left to do. -/
inductive Frame where
  /-- The methods that a loop has not come to. -/
  | methods (rest : List Method)
  /-- The nodes that a loop has not come to. -/
  | nodes (rest : List Node)
  /-- To go inside a node that was handed out. -/
  | inside (node : Node)

/-- All that there is to do for a contract. -/
def Contract.frames (contract : Contract) : List Frame :=
  [.methods contract.methods, .nodes (contract.schemas.map fun entry => ⟨[entry.1], entry.2⟩)]

/-- A step: the node that it hands out, if it does, and the frames that take the place of this one. -/
def Frame.step : Frame → Except Fault (Option Node × List Frame)
  | methods [] => .ok (none, [])
  | methods (method :: rest) => .ok (none, [.nodes method.roots, .methods rest])
  | nodes [] => .ok (none, [])
  | nodes (node :: rest) => .ok (some node, [.inside node, .nodes rest])
  | inside node => node.children.map fun children => (none, [.nodes children])

/-- A bound for the steps that some nodes lead to. -/
noncomputable def Node.totalWeight : List Node → Nat
  | [] => 1
  | node :: rest => 3 * sizeOf node.schema + totalWeight rest + 1

/-- A bound for the steps that some methods lead to. -/
noncomputable def Method.totalWeight : List Method → Nat
  | [] => 1
  | method :: rest => Node.totalWeight method.roots + totalWeight rest + 1

/-- A bound for the steps that a frame leads to. -/
noncomputable def Frame.weight : Frame → Nat
  | methods rest => Method.totalWeight rest
  | nodes rest => Node.totalWeight rest
  | inside node => 3 * sizeOf node.schema

/-- A bound for the steps that some frames lead to. -/
noncomputable def Frame.totalWeight : List Frame → Nat
  | [] => 0
  | frame :: rest => frame.weight + totalWeight rest

theorem Frame.totalWeight_append (frames others : List Frame) :
    totalWeight (frames ++ others) = totalWeight frames + totalWeight others := by
  induction frames with
  | nil => rw [List.nil_append, totalWeight, Nat.zero_add]
  | cons frame rest ih => rw [List.cons_append, totalWeight, totalWeight, ih, Nat.add_assoc]

theorem totalWeight_properties (owner : Context) (properties : List (Key × Schema)) :
    Node.totalWeight (properties.map fun property => ⟨property.1 :: owner, property.2⟩) ≤
      3 * sizeOf properties := by
  induction properties with
  | nil =>
      simp only [List.map_nil, Node.totalWeight, List.nil.sizeOf_spec]
      omega
  | cons property rest ih =>
      obtain ⟨key, schema⟩ := property
      simp only [List.map_cons, Node.totalWeight, List.cons.sizeOf_spec, Prod.mk.sizeOf_spec]
      omega

theorem totalWeight_children {node : Node} {children : List Node}
    (h : node.children = .ok children) : Node.totalWeight children < 3 * sizeOf node.schema := by
  obtain ⟨context, schema⟩ := node
  cases schema with
  | array items description =>
      rw [Node.children] at h
      cases hInner : itemsContext context with
      | error fault =>
          rw [hInner] at h
          cases h
      | ok inner =>
          rw [hInner] at h
          cases h
          simp only [Node.totalWeight, Schema.array.sizeOf_spec]
          omega
  | object node =>
      obtain ⟨name, description, properties, required, additional⟩ := node
      rw [Node.children] at h
      cases hOwner : propertyContext context ⟨name, description, properties, required, additional⟩ with
      | error fault =>
          rw [hOwner] at h
          cases h
      | ok owner =>
          rw [hOwner] at h
          cases h
          have hProperties := totalWeight_properties owner properties
          simp only [Schema.object.sizeOf_spec, ObjectSchema.mk.sizeOf_spec]
          omega
  | _ =>
      cases h
      simp only [Node.totalWeight, Schema.primitive.sizeOf_spec, Schema.enumeration.sizeOf_spec,
        Schema.reference.sizeOf_spec]
      omega

/-- Each step makes the frames lighter. -/
theorem Frame.step_lighter {frame : Frame} {node : Option Node} {frames : List Frame}
    (h : frame.step = .ok (node, frames)) : totalWeight frames < frame.weight := by
  cases frame with
  | methods rest =>
      cases rest with
      | nil =>
          cases h
          exact Nat.zero_lt_one
      | cons method rest =>
          cases h
          simp only [totalWeight, weight, Method.totalWeight]
          omega
  | nodes rest =>
      cases rest with
      | nil =>
          cases h
          exact Nat.zero_lt_one
      | cons first rest =>
          cases h
          simp only [totalWeight, weight, Node.totalWeight]
          omega
  | inside inner =>
      rw [step] at h
      cases hChildren : inner.children with
      | error fault =>
          rw [hChildren] at h
          cases h
      | ok children =>
          rw [hChildren] at h
          cases h
          exact totalWeight_children hChildren

/-! ## Visits -/

/-- A visit on its way. -/
structure Visit (ι : Type) where
  /-- What is left of the traversal. -/
  frames : List Frame
  /-- What a call for a node hands out, if there is one. It may depend on the nodes of the calls before. -/
  call? : Node → Option (List Node → Emission ι Unit)
  /-- What is left of the last call. -/
  part : Emission ι Unit
  /-- The nodes of the calls so far. -/
  calls : List Node

namespace Visit

variable {ι α : Type}

/-- The visit of the nodes of a contract at which there is something to call a callback with. -/
def ofNodes (contract : Contract) (select : Node → Option α)
    (callback : List Node → Context → α → Emission ι Unit) : Visit ι where
  frames := contract.frames
  call? node := (select node).map fun a earlier => callback earlier node.context a
  part := .result ()
  calls := []

/-- The visit of the objects of a contract. The callback knows for which nodes it was called before. -/
def objects (contract : Contract)
    (callback : List Node → Context → ObjectSchema → Emission ι Unit) : Visit ι :=
  ofNodes contract Node.object? callback

/-- The visit of the enumerations of a contract. The callback knows for which nodes it was called
before. -/
def enums (contract : Contract)
    (callback : List Node → Context → List String → Emission ι Unit) : Visit ι :=
  ofNodes contract Node.values? callback

/-- The visit of the objects of a contract, with a callback that remembers nothing. -/
def ofObjects (contract : Contract) (callback : Context → ObjectSchema → Emission ι Unit) : Visit ι :=
  objects contract fun _ => callback

/-- The visit of the enumerations of a contract, with a callback that remembers nothing. -/
def ofEnums (contract : Contract) (callback : Context → List String → Emission ι Unit) : Visit ι :=
  enums contract fun _ => callback

/-- What a step of a visit leads to: its end, a visit that goes on without a fragment, or a fragment and
the visit that is left. -/
inductive Turn (ι : Type) where
  | ended (outcome : Except Fault Unit)
  | silent (rest : Visit ι)
  | handed (fragment : ι) (rest : Visit ι)

/-- The visit when its traversal has come to a node: the node is called for, or passed over. -/
def meet (visit : Visit ι) (node : Node) : Visit ι :=
  match visit.call? node with
  | none => visit
  | some call => { visit with part := call visit.calls, calls := visit.calls ++ [node] }

/-- A step of the traversal. -/
def advance (visit : Visit ι) : Turn ι :=
  match visit.frames with
  | [] => .ended (.ok ())
  | frame :: rest =>
    match frame.step with
    | .error fault => .ended (.error fault)
    | .ok (none, frames) => .silent { visit with frames := frames ++ rest }
    | .ok (some node, frames) => .silent ({ visit with frames := frames ++ rest }.meet node)

/-- A step. The traversal goes on only when the last call has nothing left to hand out. -/
def step (visit : Visit ι) : Turn ι :=
  match visit.part with
  | ⟨fragment :: rest, outcome⟩ => .handed fragment { visit with part := ⟨rest, outcome⟩ }
  | ⟨[], .error fault⟩ => .ended (.error fault)
  | ⟨[], .ok ()⟩ => visit.advance

theorem meet_frames (visit : Visit ι) (node : Node) : (visit.meet node).frames = visit.frames := by
  unfold meet
  split
  · rfl
  · rfl

theorem advance_silent {visit rest : Visit ι} (h : visit.advance = .silent rest) :
    Frame.totalWeight rest.frames < Frame.totalWeight visit.frames := by
  unfold advance at h
  split at h
  · cases h
  · next frame frames hFrames =>
    split at h
    · cases h
    · next hStep =>
      cases h
      have hLighter := Frame.step_lighter hStep
      simp only [hFrames, Frame.totalWeight, Frame.totalWeight_append]
      omega
    · next hStep =>
      cases h
      have hLighter := Frame.step_lighter hStep
      simp only [meet_frames, hFrames, Frame.totalWeight, Frame.totalWeight_append]
      omega

theorem advance_not_handed (visit rest : Visit ι) (fragment : ι) :
    visit.advance ≠ .handed fragment rest := by
  unfold advance
  split
  · nofun
  · split
    · nofun
    · nofun
    · nofun

/-- A step that hands out nothing makes the frames lighter. -/
theorem step_silent {visit rest : Visit ι} (h : visit.step = .silent rest) :
    Frame.totalWeight rest.frames < Frame.totalWeight visit.frames := by
  unfold step at h
  split at h
  · cases h
  · cases h
  · exact advance_silent h

/-- A step that hands out a fragment takes it from the last call, and leaves the frames as they are. -/
theorem step_handed {visit rest : Visit ι} {fragment : ι} (h : visit.step = .handed fragment rest) :
    visit.part.items = fragment :: rest.part.items ∧ rest.frames = visit.frames := by
  unfold step at h
  split at h
  · next hPart =>
    cases h
    exact ⟨congrArg Emission.items hPart, rfl⟩
  · cases h
  · exact absurd h (visit.advance_not_handed rest fragment)

/-- What has come of a visit: its fragments, the nodes that there was a call for, and how it ended, if it
did. -/
structure Taken (ι : Type) where
  fragments : List ι
  calls : List Node
  outcome : Option (Except Fault Unit)

/-- Goes on with a visit until it has handed out as many fragments as the limit says, and without a limit
to its end. -/
def run (limit : Option Nat) (visit : Visit ι) : Taken ι :=
  if limit = some 0 then ⟨[], visit.calls, none⟩
  else
    match h : visit.step with
    | .ended outcome => ⟨[], visit.calls, some outcome⟩
    | .silent rest => run limit rest
    | .handed fragment rest =>
      let taken := run (limit.map (· - 1)) rest
      { taken with fragments := fragment :: taken.fragments }
termination_by (Frame.totalWeight visit.frames, visit.part.items.length)
decreasing_by
  · exact Prod.Lex.left _ _ (step_silent h)
  · obtain ⟨hItems, hFrames⟩ := step_handed h
    rw [hFrames, hItems]
    exact Prod.Lex.right _ (Nat.lt_succ_self _)

/-- The fragments and the contexts of the calls, unless a fault ended the visit. -/
def Taken.result (taken : Taken ι) : Except Fault (List ι × List Context) :=
  match taken.outcome with
  | some (.error fault) => .error fault
  | _ => .ok (taken.fragments, taken.calls.map Node.context)

/-- The first fragments of a visit, and the contexts of the calls that were made for them. A fault counts
only if the limit was not reached before it. -/
def take (visit : Visit ι) (limit : Nat) : Except Fault (List ι × List Context) :=
  (visit.run (some limit)).result

/-- All fragments of a visit, and the contexts of all its calls. -/
def all (visit : Visit ι) : Except Fault (List ι × List Context) :=
  (visit.run none).result

end Visit

/-- What names and describes an object, as one line. -/
def objectLine (context : Context) (node : ObjectSchema) : Emission String Unit := do
  let name ← Emission.require (objectName context node)
  let description ← Emission.require (describeObject context node)
  .emit (name ++ ": " ++ description)

/-- What names and describes an enumeration, and its members, one line each. -/
def enumLines (context : Context) (values : List String) : Emission String Unit := do
  let name ← Emission.require (enumName context)
  let description ← Emission.require (describeEnum context)
  .emit (name ++ ": " ++ description)
  .emitAll (values.map fun value => Naming.enumMember value ++ "=" ++ value)

end CommBindings
