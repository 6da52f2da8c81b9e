import CommBindings.Proofs.Contract.Traversal

set_option autoImplicit false

/-! # The traversal step by step

Frames stand for the nodes that are still to come. Those of a contract stand for all its nodes
(`coming_frames`), and a step hands out the first node that is to come or none, and leaves frames for the
rest (`coming_step`). So whatever is done with the nodes one by one comes across what a walk comes across.
-/

namespace CommBindings

/-! ## What is inside a node -/

/-- The nodes inside a node. -/
def Node.within (node : Node) : Emission Node Unit := do
  let children ← Emission.require node.children
  Emission.forAll children fun child => walk child.context child.schema

theorem within_of_children {node : Node} {children : List Node} (h : node.children = .ok children) :
    node.within = Emission.forAll children fun child => walk child.context child.schema := by
  rw [Node.within, h]
  rfl

theorem walkObject_within (context : Context) (node : ObjectSchema) :
    walkObject context node = Node.within ⟨context, .object node⟩ := by
  obtain ⟨name, description, properties, required, additional⟩ := node
  cases name with
  | some name =>
      rw [walkObject, walkProperties_eq, within_of_children rfl, Emission.forAll_map]
  | none =>
      cases context with
      | nil =>
          rw [walkObject]
          rfl
      | cons key keys =>
          rw [walkObject, walkProperties_eq, within_of_children rfl, Emission.forAll_map]

/-- A walk hands out its root, and then the nodes inside. -/
theorem walk_within (node : Node) :
    walk node.context node.schema = Emission.emit node >>= fun _ => node.within := by
  obtain ⟨context, schema⟩ := node
  cases schema with
  | array items description =>
      rw [walk]
      cases hInner : itemsContext context with
      | error fault =>
          rw [Node.within, Node.children, hInner]
          rfl
      | ok inner =>
          have hChildren : Node.children ⟨context, .array items description⟩ = .ok [⟨inner, items⟩] := by
            rw [Node.children, hInner]
            rfl
          rw [within_of_children hChildren, Emission.forAll_singleton]
          rfl
  | object node => rw [walk, walkObject_within]
  | _ =>
      rw [walk]
      rfl

theorem method_nodes_roots (method : Method) :
    method.nodes = Emission.forAll method.roots fun node => walk node.context node.schema := by
  rw [Method.nodes, Method.roots, Emission.forAll_append, Emission.forAll_map]
  cases method.result with
  | none => rfl
  | some schema =>
      rw [Option.toList_some, List.map_singleton, Emission.forAll_singleton]

/-! ## What frames lead to -/

/-- The nodes that a frame leads to. -/
def Frame.coming : Frame → Emission Node Unit
  | methods rest => Emission.forAll rest Method.nodes
  | nodes rest => Emission.forAll rest fun node => walk node.context node.schema
  | inside node => node.within

/-- The nodes that frames lead to, one frame after another. -/
def Frame.allComing (frames : List Frame) : Emission Node Unit := Emission.forAll frames Frame.coming

/-- What is to do for a contract leads to all its nodes. -/
theorem coming_frames (contract : Contract) : Frame.allComing contract.frames = contract.nodes := by
  rw [Frame.allComing, Contract.frames, Emission.forAll, Emission.forAll_singleton, Frame.coming,
    Frame.coming, Emission.forAll_map]
  rfl

theorem allComing_append (frames others : List Frame) :
    Frame.allComing (frames ++ others) = Frame.allComing frames >>= fun _ => Frame.allComing others :=
  Emission.forAll_append frames others Frame.coming

/-- What a frame leads to is what its step hands out, and then what the frames in its place lead to. -/
theorem coming_step (frame : Frame) :
    frame.coming = Emission.require frame.step >>= fun turn =>
      Emission.emitAll turn.1.toList >>= fun _ => Frame.allComing turn.2 := by
  cases frame with
  | methods rest =>
      cases rest with
      | nil => rfl
      | cons method rest =>
          -- The roots of the method become a frame before that of the other methods.
          change method.nodes >>= _ = Frame.allComing [.nodes method.roots, .methods rest]
          rw [method_nodes_roots, Frame.allComing, Emission.forAll, Emission.forAll_singleton]
          rfl
  | nodes rest =>
      cases rest with
      | nil => rfl
      | cons node rest =>
          -- The node is handed out by itself; what is inside becomes a frame.
          change walk node.context node.schema >>= _ =
            Emission.emit node >>= fun _ => Frame.allComing [.inside node, .nodes rest]
          rw [walk_within, bind_assoc, Frame.allComing, Emission.forAll, Emission.forAll_singleton]
          rfl
  | inside node =>
      rw [Frame.coming, Frame.step]
      cases hChildren : node.children with
      | error fault =>
          rw [Node.within, hChildren]
          rfl
      | ok children =>
          rw [within_of_children hChildren]
          exact (Emission.forAll_singleton (Frame.nodes children) Frame.coming).symm

theorem allComing_fault {frame : Frame} {fault : Fault} (h : frame.step = .error fault)
    (rest : List Frame) : Frame.allComing (frame :: rest) = Emission.require (.error fault) := by
  rw [Frame.allComing, Emission.forAll, coming_step, h]
  rfl

theorem allComing_silent {frame : Frame} {frames : List Frame} (h : frame.step = .ok (none, frames))
    (rest : List Frame) : Frame.allComing (frame :: rest) = Frame.allComing (frames ++ rest) := by
  rw [allComing_append, Frame.allComing, Emission.forAll, coming_step, h]
  rfl

theorem allComing_node {frame : Frame} {node : Node} {frames : List Frame}
    (h : frame.step = .ok (some node, frames)) (rest : List Frame) :
    Frame.allComing (frame :: rest) =
      Emission.emit node >>= fun _ => Frame.allComing (frames ++ rest) := by
  rw [allComing_append, Frame.allComing, Emission.forAll, coming_step, h]
  exact bind_assoc (Emission.emit node) (fun _ => Frame.allComing frames) _

end CommBindings
