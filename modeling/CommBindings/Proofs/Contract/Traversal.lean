import CommBindings.Contract.Traversal
import CommBindings.Proofs.Contract.Reading
import CommBindings.Proofs.Emission

set_option autoImplicit false

/-! # What a walk comes across

A walk that ends well comes across every node inside its root, each in the context that its place
gives it. So the nodes of a contract hold with each node all the nodes inside it
(`covered_of_mem`), and they hold every schema that a type is derived for.
-/

namespace CommBindings

variable {nodes : List Node} {context : Context}

/-- The nodes are among some nodes that the walk from a schema comes across, and it ends well. -/
structure Covered (nodes : List Node) (context : Context) (schema : Schema) : Prop where
  ends : (walk context schema).outcome = .ok ()
  within : (walk context schema).items ⊆ nodes

theorem Covered.mono {schema : Schema} {others : List Node} (h : Covered nodes context schema)
    (hSubset : nodes ⊆ others) : Covered others context schema :=
  ⟨h.ends, fun _ hNode => hSubset (h.within hNode)⟩

theorem covered_self {schema : Schema} (h : (walk context schema).outcome = .ok ()) :
    Covered (walk context schema).items context schema :=
  ⟨h, List.Subset.refl _⟩

/-- A walk begins with its root. -/
theorem mem_walk (context : Context) (schema : Schema) :
    ⟨context, schema⟩ ∈ (walk context schema).items := by
  cases schema with
  | primitive kind description => exact List.mem_cons_self
  | enumeration values description => exact List.mem_cons_self
  | reference pointer description => exact List.mem_cons_self
  | array items description =>
      rw [walk, Emission.bind_items _ rfl]
      exact List.mem_cons_self
  | object node =>
      rw [walk, Emission.bind_items _ rfl]
      exact List.mem_cons_self

theorem Covered.mem {schema : Schema} (h : Covered nodes context schema) :
    ⟨context, schema⟩ ∈ nodes :=
  h.within (mem_walk context schema)

/-! ## Inside arrays and objects -/

/-- A walk from a schema that holds no other comes across this schema only. -/
theorem walk_leaf (context : Context) {schema : Schema} (h : schema.isLeaf = true) :
    walk context schema = .emit ⟨context, schema⟩ := by
  cases schema with
  | array items description => cases h
  | object node => cases h
  | primitive kind description => rw [walk]
  | enumeration values description => rw [walk]
  | reference pointer description => rw [walk]

theorem walk_array {items : Schema} {description : Option String}
    (h : (walk context (.array items description)).outcome = .ok ()) :
    ∃ inner, itemsContext context = .ok inner ∧ (walk inner items).outcome = .ok () ∧
      (walk context (.array items description)).items =
        ⟨context, .array items description⟩ :: (walk inner items).items := by
  rw [walk] at h ⊢
  obtain ⟨⟨⟩, -, h⟩ := Emission.bind_outcome.mp h
  obtain ⟨inner, hInner, h⟩ := Emission.bind_outcome.mp h
  refine ⟨inner, hInner, h, ?_⟩
  rw [Emission.bind_items _ rfl, Emission.bind_items _ hInner]
  rfl

theorem Covered.items {items : Schema} {description : Option String}
    (h : Covered nodes context (.array items description)) :
    ∃ inner, itemsContext context = .ok inner ∧ Covered nodes inner items := by
  obtain ⟨inner, hInner, hEnds, hItems⟩ := walk_array h.ends
  have hWithin := h.within
  rw [hItems] at hWithin
  exact ⟨inner, hInner, hEnds, fun node hNode => hWithin (List.mem_cons_of_mem _ hNode)⟩

/-- The keys that enclose the properties of an object. -/
def ownerContext (context : Context) (node : ObjectSchema) : Context :=
  match node.name with
  | some name => .text name :: context
  | none => context

theorem walkProperties_eq (owner : Context) (properties : List (Key × Schema)) :
    walkProperties owner properties =
      Emission.forAll properties fun property => walk (property.1 :: owner) property.2 := by
  induction properties with
  | nil => rw [walkProperties, Emission.forAll]
  | cons property rest ih => rw [walkProperties, Emission.forAll, ih]

/-- With a name of its own or a key for its name, an object is walked through property by property. -/
theorem walkObject_eq {node : ObjectSchema} (h : node.name = none → context ≠ []) :
    walkObject context node = Emission.forAll node.properties fun property =>
      walk (property.1 :: ownerContext context node) property.2 := by
  rw [← walkProperties_eq]
  obtain ⟨name, description, properties, required, additional⟩ := node
  cases name with
  | some name => rw [walkObject, ownerContext]
  | none =>
      cases context with
      | nil => exact absurd rfl (h rfl)
      | cons key keys => rw [walkObject, ownerContext]

/-- Without any name the walk through an object ends with a fault. -/
theorem named_of_walkObject {node : ObjectSchema} (h : (walkObject context node).outcome = .ok ()) :
    node.name = none → context ≠ [] := by
  rintro hName rfl
  obtain ⟨name, description, properties, required, additional⟩ := node
  cases hName
  rw [walkObject] at h
  cases h

/-- The nodes inside an object are those inside its properties, one property after another. -/
theorem walk_object {node : ObjectSchema}
    (h : (walk context (.object node)).outcome = .ok ()) :
    (∀ property ∈ node.properties,
      (walk (property.1 :: ownerContext context node) property.2).outcome = .ok ()) ∧
    (walk context (.object node)).items = ⟨context, .object node⟩ ::
      node.properties.flatMap fun property =>
        (walk (property.1 :: ownerContext context node) property.2).items := by
  rw [walk] at h ⊢
  obtain ⟨⟨⟩, -, hObject⟩ := Emission.bind_outcome.mp h
  have hEach := walkObject_eq (named_of_walkObject hObject)
  rw [hEach] at hObject
  refine ⟨Emission.forAll_ok.mp hObject, ?_⟩
  rw [Emission.bind_items _ rfl, hEach, Emission.items_forAll hObject]
  rfl

theorem mem_walk_object {node : ObjectSchema}
    (h : (walk context (.object node)).outcome = .ok ()) (n : Node) :
    n ∈ (walk context (.object node)).items ↔ n = ⟨context, .object node⟩ ∨
      ∃ property ∈ node.properties,
        n ∈ (walk (property.1 :: ownerContext context node) property.2).items := by
  rw [(walk_object h).2, List.mem_cons, List.mem_flatMap]

theorem Covered.property {node : ObjectSchema} {property : Key × Schema}
    (h : Covered nodes context (.object node)) (hProperty : property ∈ node.properties) :
    Covered nodes (property.1 :: ownerContext context node) property.2 := by
  refine ⟨(walk_object h.ends).1 property hProperty, fun n hn => h.within ?_⟩
  exact (mem_walk_object h.ends n).mpr (Or.inr ⟨property, hProperty, hn⟩)

/-! ## Every node -/

/-- What a walk comes across, it comes across with all nodes inside. -/
def WalkCovers (context : Context) (schema : Schema) : Prop :=
  (walk context schema).outcome = .ok () → ∀ n ∈ (walk context schema).items,
    Covered (walk context schema).items n.context n.schema

theorem walkCovers_leaf {schema : Schema}
    (h : (walk context schema).items = [⟨context, schema⟩]) : WalkCovers context schema := by
  intro hEnds n hn
  rw [h, List.mem_singleton] at hn
  subst hn
  exact covered_self hEnds

theorem walkCovers_array {items : Schema} {description : Option String}
    (h : ∀ inner, WalkCovers inner items) : WalkCovers context (.array items description) := by
  intro hEnds n hn
  obtain ⟨inner, -, hInner, hItems⟩ := walk_array hEnds
  rw [hItems] at hn
  rcases List.mem_cons.mp hn with rfl | hn
  · exact covered_self hEnds
  · rw [hItems]
    exact (h inner hInner n hn).mono (List.subset_cons_self _ _)

theorem walkCovers_object {node : ObjectSchema}
    (h : ∀ property ∈ node.properties,
      WalkCovers (property.1 :: ownerContext context node) property.2) :
    WalkCovers context (.object node) := by
  intro hEnds n hn
  have hMem := mem_walk_object hEnds
  rcases (hMem n).mp hn with rfl | ⟨property, hProperty, hn⟩
  · exact covered_self hEnds
  · refine (h property hProperty ((walk_object hEnds).1 property hProperty) n hn).mono ?_
    exact fun m hm => (hMem m).mpr (Or.inr ⟨property, hProperty, hm⟩)

theorem walkCovers (context : Context) (schema : Schema) : WalkCovers context schema := by
  induction schema using Schema.induction generalizing context with
  | leaf schema hLeaf => exact walkCovers_leaf (by rw [walk_leaf context hLeaf, Emission.items_emit])
  | array items description ih => exact walkCovers_array ih
  | object node ih => exact walkCovers_object fun property hProperty => ih property hProperty _

/-! ## The nodes of a contract -/

variable {contract : Contract}

theorem method_nodes_ok {method : Method} :
    method.nodes.outcome = .ok () ↔
      (∀ param ∈ method.params,
        (walk (paramContext method.name param.name) param.schema).outcome = .ok ()) ∧
      ∀ schema, method.result = some schema →
        (walk (resultContext method.name) schema).outcome = .ok () := by
  rw [Method.nodes, Emission.bind_outcome, ← Emission.forAll_ok]
  cases hResult : method.result with
  | none =>
      constructor
      · rintro ⟨⟨⟩, hParams, -⟩
        exact ⟨hParams, fun schema hSchema => by cases hSchema⟩
      · rintro ⟨hParams, -⟩
        exact ⟨(), hParams, rfl⟩
  | some schema =>
      constructor
      · rintro ⟨⟨⟩, hParams, hWalk⟩
        refine ⟨hParams, fun other hOther => ?_⟩
        cases hOther
        exact hWalk
      · rintro ⟨hParams, hWalk⟩
        exact ⟨(), hParams, hWalk schema rfl⟩

theorem method_nodes_items {method : Method} (h : method.nodes.outcome = .ok ()) :
    method.nodes.items =
      (method.params.flatMap fun param =>
        (walk (paramContext method.name param.name) param.schema).items) ++
      method.result.toList.flatMap fun schema => (walk (resultContext method.name) schema).items := by
  have hParams := Emission.forAll_ok.mpr (method_nodes_ok.mp h).1
  rw [Method.nodes, Emission.bind_items _ hParams, Emission.items_forAll hParams]
  cases method.result with
  | none => rfl
  | some schema => rw [Option.toList_some, List.flatMap_singleton]

theorem mem_method_nodes {method : Method} (h : method.nodes.outcome = .ok ()) (n : Node) :
    n ∈ method.nodes.items ↔
      (∃ param ∈ method.params,
        n ∈ (walk (paramContext method.name param.name) param.schema).items) ∨
      ∃ schema, method.result = some schema ∧
        n ∈ (walk (resultContext method.name) schema).items := by
  rw [method_nodes_items h, List.mem_append, List.mem_flatMap, List.mem_flatMap]
  simp only [Option.mem_toList]

theorem contract_nodes_ok :
    contract.nodes.outcome = .ok () ↔
      (∀ method ∈ contract.methods, method.nodes.outcome = .ok ()) ∧
      ∀ entry ∈ contract.schemas, (walk [entry.1] entry.2).outcome = .ok () := by
  rw [Contract.nodes, Emission.bind_outcome, ← Emission.forAll_ok, ← Emission.forAll_ok]
  constructor
  · rintro ⟨⟨⟩, hMethods, hSchemas⟩
    exact ⟨hMethods, hSchemas⟩
  · rintro ⟨hMethods, hSchemas⟩
    exact ⟨(), hMethods, hSchemas⟩

theorem contract_nodes_items (h : contract.nodes.outcome = .ok ()) :
    contract.nodes.items =
      (contract.methods.flatMap fun method => method.nodes.items) ++
      contract.schemas.flatMap fun entry => (walk [entry.1] entry.2).items := by
  obtain ⟨hMethods, hSchemas⟩ := contract_nodes_ok.mp h
  rw [Contract.nodes, Emission.bind_items _ (Emission.forAll_ok.mpr hMethods),
    Emission.items_forAll (Emission.forAll_ok.mpr hMethods),
    Emission.items_forAll (Emission.forAll_ok.mpr hSchemas)]

theorem mem_contract_nodes (h : contract.nodes.outcome = .ok ()) (n : Node) :
    n ∈ contract.nodes.items ↔
      (∃ method ∈ contract.methods, n ∈ method.nodes.items) ∨
      ∃ entry ∈ contract.schemas, n ∈ (walk [entry.1] entry.2).items := by
  rw [contract_nodes_items h, List.mem_append, List.mem_flatMap, List.mem_flatMap]

/-- The nodes of a contract hold the schemas of all parameters with the nodes inside. -/
theorem covered_param (h : contract.nodes.outcome = .ok ()) {method : Method}
    (hMethod : method ∈ contract.methods) {param : Param} (hParam : param ∈ method.params) :
    Covered contract.nodes.items (paramContext method.name param.name) param.schema := by
  have hNodes := (contract_nodes_ok.mp h).1 method hMethod
  refine ⟨(method_nodes_ok.mp hNodes).1 param hParam, fun n hn => ?_⟩
  refine (mem_contract_nodes h n).mpr (Or.inl ⟨method, hMethod, ?_⟩)
  exact (mem_method_nodes hNodes n).mpr (Or.inl ⟨param, hParam, hn⟩)

/-- The nodes of a contract hold the schemas of all results with the nodes inside. -/
theorem covered_result (h : contract.nodes.outcome = .ok ()) {method : Method}
    (hMethod : method ∈ contract.methods) {schema : Schema}
    (hResult : method.result = some schema) :
    Covered contract.nodes.items (resultContext method.name) schema := by
  have hNodes := (contract_nodes_ok.mp h).1 method hMethod
  refine ⟨(method_nodes_ok.mp hNodes).2 schema hResult, fun n hn => ?_⟩
  refine (mem_contract_nodes h n).mpr (Or.inl ⟨method, hMethod, ?_⟩)
  exact (mem_method_nodes hNodes n).mpr (Or.inr ⟨schema, hResult, hn⟩)

/-- The nodes of a contract hold all shared schemas with the nodes inside. -/
theorem covered_shared (h : contract.nodes.outcome = .ok ()) {entry : Key × Schema}
    (hEntry : entry ∈ contract.schemas) :
    Covered contract.nodes.items [entry.1] entry.2 :=
  ⟨(contract_nodes_ok.mp h).2 entry hEntry,
    fun n hn => (mem_contract_nodes h n).mpr (Or.inr ⟨entry, hEntry, hn⟩)⟩

/-- The nodes of a contract hold with each of them all nodes inside. -/
theorem covered_of_mem (h : contract.nodes.outcome = .ok ()) {n : Node}
    (hn : n ∈ contract.nodes.items) : Covered contract.nodes.items n.context n.schema := by
  rcases (mem_contract_nodes h n).mp hn with ⟨method, hMethod, hn⟩ | ⟨entry, hEntry, hn⟩
  · have hNodes := (contract_nodes_ok.mp h).1 method hMethod
    rcases (mem_method_nodes hNodes n).mp hn with ⟨param, hParam, hn⟩ | ⟨schema, hResult, hn⟩
    · have hRoot := covered_param h hMethod hParam
      exact (walkCovers _ _ hRoot.ends n hn).mono hRoot.within
    · have hRoot := covered_result h hMethod hResult
      exact (walkCovers _ _ hRoot.ends n hn).mono hRoot.within
  · have hRoot := covered_shared h hEntry
    exact (walkCovers _ _ hRoot.ends n hn).mono hRoot.within

/-! ## What all nodes inherit -/

/-- A property that a schema shares with the schemas inside it. -/
structure Inherited (P : Schema → Prop) : Prop where
  items : ∀ items description, P (.array items description) → P items
  property : ∀ node, P (.object node) → ∀ property ∈ node.properties, P property.2

variable {P : Schema → Prop}

/-- All nodes that a walk comes across have what its root hands down. -/
theorem walk_inherits (hP : Inherited P) (context : Context) (schema : Schema) :
    P schema → (walk context schema).outcome = .ok () →
      ∀ n ∈ (walk context schema).items, P n.schema := by
  induction schema using Schema.induction generalizing context with
  | leaf schema hLeaf =>
      intro hRoot _
      rw [walk_leaf context hLeaf, Emission.items_emit]
      exact List.forall_mem_singleton.mpr hRoot
  | array items description ih =>
      intro hRoot hEnds n hn
      obtain ⟨inner, -, hInner, hItems⟩ := walk_array hEnds
      rw [hItems] at hn
      rcases List.mem_cons.mp hn with rfl | hn
      · exact hRoot
      · exact ih inner (hP.items items description hRoot) hInner n hn
  | object node ih =>
      intro hRoot hEnds n hn
      rcases (mem_walk_object hEnds n).mp hn with rfl | ⟨property, hProperty, hn⟩
      · exact hRoot
      · exact ih property hProperty _ (hP.property node hRoot property hProperty)
          ((walk_object hEnds).1 property hProperty) n hn

/-- All nodes of a contract have what its schemas hand down. -/
theorem nodes_inherit (hP : Inherited P) (h : contract.EverySchema P)
    (hEnds : contract.nodes.outcome = .ok ()) :
    ∀ node ∈ contract.nodes.items, P node.schema := by
  obtain ⟨hMethods, hSchemas⟩ := contract_nodes_ok.mp hEnds
  intro node hNode
  rcases (mem_contract_nodes hEnds node).mp hNode with
    ⟨method, hMethod, hNode⟩ | ⟨entry, hEntry, hNode⟩
  · have hMethodEnds := hMethods method hMethod
    obtain ⟨hParams, hResult⟩ := method_nodes_ok.mp hMethodEnds
    rcases (mem_method_nodes hMethodEnds node).mp hNode with
      ⟨param, hParam, hNode⟩ | ⟨schema, hSome, hNode⟩
    · exact walk_inherits hP _ _ ((h.1 method hMethod).1 param hParam) (hParams param hParam)
        node hNode
    · exact walk_inherits hP _ _ ((h.1 method hMethod).2 schema hSome) (hResult schema hSome)
        node hNode
  · exact walk_inherits hP _ _ (h.2 entry hEntry) (hSchemas entry hEntry) node hNode

end CommBindings
