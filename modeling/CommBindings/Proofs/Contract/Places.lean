import CommBindings.Proofs.Contract.Contexts
import CommBindings.Proofs.Contract.InlineNodes

set_option autoImplicit false

/-! # Places in a contract

Each schema of a contract has a place: it is the schema of a param or of a result, or a shared one, or
some steps lead from such a schema to it. The places are in the order of the document, and each comes
before those inside it. The traversal comes across the schemas at all places in this order, each in the
context that its place gives it (`nodes_complete`).
-/

namespace CommBindings

/-! ## Numbered parts -/

section

variable {α β γ : Type}

/-- What is made of the members of a list and their numbers, one after another. -/
def numberedParts (members : List α) (part : Nat → α → List β) : List β :=
  members.zipIdx.flatMap fun entry => part entry.2 entry.1

theorem mem_numberedParts {members : List α} {part : Nat → α → List β} {b : β} :
    b ∈ numberedParts members part ↔ ∃ index a, members[index]? = some a ∧ b ∈ part index a := by
  rw [numberedParts, List.mem_flatMap]
  constructor
  · rintro ⟨⟨a, index⟩, hEntry, hb⟩
    exact ⟨index, a, List.mem_zipIdx_iff_getElem?.mp hEntry, hb⟩
  · rintro ⟨index, a, ha, hb⟩
    exact ⟨(a, index), List.mem_zipIdx_iff_getElem?.mpr ha, hb⟩

/-- Parts are in order if each of them is, and all of a part is before what parts with higher numbers
hold. -/
theorem pairwise_numberedParts {R : β → β → Prop} {members : List α} {part : Nat → α → List β}
    (hEach : ∀ index, ∀ a ∈ members, (part index a).Pairwise R)
    (hLater : ∀ index later a a', index < later →
      ∀ b ∈ part index a, ∀ b' ∈ part later a', R b b') :
    (numberedParts members part).Pairwise R := by
  have hNumbers : (members.zipIdx.map Prod.snd).Pairwise (· < ·) := by
    rw [List.zipIdx_map_snd]
    exact List.pairwise_lt_range'
  refine List.pairwise_flatMap.mpr ⟨fun entry hEntry => ?_, ?_⟩
  · exact hEach _ _ (List.fst_mem_of_mem_zipIdx hEntry)
  · exact (List.pairwise_map.mp hNumbers).imp fun h => hLater _ _ _ _ h

theorem map_numberedParts (f : β → γ) (members : List α) (part : Nat → α → List β) :
    (numberedParts members part).map f = numberedParts members fun index a => (part index a).map f :=
  List.map_flatMap

theorem forall₂_flatMap {R : β → γ → Prop} {members : List α} {part : α → List β}
    {other : α → List γ} (h : ∀ a ∈ members, List.Forall₂ R (part a) (other a)) :
    List.Forall₂ R (members.flatMap part) (members.flatMap other) := by
  induction members with
  | nil => exact List.Forall₂.nil
  | cons a rest ih =>
      obtain ⟨hFirst, hRest⟩ := List.forall_mem_cons.mp h
      exact List.rel_append hFirst (ih hRest)

theorem forall₂_numberedParts {R : β → γ → Prop} {members : List α} {part : Nat → α → List β}
    {other : α → List γ}
    (h : ∀ index a, members[index]? = some a → List.Forall₂ R (part index a) (other a)) :
    List.Forall₂ R (numberedParts members part) (members.flatMap other) := by
  have hOther : members.flatMap other = members.zipIdx.flatMap fun entry => other entry.1 := by
    rw [← List.flatMap_map Prod.fst other, List.zipIdx_map_fst]
  rw [hOther]
  exact forall₂_flatMap fun entry hEntry => h _ _ (List.mem_zipIdx_iff_getElem?.mp hEntry)

end

/-! ## Places -/

/-- A step from a schema to one right inside it: to the items of an array, or to the property of an object
with a number. -/
inductive SchemaStep where
  | items
  | property (index : Nat)
  deriving Repr, DecidableEq

/-- Where a schema is that lies in no other. Methods, params and shared schemas are told by their
numbers. -/
inductive SchemaRoot where
  | param (method index : Nat)
  | result (method : Nat)
  | shared (index : Nat)
  deriving Repr, DecidableEq

/-- A place in a contract: where to begin, and the steps from there. -/
structure SchemaPlace where
  root : SchemaRoot
  steps : List SchemaStep
  deriving Repr, DecidableEq

/-- The schema right inside a schema to which a step leads. -/
def Schema.child? : Schema → SchemaStep → Option Schema
  | .array items _, .items => some items
  | .object node, .property index => node.properties[index]?.map Prod.snd
  | _, _ => none

/-- The schema inside a schema to which some steps lead. -/
def Schema.inside? (schema : Schema) : List SchemaStep → Option Schema
  | [] => some schema
  | step :: rest => (schema.child? step).bind fun child => child.inside? rest

/-- The schema with which a contract begins at a root. -/
def Contract.rootSchema? (contract : Contract) : SchemaRoot → Option Schema
  | .param method index =>
    contract.methods[method]?.bind fun m => m.params[index]?.map Param.schema
  | .result method => contract.methods[method]?.bind Method.result
  | .shared index => contract.schemas[index]?.map Prod.snd

/-- The schema at a place of a contract, if the contract has the place. -/
def Contract.schemaAt? (contract : Contract) (place : SchemaPlace) : Option Schema :=
  (contract.rootSchema? place.root).bind fun schema => schema.inside? place.steps

namespace SchemaPlace

/-- The place to which some steps lead from a place. -/
def follow (place : SchemaPlace) (steps : List SchemaStep) : SchemaPlace :=
  ⟨place.root, place.steps ++ steps⟩

theorem follow_nil (place : SchemaPlace) : place.follow [] = place := by
  rw [follow, List.append_nil]

theorem follow_follow (place : SchemaPlace) (steps others : List SchemaStep) :
    (place.follow steps).follow others = place.follow (steps ++ others) := by
  simp only [follow, List.append_assoc]

theorem follow_inj {place other : SchemaPlace} {step step' : SchemaStep} :
    place.follow [step] = other.follow [step'] ↔ place = other ∧ step = step' := by
  obtain ⟨root, steps⟩ := place
  obtain ⟨root', steps'⟩ := other
  simp [follow, and_assoc]

theorem follow_ne_root {root : SchemaRoot} {place : SchemaPlace} {step : SchemaStep} :
    place.follow [step] ≠ ⟨root, []⟩ := by
  simp [follow]

theorem map_follow (place : SchemaPlace) (step : SchemaStep) (paths : List (List SchemaStep)) :
    (paths.map (step :: ·)).map place.follow = paths.map (place.follow [step]).follow := by
  rw [List.map_map]
  exact List.map_congr_left fun rest _ => (place.follow_follow [step] rest).symm

end SchemaPlace

theorem Schema.inside?_append (schema : Schema) (steps others : List SchemaStep) :
    schema.inside? (steps ++ others) = (schema.inside? steps).bind (·.inside? others) := by
  induction steps generalizing schema with
  | nil => rfl
  | cons step rest ih =>
      rw [List.cons_append, inside?, inside?, Option.bind_assoc]
      exact congrArg (Option.bind _) (funext ih)

variable {contract : Contract} {place : SchemaPlace}

theorem Contract.schemaAt?_follow {schema : Schema} (h : contract.schemaAt? place = some schema)
    (steps : List SchemaStep) : contract.schemaAt? (place.follow steps) = schema.inside? steps := by
  obtain ⟨root, hRoot, hInside⟩ := Option.bind_eq_some_iff.mp h
  rw [schemaAt?, SchemaPlace.follow, hRoot, Option.bind_some, Schema.inside?_append, hInside,
    Option.bind_some]

/-! ## Order -/

/-- The number of a step among those that lead to other schemas right inside the same schema. -/
def SchemaStep.number : SchemaStep → Nat
  | items => 0
  | property index => index

/-- The numbers that tell where a root is: methods are before shared schemas, and the params of a method
before its result. -/
def SchemaRoot.numbers : SchemaRoot → List Nat
  | param method index => [0, method, 0, index]
  | result method => [0, method, 1]
  | shared index => [1, index]

/-- The numbers that tell where a place is. -/
def SchemaPlace.numbers (place : SchemaPlace) : List Nat :=
  place.root.numbers ++ place.steps.map SchemaStep.number

/-- A place is before another in the order of the document if its numbers are smaller at the first
difference. It is before the places inside it, whose numbers go on where its numbers end. -/
def SchemaPlace.Before (place other : SchemaPlace) : Prop := place.numbers < other.numbers

instance (place other : SchemaPlace) : Decidable (place.Before other) :=
  inferInstanceAs (Decidable (place.numbers < other.numbers))

/-! ## All places -/

mutual

/-- The steps that lead to a schema itself and to those inside it. -/
def Schema.paths : Schema → List (List SchemaStep)
  | .array items _ => [] :: items.paths.map (SchemaStep.items :: ·)
  | .object node => [] :: node.paths
  | .primitive _ _ | .enumeration _ _ | .reference _ _ => [[]]

/-- The steps that lead to the schemas inside an object. -/
def ObjectSchema.paths : ObjectSchema → List (List SchemaStep)
  | ⟨_, _, properties, _, _⟩ => propertyPaths 0 properties

/-- The steps that lead to properties, where the first of them has the given number. -/
def propertyPaths (first : Nat) : List (Key × Schema) → List (List SchemaStep)
  | [] => []
  | (_, schema) :: rest =>
    schema.paths.map (SchemaStep.property first :: ·) ++ propertyPaths (first + 1) rest

end

/-- The places in a method. -/
def Method.places (number : Nat) (method : Method) : List SchemaPlace :=
  numberedParts method.params (fun index param =>
      param.schema.paths.map (SchemaPlace.mk (.param number index))) ++
    method.result.toList.flatMap fun schema => schema.paths.map (SchemaPlace.mk (.result number))

/-- All places of a contract. -/
def Contract.places (contract : Contract) : List SchemaPlace :=
  numberedParts contract.methods Method.places ++
    numberedParts contract.schemas fun index entry => entry.2.paths.map (SchemaPlace.mk (.shared index))

theorem propertyPaths_eq (first : Nat) (properties : List (Key × Schema)) :
    propertyPaths first properties = (properties.zipIdx first).flatMap fun entry =>
      entry.1.2.paths.map (SchemaStep.property entry.2 :: ·) := by
  induction properties generalizing first with
  | nil => rw [propertyPaths]; rfl
  | cons property rest ih => rw [propertyPaths, ih, List.zipIdx_cons, List.flatMap_cons]

theorem paths_leaf {schema : Schema} (h : schema.isLeaf = true) : schema.paths = [[]] := by
  cases schema with
  | array items description => cases h
  | object node => cases h
  | primitive kind description => rw [Schema.paths]
  | enumeration values description => rw [Schema.paths]
  | reference pointer description => rw [Schema.paths]

theorem paths_object (node : ObjectSchema) :
    (Schema.object node).paths = [] :: numberedParts node.properties fun index property =>
      property.2.paths.map (SchemaStep.property index :: ·) := by
  obtain ⟨name, description, properties, required, additional⟩ := node
  rw [Schema.paths, ObjectSchema.paths, propertyPaths_eq]
  rfl

theorem nil_mem_paths (schema : Schema) : [] ∈ schema.paths := by
  cases schema with
  | array items description =>
      rw [Schema.paths]
      exact List.mem_cons_self
  | object node =>
      rw [Schema.paths]
      exact List.mem_cons_self
  | _ =>
      rw [paths_leaf rfl]
      exact List.mem_cons_self

/-- After the first step, the steps are those of the schema to which it leads. -/
theorem cons_mem_paths {schema : Schema} {step : SchemaStep} {rest : List SchemaStep} :
    step :: rest ∈ schema.paths ↔ ∃ child, schema.child? step = some child ∧ rest ∈ child.paths := by
  cases schema with
  | array items description =>
      rw [Schema.paths]
      cases step with
      | items => simp [Schema.child?]
      | property index => simp [Schema.child?]
  | object node =>
      rw [paths_object, List.mem_cons, mem_numberedParts]
      cases step with
      | items => simp [Schema.child?]
      | property index =>
          simp only [Schema.child?, Option.map_eq_some_iff, List.mem_map, List.cons.injEq,
            SchemaStep.property.injEq]
          constructor
          · rintro (hNone | ⟨_, property, hProperty, _, hRest, rfl, rfl⟩)
            · cases hNone
            · exact ⟨_, ⟨property, hProperty, rfl⟩, hRest⟩
          · rintro ⟨_, ⟨property, hProperty, rfl⟩, hRest⟩
            exact Or.inr ⟨_, property, hProperty, _, hRest, rfl, rfl⟩
  | _ =>
      rw [paths_leaf rfl]
      cases step <;> simp [Schema.child?]

/-- The steps are those that lead to a schema. -/
theorem mem_paths {schema : Schema} {steps : List SchemaStep} :
    steps ∈ schema.paths ↔ (schema.inside? steps).isSome = true := by
  induction steps generalizing schema with
  | nil => exact ⟨fun _ => rfl, fun _ => nil_mem_paths schema⟩
  | cons step rest ih =>
      rw [cons_mem_paths, Schema.inside?]
      cases schema.child? step with
      | none => simp
      | some child => simp [ih]

theorem mem_map_place {root other : SchemaRoot} {steps : List SchemaStep} {paths : List (List SchemaStep)} :
    SchemaPlace.mk other steps ∈ paths.map (SchemaPlace.mk root) ↔ other = root ∧ steps ∈ paths := by
  simp [eq_comm, and_comm]

theorem mem_method_places {number : Nat} {method : Method} {root : SchemaRoot} {steps : List SchemaStep} :
    SchemaPlace.mk root steps ∈ method.places number ↔
      (∃ index param, method.params[index]? = some param ∧ root = .param number index ∧
        steps ∈ param.schema.paths) ∨
      ∃ schema, method.result = some schema ∧ root = .result number ∧ steps ∈ schema.paths := by
  rw [Method.places, List.mem_append, mem_numberedParts, List.mem_flatMap]
  simp only [mem_map_place, Option.mem_toList]

/-- The places are those of the schemas in the contract. -/
theorem mem_places {contract : Contract} {place : SchemaPlace} :
    place ∈ contract.places ↔ (contract.schemaAt? place).isSome = true := by
  obtain ⟨root, steps⟩ := place
  have hPlaces : SchemaPlace.mk root steps ∈ contract.places ↔
      ∃ schema, contract.rootSchema? root = some schema ∧ steps ∈ schema.paths := by
    rw [Contract.places, List.mem_append, mem_numberedParts, mem_numberedParts]
    simp only [mem_method_places, mem_map_place]
    constructor
    · rintro (⟨number, method, hMethod, hPlace⟩ | ⟨index, entry, hEntry, rfl, hSteps⟩)
      · rcases hPlace with ⟨index, param, hParam, rfl, hSteps⟩ | ⟨schema, hResult, rfl, hSteps⟩
        · exact ⟨_, by rw [Contract.rootSchema?, hMethod, Option.bind_some, hParam]; rfl, hSteps⟩
        · exact ⟨_, by rw [Contract.rootSchema?, hMethod, Option.bind_some, hResult], hSteps⟩
      · exact ⟨_, by rw [Contract.rootSchema?, hEntry]; rfl, hSteps⟩
    · rintro ⟨schema, hRoot, hSteps⟩
      cases root with
      | param number index =>
          obtain ⟨method, hMethod, hParams⟩ := Option.bind_eq_some_iff.mp hRoot
          obtain ⟨param, hParam, rfl⟩ := Option.map_eq_some_iff.mp hParams
          exact Or.inl ⟨number, method, hMethod, Or.inl ⟨index, param, hParam, rfl, hSteps⟩⟩
      | result number =>
          obtain ⟨method, hMethod, hResult⟩ := Option.bind_eq_some_iff.mp hRoot
          exact Or.inl ⟨number, method, hMethod, Or.inr ⟨schema, hResult, rfl, hSteps⟩⟩
      | shared index =>
          obtain ⟨entry, hEntry, rfl⟩ := Option.map_eq_some_iff.mp hRoot
          exact Or.inr ⟨index, entry, hEntry, rfl, hSteps⟩
  rw [hPlaces, Contract.schemaAt?]
  cases contract.rootSchema? root with
  | none => simp
  | some schema => simp [mem_paths]

/-! ## The places in order -/

/-- Numbers are in the order of the first two that differ. -/
theorem numbers_lt (numbers : List Nat) {first second : Nat} (h : first < second)
    {rest others : List Nat} : numbers ++ first :: rest < numbers ++ second :: others :=
  List.append_left_lt (List.cons_lt_cons_iff.mpr (Or.inl h))

theorem paths_sorted (schema : Schema) :
    schema.paths.Pairwise fun steps others => steps.map SchemaStep.number < others.map SchemaStep.number := by
  induction schema using Schema.induction with
  | leaf schema hLeaf =>
      rw [paths_leaf hLeaf]
      exact List.pairwise_singleton _ _
  | array items description ih =>
      rw [Schema.paths, List.pairwise_cons]
      refine ⟨List.forall_mem_map.mpr fun rest _ => List.nil_lt_cons _ _, ?_⟩
      exact List.pairwise_map.mpr (ih.imp fun h => List.cons_lt_cons_self.mpr h)
  | object node ih =>
      rw [paths_object, List.pairwise_cons]
      refine ⟨fun steps hSteps => ?_, pairwise_numberedParts (fun index property hProperty => ?_) ?_⟩
      · obtain ⟨index, property, -, hSteps⟩ := mem_numberedParts.mp hSteps
        obtain ⟨rest, -, rfl⟩ := List.mem_map.mp hSteps
        exact List.nil_lt_cons _ _
      · exact List.pairwise_map.mpr ((ih property hProperty).imp fun h => List.cons_lt_cons_self.mpr h)
      · intro index later property other hLess
        refine List.forall_mem_map.mpr fun rest _ => List.forall_mem_map.mpr fun others _ => ?_
        exact numbers_lt [] hLess

theorem map_place_sorted (root : SchemaRoot) (schema : Schema) :
    (schema.paths.map (SchemaPlace.mk root)).Pairwise SchemaPlace.Before :=
  List.pairwise_map.mpr ((paths_sorted schema).imp fun h => List.append_left_lt h)

/-- The numbers of the places in a method begin with that of the method. -/
theorem numbers_method {number : Nat} {method : Method} {place : SchemaPlace}
    (h : place ∈ method.places number) : ∃ rest, place.numbers = 0 :: number :: rest := by
  obtain ⟨root, steps⟩ := place
  rcases mem_method_places.mp h with ⟨index, param, -, rfl, -⟩ | ⟨schema, -, rfl, -⟩
  · exact ⟨_, rfl⟩
  · exact ⟨_, rfl⟩

theorem method_places_sorted (number : Nat) (method : Method) :
    (method.places number).Pairwise SchemaPlace.Before := by
  rw [Method.places, List.pairwise_append]
  refine ⟨pairwise_numberedParts (fun index param _ => map_place_sorted _ _) ?_, ?_, ?_⟩
  · intro index later param other hLess
    refine List.forall_mem_map.mpr fun steps _ => List.forall_mem_map.mpr fun others _ => ?_
    -- only the numbers of the params differ
    exact numbers_lt [0, number, 0] hLess
  · cases method.result with
    | none => exact List.Pairwise.nil
    | some schema =>
        rw [Option.toList_some, List.flatMap_singleton]
        exact map_place_sorted _ _
  · intro place hPlace other hOther
    obtain ⟨index, param, -, hPlace⟩ := mem_numberedParts.mp hPlace
    obtain ⟨steps, -, rfl⟩ := List.mem_map.mp hPlace
    obtain ⟨schema, -, hOther⟩ := List.mem_flatMap.mp hOther
    obtain ⟨others, -, rfl⟩ := List.mem_map.mp hOther
    exact numbers_lt [0, number] Nat.zero_lt_one

theorem places_sorted (contract : Contract) : contract.places.Pairwise SchemaPlace.Before := by
  rw [Contract.places, List.pairwise_append]
  refine ⟨pairwise_numberedParts (fun index method _ => method_places_sorted _ _) ?_,
    pairwise_numberedParts (fun index entry _ => map_place_sorted _ _) ?_, ?_⟩
  · intro index later method other hLess place hPlace place' hPlace'
    obtain ⟨rest, hNumbers⟩ := numbers_method hPlace
    obtain ⟨rest', hNumbers'⟩ := numbers_method hPlace'
    rw [SchemaPlace.Before, hNumbers, hNumbers']
    exact numbers_lt [0] hLess
  · intro index later entry other hLess
    refine List.forall_mem_map.mpr fun steps _ => List.forall_mem_map.mpr fun others _ => ?_
    exact numbers_lt [1] hLess
  · intro place hPlace other hOther
    obtain ⟨number, method, -, hPlace⟩ := mem_numberedParts.mp hPlace
    obtain ⟨rest, hNumbers⟩ := numbers_method hPlace
    obtain ⟨index, entry, -, hOther⟩ := mem_numberedParts.mp hOther
    obtain ⟨others, -, rfl⟩ := List.mem_map.mp hOther
    rw [SchemaPlace.Before, hNumbers]
    exact numbers_lt [] Nat.zero_lt_one

/-! ## Contexts -/

/-- The keys that enclose the schema with which a contract begins at a root. -/
def Contract.rootContext? (contract : Contract) : SchemaRoot → Option Context
  | .param method index =>
    contract.methods[method]?.bind fun m =>
      m.params[index]?.map fun param => [.text param.name, .text m.name]
  | .result method => contract.methods[method]?.map fun m => [.text (m.name ++ "_result")]
  | .shared index => contract.schemas[index]?.map fun entry => [entry.1]

/-- The keys that enclose the schema at a place of the contract. A property is enclosed by its key, then
the own name of its owner if there is one, and then all that encloses the owner. The items of an array
are enclosed as the array is, but if this is by a single key, one for the items stands in its place. -/
inductive Contract.HasContext (contract : Contract) : SchemaPlace → Context → Prop
  | root {root : SchemaRoot} {context : Context} (hRoot : contract.rootContext? root = some context) :
      HasContext contract ⟨root, []⟩ context
  | loneItems {place : SchemaPlace} {key : Key} {shown : String} {items : Schema}
      {description : Option String}
      (hArray : contract.schemaAt? place = some (.array items description))
      (hContext : HasContext contract place [key]) (hShown : key.display? = some shown) :
      HasContext contract (place.follow [.items]) [.text (shown ++ "_item")]
  | items {place : SchemaPlace} {key owner : Key} {keys : Context} {items : Schema}
      {description : Option String}
      (hArray : contract.schemaAt? place = some (.array items description))
      (hContext : HasContext contract place (key :: owner :: keys)) :
      HasContext contract (place.follow [.items]) (key :: owner :: keys)
  | namedProperty {place : SchemaPlace} {context : Context} {node : ObjectSchema} {name : String}
      {index : Nat} {key : Key} {schema : Schema}
      (hObject : contract.schemaAt? place = some (.object node)) (hName : node.name = some name)
      (hProperty : node.properties[index]? = some (key, schema))
      (hContext : HasContext contract place context) :
      HasContext contract (place.follow [.property index]) (key :: .text name :: context)
  | property {place : SchemaPlace} {context : Context} {node : ObjectSchema} {index : Nat} {key : Key}
      {schema : Schema}
      (hObject : contract.schemaAt? place = some (.object node)) (hName : node.name = none)
      (hProperty : node.properties[index]? = some (key, schema))
      (hContext : HasContext contract place context) :
      HasContext contract (place.follow [.property index]) (key :: context)

/-- The node has the schema at the place, and the context that the place gives it. -/
structure Contract.NodeAt (contract : Contract) (place : SchemaPlace) (node : Node) : Prop where
  schema : contract.schemaAt? place = some node.schema
  context : contract.HasContext place node.context

theorem Contract.HasContext.ne_nil {context : Context} (h : contract.HasContext place context) :
    context ≠ [] := by
  cases h with
  | @root root context hRoot =>
      cases root with
      | param method index =>
          obtain ⟨m, -, hParam⟩ := Option.bind_eq_some_iff.mp hRoot
          obtain ⟨param, -, rfl⟩ := Option.map_eq_some_iff.mp hParam
          exact List.cons_ne_nil _ _
      | result method =>
          obtain ⟨m, -, rfl⟩ := Option.map_eq_some_iff.mp hRoot
          exact List.cons_ne_nil _ _
      | shared index =>
          obtain ⟨entry, -, rfl⟩ := Option.map_eq_some_iff.mp hRoot
          exact List.cons_ne_nil _ _
  | loneItems | items | namedProperty | property => exact List.cons_ne_nil _ _

/-- What encloses a root is told by the contract. -/
theorem Contract.HasContext.of_root {root : SchemaRoot} {context : Context}
    (h : contract.HasContext ⟨root, []⟩ context) : contract.rootContext? root = some context := by
  generalize hPlace : SchemaPlace.mk root [] = place at h
  cases h with
  | root hRoot =>
      cases hPlace
      exact hRoot
  | loneItems | items | namedProperty | property => exact absurd hPlace.symm SchemaPlace.follow_ne_root

/-- What encloses the items of an array is told by what encloses the array. -/
theorem Contract.HasContext.of_items {context : Context}
    (h : contract.HasContext (place.follow [.items]) context) :
    (∃ key shown, contract.HasContext place [key] ∧ key.display? = some shown ∧
      context = [.text (shown ++ "_item")]) ∨
    ∃ key owner keys, contract.HasContext place (key :: owner :: keys) ∧
      context = key :: owner :: keys := by
  generalize hPlace : place.follow [.items] = inner at h
  cases h with
  | root => exact absurd hPlace SchemaPlace.follow_ne_root
  | loneItems hArray hContext hShown =>
      obtain ⟨rfl, -⟩ := SchemaPlace.follow_inj.mp hPlace
      exact Or.inl ⟨_, _, hContext, hShown, rfl⟩
  | items hArray hContext =>
      obtain ⟨rfl, -⟩ := SchemaPlace.follow_inj.mp hPlace
      exact Or.inr ⟨_, _, _, hContext, rfl⟩
  | namedProperty | property => cases (SchemaPlace.follow_inj.mp hPlace).2

/-- What encloses a property is told by what encloses its owner. -/
theorem Contract.HasContext.of_property {context : Context} {index : Nat}
    (h : contract.HasContext (place.follow [.property index]) context) :
    ∃ node key schema inner, contract.schemaAt? place = some (.object node) ∧
      node.properties[index]? = some (key, schema) ∧ contract.HasContext place inner ∧
      context = key :: ownerContext inner node := by
  generalize hPlace : place.follow [.property index] = inner at h
  cases h with
  | root => exact absurd hPlace SchemaPlace.follow_ne_root
  | loneItems | items => cases (SchemaPlace.follow_inj.mp hPlace).2
  | namedProperty hObject hName hProperty hContext =>
      obtain ⟨rfl, hStep⟩ := SchemaPlace.follow_inj.mp hPlace
      cases hStep
      exact ⟨_, _, _, _, hObject, hProperty, hContext, by rw [ownerContext, hName]⟩
  | property hObject hName hProperty hContext =>
      obtain ⟨rfl, hStep⟩ := SchemaPlace.follow_inj.mp hPlace
      cases hStep
      exact ⟨_, _, _, _, hObject, hProperty, hContext, by rw [ownerContext, hName]⟩

/-- A place has one context. -/
theorem Contract.HasContext.unique {context other : Context} (h : contract.HasContext place context)
    (hOther : contract.HasContext place other) : context = other := by
  induction h generalizing other with
  | root hRoot => exact Option.some.inj (hRoot.symm.trans hOther.of_root)
  | loneItems hArray hContext hShown ih =>
      rcases hOther.of_items with ⟨key, shown, hLone, hShown', rfl⟩ | ⟨key, owner, keys, hMany, rfl⟩
      · cases ih hLone
        cases hShown.symm.trans hShown'
        rfl
      · cases ih hMany
  | items hArray hContext ih =>
      rcases hOther.of_items with ⟨key, shown, hLone, -, rfl⟩ | ⟨key, owner, keys, hMany, rfl⟩
      · cases ih hLone
      · exact ih hMany
  | namedProperty hObject hName hProperty hContext ih =>
      obtain ⟨node, key, schema, inner, hObject', hProperty', hInner, rfl⟩ := hOther.of_property
      cases hObject.symm.trans hObject'
      cases hProperty.symm.trans hProperty'
      rw [ownerContext, hName, ih hInner]
  | property hObject hName hProperty hContext ih =>
      obtain ⟨node, key, schema, inner, hObject', hProperty', hInner, rfl⟩ := hOther.of_property
      cases hObject.symm.trans hObject'
      cases hProperty.symm.trans hProperty'
      rw [ownerContext, hName, ih hInner]

theorem Contract.nodeAt_root {root : SchemaRoot} {schema : Schema} {context : Context}
    (hSchema : contract.rootSchema? root = some schema)
    (hContext : contract.rootContext? root = some context) :
    contract.NodeAt ⟨root, []⟩ ⟨context, schema⟩ where
  schema := by
    rw [schemaAt?, hSchema]
    rfl
  context := .root hContext

/-- The items of an array at a place are at the place behind it. -/
theorem Contract.NodeAt.items {context inner : Context} {items : Schema} {description : Option String}
    (h : contract.NodeAt place ⟨context, .array items description⟩)
    (hInner : itemsContext context = .ok inner) :
    contract.NodeAt (place.follow [.items]) ⟨inner, items⟩ where
  schema := by
    rw [Contract.schemaAt?_follow h.schema]
    rfl
  context := by
    have hContext := h.context
    unfold itemsContext at hInner
    split at hInner
    · next key =>
      obtain ⟨shown, hShown, hInner⟩ := bind_eq_ok.mp hInner
      cases hInner
      exact .loneItems h.schema hContext (label_eq_ok.mp hShown)
    · next hMany =>
      cases hInner
      cases context with
      | nil => exact absurd rfl hContext.ne_nil
      | cons key keys =>
          cases keys with
          | nil => exact absurd rfl (hMany key)
          | cons owner keys => exact .items h.schema hContext

/-- The properties of an object at a place are at the places behind it. -/
theorem Contract.NodeAt.property {context : Context} {node : ObjectSchema} {index : Nat}
    {property : Key × Schema} (h : contract.NodeAt place ⟨context, .object node⟩)
    (hProperty : node.properties[index]? = some property) :
    contract.NodeAt (place.follow [.property index])
      ⟨property.1 :: ownerContext context node, property.2⟩ where
  schema := by
    rw [Contract.schemaAt?_follow h.schema, Schema.inside?, Schema.child?, hProperty]
    rfl
  context := by
    cases hName : node.name with
    | some name =>
        rw [ownerContext, hName]
        exact .namedProperty h.schema hName hProperty h.context
    | none =>
        rw [ownerContext, hName]
        exact .property h.schema hName hProperty h.context

theorem objectKey_total {context : Context} (node : ObjectSchema) (h : context ≠ []) :
    ∃ key, objectKey context node = .ok key := by
  obtain ⟨key, keys, rfl⟩ := List.exists_cons_of_ne_nil h
  unfold objectKey
  cases node.name with
  | some name => exact ⟨.text name, rfl⟩
  | none => exact ⟨key, rfl⟩

/-! ## The traversal -/

/-- A walk from the node at a place comes across the nodes at the places inside it, in order. -/
theorem walk_places {schema : Schema} {context : Context} {place : SchemaPlace}
    (hNode : contract.NodeAt place ⟨context, schema⟩) (h : (walk context schema).outcome = .ok ()) :
    List.Forall₂ contract.NodeAt (schema.paths.map place.follow) (walk context schema).items := by
  induction schema using Schema.induction generalizing context place with
  | leaf schema hLeaf =>
      rw [paths_leaf hLeaf, walk_leaf context hLeaf, List.map_singleton, SchemaPlace.follow_nil]
      exact List.Forall₂.cons hNode List.Forall₂.nil
  | array items description ih =>
      obtain ⟨inner, hInner, hEnds, hItems⟩ := walk_array h
      have hInside := ih (hNode.items hInner) hEnds
      rw [Schema.paths, hItems, List.map_cons, SchemaPlace.follow_nil, SchemaPlace.map_follow]
      exact List.Forall₂.cons hNode hInside
  | object node ih =>
      obtain ⟨hEnds, hItems⟩ := walk_object h
      rw [paths_object, hItems, List.map_cons, SchemaPlace.follow_nil, map_numberedParts]
      refine List.Forall₂.cons hNode (forall₂_numberedParts fun index property hProperty => ?_)
      have hMem := List.mem_of_getElem? hProperty
      rw [SchemaPlace.map_follow]
      exact ih property hMem (hNode.property hProperty) (hEnds property hMem)

theorem method_places {number : Nat} {method : Method}
    (hMethod : contract.methods[number]? = some method) (h : method.nodes.outcome = .ok ()) :
    List.Forall₂ contract.NodeAt (method.places number) method.nodes.items := by
  obtain ⟨hParams, hResult⟩ := method_nodes_ok.mp h
  rw [Method.places, method_nodes_items h]
  refine List.rel_append (forall₂_numberedParts fun index param hParam => ?_)
    (forall₂_flatMap fun schema hSchema => ?_)
  · have hRoot : contract.NodeAt ⟨.param number index, []⟩
        ⟨paramContext method.name param.name, param.schema⟩ := by
      refine Contract.nodeAt_root ?_ ?_
      · rw [Contract.rootSchema?, hMethod, Option.bind_some, hParam, Option.map_some]
      · rw [Contract.rootContext?, hMethod, Option.bind_some, hParam, Option.map_some]
        rfl
    exact walk_places hRoot (hParams param (List.mem_of_getElem? hParam))
  · have hSome : method.result = some schema := Option.mem_toList.mp hSchema
    have hRoot : contract.NodeAt ⟨.result number, []⟩ ⟨resultContext method.name, schema⟩ := by
      refine Contract.nodeAt_root ?_ ?_
      · rw [Contract.rootSchema?, hMethod, Option.bind_some, hSome]
      · rw [Contract.rootContext?, hMethod, Option.map_some]
        rfl
    exact walk_places hRoot (hResult schema hSome)

theorem contract_places (h : contract.nodes.outcome = .ok ()) :
    List.Forall₂ contract.NodeAt contract.places contract.nodes.items := by
  obtain ⟨hMethods, hSchemas⟩ := contract_nodes_ok.mp h
  rw [Contract.places, contract_nodes_items h]
  refine List.rel_append (forall₂_numberedParts fun number method hMethod => ?_)
    (forall₂_numberedParts fun index entry hEntry => ?_)
  · exact method_places hMethod (hMethods method (List.mem_of_getElem? hMethod))
  · have hRoot : contract.NodeAt ⟨.shared index, []⟩ ⟨[entry.1], entry.2⟩ := by
      refine Contract.nodeAt_root ?_ ?_
      · rw [Contract.rootSchema?, hEntry, Option.map_some]
      · rw [Contract.rootContext?, hEntry, Option.map_some]
    exact walk_places hRoot (hSchemas entry (List.mem_of_getElem? hEntry))

/-- The places of a contract are in the order of the document, each once, and they are those where the
contract has a schema. All contexts of the nodes of the contract have a key, so that each object is named
by one. If the traversal ends well, its nodes are the schemas at the places, one after another, each in
the context that its place gives it. With texts for keys the traversal ends well, and each of its contexts
gives a name to an object and to an enumeration. -/
theorem nodes_complete (contract : Contract) :
    contract.places.Pairwise SchemaPlace.Before ∧
      (∀ place, place ∈ contract.places ↔ (contract.schemaAt? place).isSome = true) ∧
      (∀ place context other, contract.HasContext place context →
        contract.HasContext place other → context = other) ∧
      (∀ node ∈ contract.nodes.items, node.context ≠ [] ∧
        ∀ object, ∃ key, objectKey node.context object = .ok key) ∧
      (contract.nodes.outcome = .ok () →
        List.Forall₂ contract.NodeAt contract.places contract.nodes.items) ∧
      (contract.HasTextKeys → contract.nodes.outcome = .ok () ∧
        ∀ node ∈ contract.nodes.items,
          (∀ object, ∃ name, objectName node.context object = .ok name) ∧
            ∃ name, enumName node.context = .ok name) := by
  refine ⟨places_sorted contract, fun place => mem_places, fun _ _ _ h hOther => h.unique hOther,
    fun node hNode => ?_, contract_places, fun hKeys => ?_⟩
  · have hContext := (isWhole_contract contract node hNode).1
    exact ⟨hContext, fun object => objectKey_total object hContext⟩
  · obtain ⟨hEnds, hNamed⟩ := contract_named hKeys
    exact ⟨hEnds, fun node hNode =>
      ⟨fun object => objectName_total object (hNamed node hNode), enumName_total (hNamed node hNode)⟩⟩

/-- An object with an array of marks, which have no name of their own. -/
def figureSchema : Schema :=
  let mark : ObjectSchema := ⟨none, some "A mark", [(.text "x", .primitive .number none)], ["x"], false⟩
  .object ⟨some "figure", none, [(.text "marks", .array (.object mark) none)], [], false⟩

/-- A contract with a method that takes rows of figures and gives back a list of states. -/
def drawingContract : Contract where
  direction := .backend
  source := "drawing-backend-openrpc.json"
  methods := [
    { name := "draw", summary := "Draws rows of figures", description := none,
      params := [⟨"rows", "The rows", .array (.array figureSchema none) none, true⟩],
      result := some (.array (.enumeration ["drawn", "failed"] none) none) }]
  schemas := [(.text "label", .primitive .string none)]
  document := []

/-- In rows of figures the context grows with each key and name on the way to a mark, but not with the
arrays. The items of a result have a key of their own. -/
theorem drawing_complete :
    drawingContract.HasTextKeys ∧
      List.Forall₂ drawingContract.NodeAt drawingContract.places drawingContract.nodes.items ∧
      (∀ node ∈ drawingContract.nodes.items, ∃ name, enumName node.context = .ok name) ∧
      drawingContract.nodes.items.map Node.context = [
        [.text "rows", .text "draw"],
        [.text "rows", .text "draw"],
        [.text "rows", .text "draw"],
        [.text "marks", .text "figure", .text "rows", .text "draw"],
        [.text "marks", .text "figure", .text "rows", .text "draw"],
        [.text "x", .text "marks", .text "figure", .text "rows", .text "draw"],
        [.text "draw_result"],
        [.text "draw_result_item"],
        [.text "label"]] := by
  have hKeys : drawingContract.HasTextKeys := by
    refine ⟨List.forall_mem_singleton.mpr ⟨List.forall_mem_singleton.mpr rfl, ?_⟩, rfl⟩
    rintro schema ⟨⟩
    rfl
  obtain ⟨-, -, -, -, hPlaces, hNamed⟩ := nodes_complete drawingContract
  obtain ⟨hEnds, hNames⟩ := hNamed hKeys
  exact ⟨hKeys, hPlaces hEnds, fun node hNode => (hNames node hNode).2, rfl⟩

end CommBindings
