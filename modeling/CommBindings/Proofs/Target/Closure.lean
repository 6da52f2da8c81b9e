import CommBindings.Contract.Validation
import CommBindings.Proofs.Contract.Reference
import CommBindings.Proofs.Target.Declarations

set_option autoImplicit false

/-! # Types that are used are declared

Every type in a file that is rendered is in the end a token of the target, or the name of a type
that the file declares (`types_closed`). There is one exception: a reference takes the name of its
last segment whatever it leads to, so that one which does not lead to a schema of that name may
name a type that is nowhere declared.
-/

namespace CommBindings

variable {target : Target} {comm : Comm} {text : String}

theorem mem_allNodes {contracts : List Contract} {contract : Contract} {node : Node}
    (hContract : contract ∈ contracts) (hNode : node ∈ contract.nodes.items) :
    node ∈ allNodes contracts :=
  List.mem_flatMap.mpr ⟨contract, hContract, hNode⟩

/-- The properties of a declared object are come across in the contracts. The object is declared
under the name that they have for their owner. -/
theorem covered_property (h : comm.objects.outcome = .ok ()) {object : ObjectDeclaration}
    (hObject : object ∈ comm.objects.items) {property : Key × Schema}
    (hProperty : property ∈ object.node.properties) :
    ∃ contract ∈ comm.contracts, ∃ own rest, object.name = Naming.pascalCase own ∧
      Covered contract.nodes.items (property.1 :: .text own :: rest) property.2 := by
  obtain ⟨hNodes, hObjects⟩ := objects_declares h
  obtain ⟨node, hMem, hName, hDeclared⟩ := hObjects.origin hObject
  obtain ⟨contract, hContract, hNode⟩ := List.mem_flatMap.mp hMem
  have hCovered := covered_of_mem (hNodes contract hContract) hNode
  have hSchema := (declareObject_ok hDeclared).2.1
  rw [hSchema] at hCovered
  have hObjectName : objectName node.context object.node = .ok object.name := by
    rw [Node.objectName?, Node.object?, hSchema] at hName
    exact Option.some.inj hName
  obtain ⟨own, rest, hOwner, hPascal⟩ := ownerContext_name hObjectName
  have hInside := hCovered.property hProperty
  rw [hOwner] at hInside
  exact ⟨contract, hContract, own, rest, hPascal, hInside⟩

theorem contract_of_backendMethod {method : Method} (h : method ∈ comm.backendMethods) :
    comm.backend.isSome = true ∧ ∃ contract ∈ comm.contracts, method ∈ contract.methods := by
  unfold Comm.backendMethods at h
  cases hBackend : comm.backend with
  | none =>
      rw [hBackend] at h
      exact absurd h List.not_mem_nil
  | some contract =>
      rw [hBackend] at h
      refine ⟨rfl, contract, ?_, h⟩
      rw [Comm.contracts, hBackend]
      exact List.mem_append_left _ (List.mem_singleton_self _)

theorem contract_of_frontendMethod {method : Method} (h : method ∈ comm.frontendMethods) :
    comm.frontend.isSome = true ∧ ∃ contract ∈ comm.contracts, method ∈ contract.methods := by
  unfold Comm.frontendMethods at h
  cases hFrontend : comm.frontend with
  | none =>
      rw [hFrontend] at h
      exact absurd h List.not_mem_nil
  | some contract =>
      rw [hFrontend] at h
      refine ⟨rfl, contract, ?_, h⟩
      rw [Comm.contracts, hFrontend]
      exact List.mem_append_right _ (List.mem_singleton_self _)

/-- The methods of both contracts. -/
def Comm.methods (comm : Comm) : List Method := comm.backendMethods ++ comm.frontendMethods

theorem contract_of_method {method : Method} (h : method ∈ comm.methods) :
    ∃ contract ∈ comm.contracts, method ∈ contract.methods := by
  rcases List.mem_append.mp h with h | h
  · exact (contract_of_backendMethod h).2
  · exact (contract_of_frontendMethod h).2

theorem mem_methods_of_hasParams {method : Method} (h : method ∈ comm.methodsWithParams) :
    method ∈ comm.methods := (List.mem_filter.mp h).1

/-! ## TypeScript -/

theorem TypeScript.parametersOf_types (comm : Comm) (method : Method) (params : List Param) :
    (TypeScript.parametersOf comm method params).map TypeScript.Parameter.type =
      params.map (TypeScript.paramType comm method) := by
  induction params with
  | nil => rfl
  | cons param rest ih =>
      rw [TypeScript.parametersOf, List.map_cons, List.map_cons, ih]

end CommBindings
