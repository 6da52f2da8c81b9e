import CommBindings.Contract.Validation
import CommBindings.Proofs.Contract.Contexts

set_option autoImplicit false

/-! # What validation makes sure of

A comm that passes validation can be walked through, and each of its nodes has passed the check for
it (`checked_of_validate`). So every schema inside, wherever it stands, resolves if it is a
reference in the end, and every object can be described.
-/

namespace CommBindings

/-- All nodes of the contracts can be come across, and each passes the check for it. -/
structure Comm.Checked (comm : Comm) : Prop where
  ends : ∀ contract ∈ comm.contracts, contract.nodes.outcome = .ok ()
  passes : ∀ contract ∈ comm.contracts, ∀ n ∈ contract.nodes.items,
    checkNode comm.contracts n = .ok ()

variable {comm : Comm}

theorem passes_of_validateNode {source : String} {seen : List FirstObject} {node : Node}
    {result : List FirstObject × List String}
    (h : validateNode comm source seen node = .ok result) :
    checkNode comm.contracts node = .ok () := by
  unfold validateNode at h
  split at h
  · cases h
  · next hCheck => exact hCheck

theorem passes_of_validateNodes {source : String} {seen : List FirstObject} {nodes : List Node}
    {result : List FirstObject × List String}
    (h : validateNodes comm source seen nodes = .ok result) :
    ∀ n ∈ nodes, checkNode comm.contracts n = .ok () := by
  induction nodes generalizing seen result with
  | nil => exact fun n hn => absurd hn List.not_mem_nil
  | cons node rest ih =>
      rw [validateNodes] at h
      obtain ⟨first, hFirst, h⟩ := bind_eq_ok.mp h
      obtain ⟨others, hOthers, -⟩ := bind_eq_ok.mp h
      exact List.forall_mem_cons.mpr ⟨passes_of_validateNode hFirst, ih hOthers⟩

theorem passes_of_validateContracts {seen : List FirstObject} {contracts : List Contract}
    {warnings : List String} (h : validateContracts comm seen contracts = .ok warnings) :
    ∀ contract ∈ contracts, contract.nodes.outcome = .ok () ∧
      ∀ n ∈ contract.nodes.items, checkNode comm.contracts n = .ok () := by
  induction contracts generalizing seen warnings with
  | nil => exact fun contract hContract => absurd hContract List.not_mem_nil
  | cons contract rest ih =>
      rw [validateContracts] at h
      obtain ⟨first, hFirst, h⟩ := bind_eq_ok.mp h
      obtain ⟨⟨⟩, hEnds, h⟩ := bind_eq_ok.mp h
      obtain ⟨others, hOthers, -⟩ := bind_eq_ok.mp h
      exact List.forall_mem_cons.mpr ⟨⟨hEnds, passes_of_validateNodes hFirst⟩, ih hOthers⟩

theorem checked_of_validate {warnings : List String} (h : validate comm = .ok warnings) :
    comm.Checked where
  ends := fun contract hContract => (passes_of_validateContracts h contract hContract).1
  passes := fun contract hContract => (passes_of_validateContracts h contract hContract).2

/-! ## Nodes that pass -/

variable {contracts : List Contract} {nodes : List Node} {context : Context}

theorem resolves_of_passes {pointer : String} {description : Option String}
    (h : checkNode contracts ⟨context, .reference pointer description⟩ = .ok ()) :
    ∃ name, resolveReference contracts pointer = .ok name := by
  obtain ⟨name, hName, -⟩ := map_eq_ok.mp h
  exact ⟨name, hName⟩

theorem described_of_passes {object : ObjectSchema}
    (h : checkNode contracts ⟨context, .object object⟩ = .ok ()) :
    ∃ description, describeObject context object = .ok description := by
  obtain ⟨description, hDescription, -⟩ := map_eq_ok.mp h
  exact ⟨description, hDescription⟩

/-- Where all nodes pass, a schema resolves if it is a reference in the end. -/
theorem Covered.resolves {context : Context} {schema : Schema} (h : Covered nodes context schema)
    (hPasses : ∀ n ∈ nodes, checkNode contracts n = .ok ()) : schema.Resolves contracts := by
  match schema with
  | .reference pointer description =>
    intro other hOther
    cases hOther
    exact resolves_of_passes (hPasses _ h.mem)
  | .array items description =>
    obtain ⟨inner, -, hItems⟩ := h.items
    exact hItems.resolves hPasses
  | .primitive _ _ => exact nofun
  | .object _ => exact nofun
  | .enumeration _ _ => exact nofun

end CommBindings
