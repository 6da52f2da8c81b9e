import CommBindings.Proofs.Contract.ContractGrammar
import CommBindings.Proofs.Contract.Faults

set_option autoImplicit false

/-! # Faults name their document

A fault that ends the reading of a document names the document, and so does a fault that ends the
validation of a comm: where a reference is not resolved, it names all documents of the comm, and where an
object is not described, the one that holds the object. The name stands in brackets in front of the
message, once (`faults_named`).
-/

namespace CommBindings

/-! ## How messages begin -/

/-- Whether a text begins with a character other than a bracket. -/
def opensPlain (text : String) : Bool := text.toList.head?.any (· ≠ '[')

theorem opensPlain_append {first : String} (h : opensPlain first = true) (second : String) :
    opensPlain (first ++ second) = true := by
  rw [opensPlain] at h
  rw [opensPlain, String.toList_append]
  cases hFirst : first.toList with
  | nil =>
      rw [hFirst] at h
      cases h
  | cons c rest =>
      rw [hFirst] at h
      exact h

theorem opensPlain_message (rule : Rule) : opensPlain rule.message = true := by
  cases rule with
  | paramIsDescribed method param =>
      exact opensPlain_append (opensPlain_append (opensPlain_append (opensPlain_append (by decide) _) _) _) _
  | paramHasSchema method param =>
      exact opensPlain_append (opensPlain_append (opensPlain_append (opensPlain_append (by decide) _) _) _) _
  | methodIsDescribed method => exact opensPlain_append (opensPlain_append (by decide) _) _
  | paramIsUnique param => exact opensPlain_append (opensPlain_append (by decide) _) _
  | methodIsUnique method => exact opensPlain_append (opensPlain_append (by decide) _) _
  | _ => decide

theorem opensPlain_withField (field : Key) {message : String} (h : opensPlain message = true) :
    opensPlain (Fault.withField field message) = true := by
  unfold Fault.withField
  split
  · exact h
  · exact opensPlain_append (opensPlain_append (opensPlain_append (by decide) _) _) _

namespace Fault

theorem IsIn.opensPlain_detail {source : Option String} {fault : Fault} (h : fault.IsIn source) :
    opensPlain fault.detail = true := by
  rcases h.cases with ⟨rule, field, rfl⟩ | ⟨type, place, rfl⟩
  · exact opensPlain_withField field (opensPlain_message rule)
  · exact opensPlain_append (opensPlain_append (opensPlain_append (opensPlain_append (by decide) _) _) _) _

theorem IsIn.source_eq {source : Option String} {fault : Fault} (h : fault.IsIn source) :
    fault.source = source := by
  rcases h.cases with ⟨rule, field, rfl⟩ | ⟨type, place, rfl⟩
  · rfl
  · rfl

/-! ## Names of documents -/

/-- The fault is one of contracts and names documents: the name is not empty, and it stands in brackets in
front of a message that does not begin with a bracket itself. -/
structure Names (fault : Fault) (path : String) : Prop where
  isContractFault : fault.isContractFault = true
  known : path ≠ ""
  source : fault.source = some path
  message : ∃ detail, fault.message = "[" ++ path ++ "] " ++ detail ∧ opensPlain detail = true

theorem names_of_source {fault : Fault} {path : String} (hKind : fault.isContractFault = true)
    (hPath : path ≠ "") (hSource : fault.source = some path) (hDetail : opensPlain fault.detail = true) :
    fault.Names path where
  isContractFault := hKind
  known := hPath
  source := hSource
  message := by
    refine ⟨fault.detail, ?_, hDetail⟩
    rw [Fault.message, hSource, withSource, if_neg hPath]

theorem IsIn.names {source : String} {fault : Fault} (h : fault.IsIn (some source)) (hSource : source ≠ "") :
    fault.Names source :=
  names_of_source h.isContractFault hSource h.source_eq h.opensPlain_detail

/-- A fault that names no document names the one that it is found in. -/
theorem IsIn.names_inSource {source : String} {cause : Fault} (h : cause.IsIn none) (hSource : source ≠ "") :
    (cause.inSource source).Names source := by
  have hMessage : cause.message = cause.detail := by rw [Fault.message, h.source_eq, withSource]
  have hLocated : cause.inSource source = .located cause.detail source := by
    rw [Fault.inSource, h.isContractFault, h.source_eq, hMessage]
    simp [hSource]
  rw [hLocated]
  exact names_of_source rfl hSource rfl h.opensPlain_detail

end Fault

/-- The documents of contracts whose names are known. -/
theorem joinedSources_eq {contracts : List Contract} (hSome : contracts ≠ [])
    (h : ∀ contract ∈ contracts, contract.source ≠ "") :
    ", ".intercalate (contracts.map Contract.source) ≠ "" ∧
      joinedSources contracts = some (", ".intercalate (contracts.map Contract.source)) := by
  have hKnown : (contracts.map Contract.source).filter (fun source => source ≠ "") =
      contracts.map Contract.source := by
    refine List.filter_eq_self.mpr (List.forall_mem_map.mpr fun contract hContract => ?_)
    exact decide_eq_true (h contract hContract)
  have hJoined : ", ".intercalate (contracts.map Contract.source) ≠ "" := by
    obtain ⟨first, rest, rfl⟩ := List.exists_cons_of_ne_nil hSome
    have hFirst := h first List.mem_cons_self
    cases rest with
    | nil => exact hFirst
    | cons second others =>
        rw [List.map_cons, List.map_cons, String.intercalate_cons_cons]
        intro hEmpty
        exact hFirst (String.append_eq_empty_iff.mp (String.append_eq_empty_iff.mp hEmpty).1).1
  refine ⟨hJoined, ?_⟩
  unfold joinedSources
  rw [hKnown]
  exact if_neg hJoined

theorem unresolved_names {contracts : List Contract} (hSome : contracts ≠ [])
    (h : ∀ contract ∈ contracts, contract.source ≠ "") (pointer source : String) :
    ((Fault.unresolvedReference pointer (joinedSources contracts)).inSource source).Names
      (", ".intercalate (contracts.map Contract.source)) := by
  obtain ⟨hKnown, hJoined⟩ := joinedSources_eq hSome h
  rw [hJoined]
  -- a fault with a source keeps it
  exact Fault.names_of_source rfl hKnown rfl (opensPlain_append (by decide) _)

/-! ## Documents with names -/

/-- The contract was read from a document that has a name, texts for keys, and no integer that is too long
to be shown. -/
def Contract.IsReadByName (contract : Contract) : Prop :=
  ∃ direction source document, source ≠ "" ∧ (Value.mapping document none).isPlain = true ∧
    Contract.read direction source document = .ok contract

theorem Contract.IsReadByName.source_ne {contract : Contract} (h : contract.IsReadByName) :
    contract.source ≠ "" := by
  obtain ⟨direction, source, document, hSource, -, hRead⟩ := h
  obtain ⟨-, -, -, -, -, -, -, -, -, hSame, -⟩ := Contract.read_iff.mp hRead
  rwa [hSame]

theorem Contract.IsReadByName.hasTextKeys {contract : Contract} (h : contract.IsReadByName) :
    contract.HasTextKeys := by
  obtain ⟨direction, source, document, -, hPlain, hRead⟩ := h
  exact hasTextKeys_of_isLegible hRead (isLegible_of_isPlain hPlain rfl)

/-- A document with a name is read, or the fault names it. A comm of contracts from such documents is
valid, or its first node that does not pass is a reference, and the fault names all documents, or it is
an object, and the fault names the document that holds it. -/
theorem faults_named :
    (∀ direction source document, source ≠ "" → (Value.mapping document none).isPlain = true →
      ∀ fault, Contract.read direction source document = .error fault → fault.Names source) ∧
    ∀ comm : Comm, (∀ contract ∈ comm.contracts, contract.IsReadByName) →
      ∀ fault, validate comm = .error fault →
        ∃ contract node cause, comm.StopsAt comm.contracts contract node cause ∧
          ((∃ pointer description, node.schema = .reference pointer description ∧
              fault.Names (", ".intercalate (comm.contracts.map Contract.source))) ∨
            ∃ object, node.schema = .object object ∧ fault.Names contract.source) := by
  constructor
  · intro direction source document hSource hPlain fault hFault
    have hIn := readContract_failsIn direction source (isLegible_of_isPlain hPlain rfl) fault hFault
    exact hIn.names hSource
  · intro comm hRead fault hFault
    obtain ⟨contract, hContract, node, cause, hStops, hFails, rfl⟩ :=
      validate_error (fun contract hContract => (hRead contract hContract).hasTextKeys) fault hFault
    have hSources := fun contract hContract => (hRead contract hContract).source_ne
    refine ⟨contract, node, cause, hStops, ?_⟩
    cases hFails with
    | reference hSchema hCause =>
        rw [hCause]
        exact Or.inl ⟨_, _, hSchema, unresolved_names (List.ne_nil_of_mem hContract) hSources _ _⟩
    | object hSchema hCause =>
        exact Or.inr ⟨_, hSchema, hCause.names_inSource (hSources contract hContract)⟩

/-- A document with a shared reference that leads nowhere. -/
def lostDocument : Mapping :=
  [(.text "methods", .list [] none),
    (.text "components", .mapping
      [(.text "schemas", .mapping
        [(.text "item", .mapping [(.text "$ref", .text "#/nowhere")] none)] none)] none)]

/-- The contract in that document. -/
def lostContract : Contract where
  direction := .backend
  source := "item-backend-openrpc.json"
  methods := []
  schemas := [(.text "item", .reference "#/nowhere" none)]
  document := lostDocument

/-- A contract from a document without any method. -/
def quietContract : Contract where
  direction := .frontend
  source := "item-frontend-openrpc.json"
  methods := []
  schemas := []
  document := [(.text "methods", .list [] none)]

/-- The comm with both contracts. -/
def lostComm : Comm := ⟨"item", some lostContract, some quietContract, rfl⟩

theorem isReadByName_lost : ∀ contract ∈ lostComm.contracts, contract.IsReadByName := by
  have hReference : Schema.read (some "item-backend-openrpc.json") (.text "item")
      (.mapping [(.text "$ref", .text "#/nowhere")] none) = .ok (.reference "#/nowhere" none) := by
    rw [Schema.read]
    rfl
  have hLost : Contract.read .backend "item-backend-openrpc.json" lostDocument = .ok lostContract :=
    bind_eq_ok.mpr ⟨[], rfl, bind_eq_ok.mpr
      ⟨_, bind_eq_ok.mpr ⟨_, hReference, rfl⟩, rfl⟩⟩
  refine List.forall_mem_cons.mpr ⟨?_, List.forall_mem_singleton.mpr ?_⟩
  · exact ⟨.backend, _, lostDocument, by decide, by decide +kernel, hLost⟩
  · exact ⟨.frontend, quietContract.source, quietContract.document, by decide, by decide +kernel, rfl⟩

/-- A document without anything in it is named alone. A reference that leads nowhere is told with the names
of both documents, although only one of them holds it. -/
theorem named_lostReference :
    (Fault.violation .contractHasMethods .null (some "item-frontend-openrpc.json")).Names
        "item-frontend-openrpc.json" ∧
      ∃ fault, validate lostComm = .error fault ∧
        fault.Names "item-backend-openrpc.json, item-frontend-openrpc.json" := by
  refine ⟨faults_named.1 .frontend _ [] (by decide) (by decide +kernel) _ rfl, _, rfl, ?_⟩
  obtain ⟨contract, node, cause, hStops, ⟨pointer, description, -, hNames⟩ | ⟨object, -, hNames⟩⟩ :=
    faults_named.2 lostComm isReadByName_lost _ rfl
  · exact hNames
  · have hSources : ∀ contract ∈ lostComm.contracts, some contract.source ≠
        joinedSources lostComm.contracts := by
      decide +kernel
    exact absurd hNames.source.symm (hSources contract hStops.mem.1)

end CommBindings
