import CommBindings.Proofs.Contract.Validation

set_option autoImplicit false

/-! # Faults of contracts

Where a document is legible (`Contract.isLegible`), so that the keys of properties and of shared
schemas are texts and messages can show what they have to, whatever is wrong with it ends the reading
with a fault in this document (`readContract_failsIn`). Where all keys of schemas are texts, validation
ends with the first node that does not pass the check for it (`validate_error`). Only what is not
legible leads to faults of other kinds: no name can be formed from a key that is no text, and no message
from an integer that is too long.
-/

namespace CommBindings

/-- If the computation fails, the fault is one of the contract. -/
abbrev FailsContract {α : Type} (x : Except Fault α) : Prop :=
  FailsWith (fun fault => fault.isContractFault = true) x

/-- The fault is a rule that is broken in the document, or a type in it that has no mapping. -/
def Fault.IsIn (source : Option String) : Fault → Prop
  | violation _ _ other | unmappedType _ _ other => other = source
  | _ => False

/-- If the computation fails, the fault is in the document. -/
abbrev FailsIn {α : Type} (source : Option String) (x : Except Fault α) : Prop :=
  FailsWith (Fault.IsIn source) x

theorem Fault.IsIn.cases {source : Option String} {fault : Fault} (h : fault.IsIn source) :
    (∃ rule field, fault = .violation rule field source) ∨
      ∃ type place, fault = .unmappedType type place source := by
  unfold Fault.IsIn at h
  split at h
  · subst h
    exact Or.inl ⟨_, _, rfl⟩
  · subst h
    exact Or.inr ⟨_, _, rfl⟩
  · exact h.elim

theorem Fault.IsIn.isContractFault {source : Option String} {fault : Fault} (h : fault.IsIn source) :
    fault.isContractFault = true := by
  rcases h.cases with ⟨rule, field, rfl⟩ | ⟨type, place, rfl⟩
  · rfl
  · rfl

theorem FailsIn.failsContract {α : Type} {source : Option String} {x : Except Fault α}
    (h : FailsIn source x) : FailsContract x :=
  failsWith_mono h fun _ => Fault.IsIn.isContractFault

theorem violate_fails {α : Type} (rule : Rule) {field : Key} (source : Option String)
    (h : field.display?.isSome = true) : FailsIn source (violate rule field source : Except Fault α) := by
  unfold violate
  rw [Option.isNone_eq_false_iff.mpr h, Bool.and_false, if_neg Bool.false_ne_true]
  exact failsWith_error rfl

theorem unless_fails {α : Type} {broken : Prop} [Decidable broken] (rule : Rule) {field : Key}
    (source : Option String) {result : Except Fault α} (h : field.display?.isSome = true)
    (hResult : FailsIn source result) :
    FailsIn source (if broken then violate rule field source else result) := by
  split
  · exact violate_fails rule source h
  · exact hResult

theorem display_of_isText {key : Key} (h : key.isText = true) : key.display?.isSome = true := by
  cases key with
  | text name => rfl
  | _ => cases h

/-! ## Reading -/

theorem label_of_display {value : Value} (h : value.display?.isSome = true) :
    ∃ shown, value.label = .ok shown := by
  obtain ⟨shown, hShown⟩ := Option.isSome_iff_exists.mp h
  exact ⟨shown, by rw [Value.label, hShown]⟩

namespace Schema

/-- Whether a schema can be read from the mapping, or what is wrong with it can be told: names of
properties are texts, and a type and names of required properties can be shown. -/
def isLegible (m : Mapping) : Bool :=
  hasTextNames m && (m.get? "type").all (fun value => value.display?.isSome) &&
    (optionalItems? (m.get? "required")).all fun items => items.all fun item => item.display?.isSome

theorem isLegible_iff {m : Mapping} : isLegible m = true ↔
    hasTextNames m = true ∧
      (∀ value, m.get? "type" = some value → value.display?.isSome = true) ∧
      ∀ items, optionalItems? (m.get? "required") = some items →
        ∀ item ∈ items, item.display?.isSome = true := by
  simp only [isLegible, Bool.and_eq_true, Option.all_eq_true, List.all_eq_true, and_assoc]

/-- A mapping with plain values is legible. -/
theorem isLegible_of_inside {m : Mapping}
    (h : Value.everyEntry Scalar.isShort Mapping.hasTextKeys m = true) : isLegible m = true :=
  isLegible_iff.mpr ⟨hasTextNames_of_inside h,
    fun _ hType => Value.display_of_isPlain (Value.every_of_get? h hType),
    fun _ hRequired item hItem => Value.display_of_isPlain
      (Value.every_of_optionalItems? (fun _ hv => Value.every_of_get? h hv) hRequired item hItem)⟩

theorem readValues_fails {location : Key} (source : Option String) (values : Value)
    (h : location.isText = true) :
    FailsIn source (readValues location source values) := by
  unfold readValues
  split
  · split
    · exact failsWith_ok _
    · exact violate_fails _ _ (display_of_isText h)
  · exact violate_fails _ _ (display_of_isText h)

theorem readKind_fails {location : Key} (source : Option String) {type : Option Value}
    (h : location.isText = true)
    (hType : ∀ value, type = some value → value.display?.isSome = true) :
    FailsIn source (readKind location source type) := by
  unfold readKind
  split
  · exact violate_fails _ _ (display_of_isText h)
  · exact violate_fails _ _ (display_of_isText h)
  · next value _ =>
    split
    · exact failsWith_ok _
    · obtain ⟨shown, hShown⟩ := label_of_display (hType value rfl)
      obtain ⟨place, hPlace⟩ := label_of_isText h
      rw [hShown, hPlace]
      exact failsWith_error rfl

end Schema

/-- Whether all mappings inside the value are legible as schemas. -/
def Value.isLegible (value : Value) : Bool := value.every (fun _ => true) Schema.isLegible

namespace Schema

mutual

/-- A legible value is read, or breaks a rule. -/
theorem read_fails {source : Option String} {location : Key} {raw : Value}
    (h : location.isText = true) (hLegible : raw.isLegible = true) :
    FailsIn source (read source location raw) := by
  have hShown := display_of_isText h
  have hOwner : ∀ name : Option String, Scalar.isText (match name with
      | some text => .text text
      | none => location) = true := by
    intro name
    cases name with
    | some text => rfl
    | none => exact h
  rw [read]
  split
  · exact violate_fails _ _ hShown
  · next m hEntries =>
    obtain ⟨hOwn, hEvery⟩ := Value.every_of_entries? hLegible hEntries
    obtain ⟨hNames, hType, hShownItems⟩ := isLegible_iff.mp hOwn
    have hInside : ∀ {key value}, m.get? key = some value → value.isLegible = true :=
      fun hGet => Value.every_of_get? hEvery hGet
    have hSmaller := sizeOf_entries?_lt hEntries
    simp only
    split
    · -- an array
      split
      · exact violate_fails _ _ hShown
      · next items hItems =>
        have := sizeOf_get?_lt hItems
        refine failsWith_bind (failsWith_of_total (label_of_isText h)) fun place _ => ?_
        exact failsWith_bind (read_fails rfl (hInside hItems)) fun part _ => failsWith_ok _
    · split
      · -- a reference
        split
        · split
          · exact violate_fails _ _ hShown
          · exact failsWith_ok _
        · exact violate_fails _ _ hShown
      · split
        · -- an enumeration
          exact failsWith_bind (readValues_fails _ _ h) fun texts _ => failsWith_ok _
        · split
          · -- an object
            split
            · exact violate_fails _ _ hShown
            · next name _ =>
              split
              · exact violate_fails _ _ hShown
              · next entries hProperties =>
                have hKeys := (Option.all_eq_true _ _).mp hNames entries hProperties
                have hParts := Value.every_of_optionalEntries? (fun v hv => hInside hv) hProperties
                have hRead : ∀ {owner : Key}, owner.isText = true →
                    FailsIn source (readProperties source owner entries) := by
                  intro owner hText
                  rcases sizeOf_optionalEntries?_le hProperties with rfl | ⟨v, hv, hLess⟩
                  · rw [readProperties]
                    exact failsWith_ok _
                  · have := sizeOf_get?_lt hv
                    exact readProperties_fails hText hKeys hParts
                refine failsWith_bind (hRead (hOwner name)) fun properties _ => ?_
                split
                · exact violate_fails _ _ hShown
                · next required hRequired =>
                  refine unless_fails _ _ (display_of_isText (hOwner name)) ?_
                  refine failsWith_bind (failsWith_mapM fun item hItem => ?_)
                    fun texts _ => failsWith_ok _
                  exact failsWith_of_total (label_of_display (hShownItems _ hRequired item hItem))
          · -- a scalar type
            exact failsWith_bind (readKind_fails _ h hType) fun kind _ => failsWith_ok _
termination_by sizeOf raw

theorem readProperties_fails {source : Option String} {owner : Key} {raw : List (Key × Value)}
    (h : owner.isText = true) (hKeys : Mapping.hasTextKeys raw = true)
    (hLegible : Value.everyEntry (fun _ => true) isLegible raw = true) :
    FailsIn source (readProperties source owner raw) := by
  match raw with
  | [] =>
    rw [readProperties]
    exact failsWith_ok _
  | (key, value) :: rest =>
    rw [Mapping.hasTextKeys, List.all_cons, Bool.and_eq_true] at hKeys
    rw [Value.everyEntry, Bool.and_eq_true] at hLegible
    rw [readProperties]
    refine failsWith_bind (failsWith_of_total (label_of_isText h)) fun first _ => ?_
    refine failsWith_bind (failsWith_of_total (label_of_isText hKeys.1)) fun second _ => ?_
    split
    · exact violate_fails _ _ rfl
    · refine failsWith_bind (read_fails rfl hLegible.1) fun schema _ => ?_
      exact failsWith_bind (readProperties_fails h hKeys.2 hLegible.2) fun others _ => failsWith_ok _
termination_by sizeOf raw

end

end Schema

theorem readParam_fails (source method : String) {raw : Value} (h : raw.isLegible = true) :
    FailsIn (some source) (Param.read source method raw) := by
  unfold Param.read
  split
  · exact violate_fails _ _ rfl
  · next m hEntries =>
    split
    · exact violate_fails _ _ rfl
    · split
      · exact violate_fails _ _ rfl
      · split
        · exact violate_fails _ _ rfl
        · next rawSchema hSchema =>
          have hLegible := Value.every_of_get? (Value.every_of_entries? h hEntries).2 hSchema
          split
          · exact violate_fails _ _ rfl
          · exact failsWith_bind (Schema.read_fails rfl hLegible) fun schema _ => failsWith_ok _

theorem readResult_fails (source method : String) {raw : Option Value}
    (h : ∀ value, raw = some value → value.isLegible = true) :
    FailsIn (some source) (Method.readResult source method raw) := by
  unfold Method.readResult
  split
  · exact failsWith_ok _
  · next rawSchema hSchema =>
    obtain ⟨m, hEntries, hSchema⟩ := Option.bind_eq_some_iff.mp hSchema
    obtain ⟨value, hValue, hEntries⟩ := Option.bind_eq_some_iff.mp hEntries
    have hInside := (Value.every_of_entries? (h value hValue) hEntries).2
    exact failsWith_map _ (Schema.read_fails rfl (Value.every_of_get? hInside hSchema))

theorem readMethod_fails (source : String) {raw : Value} (h : raw.isLegible = true) :
    FailsIn (some source) (Method.read source raw) := by
  unfold Method.read
  split
  · exact violate_fails _ _ rfl
  · next m hEntries =>
    have hInside := (Value.every_of_entries? h hEntries).2
    split
    · exact violate_fails _ _ rfl
    · split
      · exact violate_fails _ _ rfl
      · split
        · exact violate_fails _ _ rfl
        · next rawParams hParams =>
          have hItems := Value.every_of_optionalItems?
            (fun v hv => Value.every_of_get? hInside hv) hParams
          refine failsWith_bind (failsWith_mapM fun rawParam hRaw =>
            readParam_fails source _ (hItems rawParam hRaw)) fun params _ => ?_
          split
          · exact violate_fails _ _ rfl
          · refine failsWith_bind (readResult_fails source _ fun value hValue => ?_)
              fun result _ => failsWith_ok _
            exact Value.every_of_get? hInside hValue

theorem readSchemas_fails (source : String) {entries : List (Key × Value)}
    (hKeys : Mapping.hasTextKeys entries = true)
    (h : Value.everyEntry (fun _ => true) Schema.isLegible entries = true) :
    FailsIn (some source) (Contract.readSchemas source entries) := by
  induction entries with
  | nil => exact failsWith_ok _
  | cons entry rest ih =>
      rw [Mapping.hasTextKeys, List.all_cons, Bool.and_eq_true] at hKeys
      rw [Value.everyEntry, Bool.and_eq_true] at h
      rw [Contract.readSchemas]
      refine failsWith_bind (Schema.read_fails hKeys.1 h.1) fun schema _ => ?_
      exact failsWith_bind (ih hKeys.2 h.2) fun others _ => failsWith_ok _

/-- Whether the parts of a document from which a contract is read are legible: all mappings in them
are, and the keys of the shared schemas are texts. -/
def Contract.isLegible (document : Mapping) : Bool := everyPart Schema.isLegible document

/-- A contract is read from a legible document, or the document breaks a rule. -/
theorem readContract_failsIn (direction : Direction) (source : String) {document : Mapping}
    (h : Contract.isLegible document = true) :
    FailsIn (some source) (Contract.read direction source document) := by
  unfold Contract.read
  split
  · exact violate_fails _ _ rfl
  · next raws hRaws =>
    obtain ⟨value, hValue, hItems⟩ := Option.bind_eq_some_iff.mp hRaws
    have hMethods := Value.every_of_items? (every_of_methods h hValue) hItems
    refine failsWith_bind
      (failsWith_mapM fun raw hRaw => readMethod_fails source (hMethods raw hRaw)) fun methods _ => ?_
    split
    · exact violate_fails _ _ rfl
    · split
      · exact failsWith_ok _
      · next entries mark hEntries =>
        obtain ⟨hKeys, hInside⟩ := every_of_sharedEntries h hEntries rfl
        exact failsWith_bind (readSchemas_fails source hKeys hInside) fun schemas _ => failsWith_ok _
      · exact violate_fails _ _ rfl

/-- A contract that is read from a legible document has texts for keys. -/
theorem hasTextKeys_of_isLegible {direction : Direction} {source : String} {document : Mapping}
    {contract : Contract} (h : Contract.read direction source document = .ok contract)
    (hLegible : Contract.isLegible document = true) : contract.HasTextKeys :=
  hasTextKeys_of_parts h
    (everyPart_mono (fun _ hOwn => (Schema.isLegible_iff.mp hOwn).1) hLegible)

/-- A document with plain values is legible. -/
theorem isLegible_of_isPlain {value : Value} {document : Mapping} (h : value.isPlain = true)
    (hEntries : value.entries? = some document) : Contract.isLegible document = true :=
  everyPart_of_every (fun _ hTexts => hTexts) (fun _ _ => Schema.isLegible_of_inside)
    (Value.every_of_entries? h hEntries).2

/-! ## Validation -/

theorem describeObject_fails {context : Context} (node : ObjectSchema) (h : IsNamed context) :
    FailsIn none (describeObject context node) := by
  obtain ⟨key, keys, rfl, hKey, hKeys⟩ := h.cases
  unfold describeObject
  split
  · exact failsWith_ok _
  · next _ owner _ _ hContext =>
    cases hContext
    refine failsWith_bind (failsWith_of_total (typeName_of_isText hKey)) fun name _ => ?_
    have hOwner := hKeys owner List.mem_cons_self
    exact failsWith_bind (failsWith_of_total (typeName_of_isText hOwner))
      fun other _ => failsWith_ok _
  · cases node.name with
    | some own => exact violate_fails _ _ rfl
    | none => exact violate_fails _ _ (display_of_isText hKey)

theorem resolveReference_fails (contracts : List Contract) (pointer : String) :
    FailsWith (· = .unresolvedReference pointer (joinedSources contracts))
      (resolveReference contracts pointer) := by
  unfold resolveReference
  split
  · exact failsWith_ok _
  · exact failsWith_error rfl

/-- The fault that a node does not pass with: a reference is not resolved in the documents of all
contracts, or an object cannot be described, and then the document is not known yet. -/
inductive Node.FailsBy (contracts : List Contract) (node : Node) (fault : Fault) : Prop
  | reference {pointer : String} {description : Option String}
      (isReference : node.schema = .reference pointer description)
      (unresolved : fault = .unresolvedReference pointer (joinedSources contracts))
  | object {object : ObjectSchema} (isObject : node.schema = .object object)
      (broken : fault.IsIn none)

theorem checkNode_fails (contracts : List Contract) {node : Node} (h : IsNamed node.context) :
    FailsWith (node.FailsBy contracts) (checkNode contracts node) := by
  unfold checkNode
  split
  · next pointer description hSchema =>
    refine failsWith_map _ (failsWith_mono (resolveReference_fails contracts pointer) ?_)
    exact fun _ => .reference hSchema
  · next object hSchema =>
    refine failsWith_map _ (failsWith_mono (describeObject_fails object h) ?_)
    exact fun _ => .object hSchema
  · exact failsWith_ok _

theorem Node.FailsBy.isContractFault {contracts : List Contract} {node : Node} {fault : Fault}
    (h : node.FailsBy contracts fault) : fault.isContractFault = true := by
  cases h with
  | reference _ hFault =>
      rw [hFault]
      rfl
  | object _ hFault => exact hFault.isContractFault

theorem inSource_isContractFault {fault : Fault} (source : String)
    (h : fault.isContractFault = true) : (fault.inSource source).isContractFault = true := by
  unfold Fault.inSource
  split
  · rfl
  · exact h

variable {comm : Comm}

/-- The first of some nodes that does not pass the check for it, and the fault that it has. -/
def Comm.FailsFirst (comm : Comm) (nodes : List Node) (node : Node) (fault : Fault) : Prop :=
  ∃ front rest, nodes = front ++ node :: rest ∧ (∀ n ∈ front, checkNode comm.contracts n = .ok ()) ∧
    checkNode comm.contracts node = .error fault

/-- The first node of some contracts that does not pass the check for it, the contract that holds it, and
the fault that it has. -/
def Comm.StopsAt (comm : Comm) (contracts : List Contract) (contract : Contract) (node : Node)
    (fault : Fault) : Prop :=
  ∃ before after, contracts = before ++ contract :: after ∧
    (∀ other ∈ before, ∀ n ∈ other.nodes.items, checkNode comm.contracts n = .ok ()) ∧
    comm.FailsFirst contract.nodes.items node fault

theorem Comm.StopsAt.mem {contracts : List Contract} {contract : Contract} {node : Node} {fault : Fault}
    (h : comm.StopsAt contracts contract node fault) :
    contract ∈ contracts ∧ node ∈ contract.nodes.items ∧
      checkNode comm.contracts node = .error fault := by
  obtain ⟨before, after, rfl, -, front, rest, hNodes, -, hCheck⟩ := h
  rw [hNodes]
  exact ⟨List.mem_append_right _ List.mem_cons_self, List.mem_append_right _ List.mem_cons_self, hCheck⟩

theorem validateNode_error (source : String) (seen : List FirstObject) {node : Node}
    (h : IsNamed node.context) :
    FailsWith (fun fault => ∃ cause, checkNode comm.contracts node = .error cause ∧
      fault = cause.inSource source) (validateNode comm source seen node) := by
  unfold validateNode
  split
  · next cause hCheck => exact failsWith_error ⟨cause, hCheck, rfl⟩
  · split
    · exact failsWith_ok _
    · next object _ =>
      refine failsWith_bind (failsWith_of_total (objectName_total object h)) fun name _ => ?_
      split
      · exact failsWith_ok _
      · split <;> exact failsWith_ok _

theorem validateNodes_error (source : String) (seen : List FirstObject) {nodes : List Node}
    (h : ∀ n ∈ nodes, IsNamed n.context) :
    FailsWith (fun fault => ∃ node cause, comm.FailsFirst nodes node cause ∧
      fault = cause.inSource source) (validateNodes comm source seen nodes) := by
  induction nodes generalizing seen with
  | nil => exact failsWith_ok _
  | cons node rest ih =>
      obtain ⟨hFirst, hRest⟩ := List.forall_mem_cons.mp h
      rw [validateNodes]
      refine failsWith_bind (failsWith_mono (validateNode_error source seen hFirst) ?_)
        fun first hOk => failsWith_bind (failsWith_mono (ih _ hRest) ?_) fun others _ => failsWith_ok _
      · rintro fault ⟨cause, hCheck, hFault⟩
        exact ⟨node, cause, ⟨[], rest, rfl, List.forall_mem_nil _, hCheck⟩, hFault⟩
      · rintro fault ⟨later, cause, ⟨front, others, rfl, hFront, hCheck⟩, hFault⟩
        refine ⟨later, cause, ⟨node :: front, others, rfl, ?_, hCheck⟩, hFault⟩
        exact List.forall_mem_cons.mpr ⟨passes_of_validateNode hOk, hFront⟩

theorem validateContracts_error (seen : List FirstObject) {contracts : List Contract}
    (h : ∀ contract ∈ contracts, contract.HasTextKeys) :
    FailsWith (fun fault => ∃ contract node cause, comm.StopsAt contracts contract node cause ∧
      fault = cause.inSource contract.source) (validateContracts comm seen contracts) := by
  induction contracts generalizing seen with
  | nil => exact failsWith_ok _
  | cons contract rest ih =>
      obtain ⟨hFirst, hRest⟩ := List.forall_mem_cons.mp h
      obtain ⟨hEnds, hNamed⟩ := contract_named hFirst
      rw [validateContracts]
      refine failsWith_bind (failsWith_mono (validateNodes_error contract.source seen hNamed) ?_)
        fun first hOk => failsWith_bind (failsWith_of_total ⟨(), hEnds⟩) fun _ _ =>
          failsWith_bind (failsWith_mono (ih _ hRest) ?_) fun others _ => failsWith_ok _
      · rintro fault ⟨node, cause, hFails, hFault⟩
        exact ⟨contract, node, cause, ⟨[], rest, rfl, List.forall_mem_nil _, hFails⟩, hFault⟩
      · rintro fault ⟨later, node, cause, ⟨before, after, rfl, hBefore, hFails⟩, hFault⟩
        refine ⟨later, node, cause, ⟨contract :: before, after, rfl, ?_, hFails⟩, hFault⟩
        exact List.forall_mem_cons.mpr ⟨passes_of_validateNodes hOk, hBefore⟩

/-- A comm with texts for keys is valid, or validation ends with the first of its nodes that does not
pass. If the fault that this node has names no document, it gets that of the contract. -/
theorem validate_error (h : ∀ contract ∈ comm.contracts, contract.HasTextKeys) :
    FailsWith (fun fault => ∃ contract ∈ comm.contracts, ∃ node cause,
      comm.StopsAt comm.contracts contract node cause ∧ node.FailsBy comm.contracts cause ∧
        fault = cause.inSource contract.source) (validate comm) := by
  refine failsWith_mono (validateContracts_error [] h) ?_
  rintro fault ⟨contract, node, cause, hStops, hFault⟩
  obtain ⟨hContract, hNode, hCheck⟩ := hStops.mem
  have hNamed := (contract_named (h contract hContract)).2 node hNode
  exact ⟨contract, hContract, node, cause, hStops, checkNode_fails _ hNamed cause hCheck, hFault⟩

/-- A comm with texts for keys is valid, or breaks a rule. -/
theorem validate_fails (h : ∀ contract ∈ comm.contracts, contract.HasTextKeys) :
    FailsContract (validate comm) := by
  refine failsWith_mono (validate_error h) ?_
  rintro fault ⟨contract, -, node, cause, -, hFails, rfl⟩
  exact inSource_isContractFault _ hFails.isContractFault

end CommBindings
