import CommBindings.Proofs.Contract.InlineNodes
import CommBindings.Proofs.Target.Closure
import CommBindings.Proofs.Target.Rendering

set_option autoImplicit false

/-! # Inline types have one name

A file derives the type of a property in a context that it puts together from the name of a
declared object, and the types of shared schemas, parameters and results in those in which they are
come across. Either way an inline object or enumeration, also one inside arrays, is used by the name
under which it is declared (`inlineTypes_named`).
-/

namespace CommBindings

variable {target : Target} {comm : Comm} {text : String}

/-! ## Sites -/

/-- Where a file uses the type that is derived for a schema. -/
inductive Site where
  | shared (entry : Key × Schema)
  | property (object : ObjectDeclaration) (property : Key × Schema)
  | param (method : Method) (param : Param)
  | result (method : Method) (schema : Schema)

namespace Site

/-- The context in which the type is derived. -/
def context : Site → Context
  | shared entry => [entry.1]
  | property object entry => [entry.1, .text object.name]
  | param method given => paramContext method.name given.name
  | result method _ => resultContext method.name

/-- The schema for which the type is derived. -/
def schema : Site → Schema
  | shared entry => entry.2
  | property _ entry => entry.2
  | param _ given => given.schema
  | result _ schema => schema

end Site

/-- The sites in a file for a comm: its aliases, the properties of the objects that are declared,
the parameters of all methods and what the methods of the backend reply. -/
def Comm.HasSite (comm : Comm) : Site → Prop
  | .shared entry => entry ∈ comm.aliases
  | .property object property => object ∈ comm.objects.items ∧ property ∈ object.node.properties
  | .param method param => method ∈ comm.methods ∧ param ∈ method.params
  | .result method schema => method ∈ comm.backendMethods ∧ method.reply? = some schema

/-- The section that declares an object or an enumeration. -/
def Schema.ownSection : Schema → Section
  | .object _ => .objects
  | _ => .enums

/-- A name inside the tokens of lists. -/
def listText (opening closing : String) (depth : Nat) (name : String) : String :=
  String.join (List.replicate depth opening) ++ name ++ String.join (List.replicate depth closing)

/-! ## The types that a file uses -/

theorem mem_types {derived : Except Fault TypeExpr} {part : Section} (hPart : part ∈ comm.sections)
    (h : derived ∈ target.typesIn comm part) : derived ∈ target.types comm :=
  List.mem_flatMap.mpr ⟨part, hPart, h⟩

theorem uses_alias {entry : Key × Schema} (hEntry : entry ∈ comm.aliases) :
    fieldType comm.contracts target.table [entry.1] entry.2 ∈ target.types comm := by
  refine mem_types (mem_sections (by decide : Section.aliases ∈ _)) ?_
  cases target <;> exact List.mem_map.mpr ⟨entry, hEntry, rfl⟩

/-- An object with a property is declared with its properties. -/
theorem uses_property {object : ObjectDeclaration} (hObject : object ∈ comm.objects.items)
    {property : Key × Schema} (hProperty : property ∈ object.node.properties) :
    fieldType comm.contracts target.table [property.1, .text object.name] property.2 ∈
      target.types comm := by
  have hSome : object.node.isAny = false := by
    rw [ObjectSchema.isAny, List.isEmpty_eq_false_iff.mpr (List.ne_nil_of_mem hProperty),
      Bool.false_and]
  refine mem_types (mem_sections (by decide : Section.objects ∈ _)) ?_
  cases target with
  | typeScript =>
      refine List.mem_flatMap.mpr ⟨object, hObject, ?_⟩
      rw [TypeScript.objectOf, hSome]
      exact List.mem_map.mpr ⟨_, List.mem_map_of_mem hProperty, rfl⟩
  | rust =>
      refine List.mem_flatMap.mpr ⟨object, hObject, ?_⟩
      rw [Rust.objectOf, hSome]
      exact List.mem_map.mpr ⟨_, List.mem_map_of_mem hProperty, rfl⟩
  | python =>
      refine List.mem_flatMap.mpr ⟨object, hObject, ?_⟩
      rw [Python.objectOf, hSome]
      exact List.mem_map.mpr ⟨_, List.mem_map_of_mem hProperty, rfl⟩

theorem uses_param {method : Method} (hMethod : method ∈ comm.methods) {param : Param}
    (hParam : param ∈ method.params) :
    fieldType comm.contracts target.table (paramContext method.name param.name) param.schema ∈
      target.types comm := by
  have hWith : method ∈ comm.methodsWithParams := by
    refine List.mem_filter.mpr ⟨hMethod, ?_⟩
    rw [Method.hasParams, List.isEmpty_eq_false_iff.mpr (List.ne_nil_of_mem hParam)]
    rfl
  refine mem_types (mem_sections (by decide : Section.paramRecords ∈ _)) ?_
  cases target with
  | typeScript =>
      refine List.mem_flatMap.mpr ⟨method, hWith, ?_⟩
      exact List.mem_map.mpr ⟨_, List.mem_map_of_mem hParam, rfl⟩
  | rust =>
      refine List.mem_flatMap.mpr ⟨method, hWith, ?_⟩
      exact List.mem_map.mpr ⟨_, List.mem_map_of_mem hParam, rfl⟩
  | python =>
      refine List.mem_flatMap.mpr ⟨method, hWith, ?_⟩
      exact List.mem_map.mpr ⟨_, List.mem_map_of_mem hParam, rfl⟩

theorem uses_result {method : Method} (hMethod : method ∈ comm.backendMethods) {schema : Schema}
    (hReply : method.reply? = some schema) :
    fieldType comm.contracts target.table (resultContext method.name) schema ∈
      target.types comm := by
  have hBackend := (contract_of_backendMethod hMethod).1
  refine mem_types (client_mem_sections comm) ?_
  cases target with
  | typeScript =>
      refine List.mem_append_left _ (List.mem_flatMap.mpr
        ⟨_, List.mem_map_of_mem hMethod, List.mem_append_right _ ?_⟩)
      rw [TypeScript.callOf, TypeScript.resultOf, hReply]
      exact List.mem_singleton_self _
  | rust =>
      show _ ∈ if comm.backend.isSome then _ else _
      rw [if_pos hBackend]
      refine List.mem_append_left _ (List.mem_flatMap.mpr
        ⟨_, List.mem_map_of_mem hMethod, List.mem_append_right _ ?_⟩)
      rw [Rust.resultOf, hReply]
      exact List.mem_singleton_self _
  | python =>
      show _ ∈ if comm.backend.isSome then _ else _
      rw [if_pos hBackend]
      refine List.mem_append_left _ (List.mem_append_left _ (List.mem_flatMap.mpr
        ⟨_, List.mem_map_of_mem hMethod, List.mem_append_right _ ?_⟩))
      rw [Python.resultOf, hReply]
      exact List.mem_singleton_self _

theorem uses_site {site : Site} (hSite : comm.HasSite site) :
    fieldType comm.contracts target.table site.context site.schema ∈ target.types comm := by
  cases site with
  | shared entry => exact uses_alias hSite
  | property object property => exact uses_property hSite.1 hSite.2
  | param method param => exact uses_param hSite.1 hSite.2
  | result method schema => exact uses_result hSite.1 hSite.2

/-! ## The names in them -/

/-- The schema at a site is come across in the contracts, in a context that gives it the same
type. -/
theorem covered_site (h : comm.objects.outcome = .ok ()) {site : Site}
    (hSite : comm.HasSite site) :
    ∃ contract ∈ comm.contracts, ∃ context, Covered contract.nodes.items context site.schema ∧
      fieldType comm.contracts target.table site.context site.schema =
        fieldType comm.contracts target.table context site.schema := by
  have hNodes := (objects_declares h).1
  cases site with
  | shared entry =>
      obtain ⟨contract, hContract, hFilter⟩ := List.mem_flatMap.mp hSite
      exact ⟨contract, hContract, _,
        covered_shared (hNodes contract hContract) (List.mem_filter.mp hFilter).1, rfl⟩
  | property object property =>
      obtain ⟨contract, hContract, own, rest, hPascal, hInside⟩ :=
        covered_property h hSite.1 hSite.2
      refine ⟨contract, hContract, _, hInside, ?_⟩
      rw [Site.context, hPascal]
      exact fieldType_owner property.1 own rest property.2
  | param method param =>
      obtain ⟨contract, hContract, hMem⟩ := contract_of_method hSite.1
      exact ⟨contract, hContract, _, covered_param (hNodes contract hContract) hMem hSite.2, rfl⟩
  | result method schema =>
      obtain ⟨contract, hContract, hMem⟩ := (contract_of_backendMethod hSite.1).2
      have hResult : method.result = some schema := (Option.filter_eq_some_iff.mp hSite.2).1
      exact ⟨contract, hContract, _, covered_result (hNodes contract hContract) hMem hResult, rfl⟩

/-- An object or an enumeration that is come across has its name declared, in the section for such
declarations. -/
theorem inline_declared (h : target.render comm = .ok text) {contract : Contract}
    (hContract : contract ∈ comm.contracts) {context : Context} {schema : Schema}
    (hNode : ⟨context, schema⟩ ∈ contract.nodes.items) (hInline : schema.isAliased = false) :
    ∃ name, inlineName context schema = .ok name ∧
      .ok name ∈ target.declaredIn comm schema.ownSection := by
  have hAll := mem_allNodes hContract hNode
  cases schema with
  | object node =>
      obtain ⟨name, hName, hMem⟩ := (objects_declares (objects_ok h)).2.named _ hAll _ rfl
      refine ⟨name, hName, ?_⟩
      obtain ⟨object, hObject, rfl⟩ := List.mem_map.mp (hMem.resolve_left List.not_mem_nil)
      show _ ∈ target.declaredIn comm .objects
      rw [declaredIn_objects]
      exact List.mem_map.mpr ⟨object, hObject, rfl⟩
  | enumeration values description =>
      obtain ⟨name, hName, hMem⟩ := (enums_declares (enums_ok h)).named _ hAll _ rfl
      refine ⟨name, hName, ?_⟩
      obtain ⟨declared, hDeclared, rfl⟩ := List.mem_map.mp (hMem.resolve_left List.not_mem_nil)
      show _ ∈ target.declaredIn comm .enums
      rw [declaredIn_enums]
      exact List.mem_map.mpr ⟨declared, hDeclared, rfl⟩
  | primitive kind description => cases hInline
  | reference pointer description => cases hInline
  | array items description => cases hInline

theorem text_fieldType_core {contracts : List Contract} {opening closing : String}
    {context : Context} {schema : Schema}
    (hOpening : target.table.require TypeTable.listOpening = .ok opening)
    (hClosing : target.table.require TypeTable.listClosing = .ok closing) (hContext : context ≠ [])
    (hInline : schema.core.isAliased = false) :
    (fieldType contracts target.table context schema).map TypeExpr.text = (do
      let inner ← coreContext context schema
      let name ← inlineName inner schema.core
      pure (listText opening closing schema.depth name)) := by
  rw [fieldType_core hOpening hClosing hContext hInline]
  cases coreContext context schema with
  | error fault => rfl
  | ok inner =>
      show Except.map _ (inlineName inner schema.core >>= _) = inlineName inner schema.core >>= _
      cases inlineName inner schema.core with
      | error fault => rfl
      | ok name => exact congrArg Except.ok (TypeExpr.text_inLists _ _ _ _)

/-- **Inline types have one name.** The type of a property is the same in the context of its owner's
type as in that in which a walk comes across it. Walks through contracts come across all that is
inside their nodes, in contexts that are not empty. There the type of arrays around an object or an
enumeration is the name that this has where a walk comes across it, after as many opening tokens as
there are arrays and before as many closing ones. So wherever a file uses such a type, it uses the
name of a node of the contracts, and the file declares this name in the section for it. -/
theorem inlineTypes_named (target : Target) (comm : Comm) :
    (∀ context object name, objectName context object = .ok name →
      walkObject context object = (Emission.forAll object.properties fun property =>
        walk (property.1 :: ownerContext context object) property.2) ∧
      ∀ property ∈ object.properties,
        fieldType comm.contracts target.table [property.1, .text name] property.2 =
          fieldType comm.contracts target.table (property.1 :: ownerContext context object)
            property.2) ∧
    (∀ contract ∈ comm.contracts, IsWhole contract.nodes.items) ∧
    ∃ opening closing, target.table.require TypeTable.listOpening = .ok opening ∧
      target.table.require TypeTable.listClosing = .ok closing ∧
      (∀ context schema, context ≠ [] → schema.core.isAliased = false →
        (∀ inner, coreContext context schema = .ok inner →
          (walk context schema).items[schema.depth]? = some ⟨inner, schema.core⟩) ∧
        (fieldType comm.contracts target.table context schema).map TypeExpr.text = (do
          let inner ← coreContext context schema
          let name ← inlineName inner schema.core
          pure (listText opening closing schema.depth name))) ∧
      ∀ text, target.render comm = .ok text →
        ∀ site, comm.HasSite site → site.schema.core.isAliased = false →
          fieldType comm.contracts target.table site.context site.schema ∈ target.types comm ∧
          ∃ contract ∈ comm.contracts, ∃ context inner name,
            (walk context site.schema).items <:+: contract.nodes.items ∧
            (walk context site.schema).items[site.schema.depth]? =
              some ⟨inner, site.schema.core⟩ ∧
            inlineName inner site.schema.core = .ok name ∧
            .ok name ∈ target.declaredIn comm site.schema.core.ownSection ∧
            (fieldType comm.contracts target.table site.context site.schema).map TypeExpr.text =
              .ok (listText opening closing site.schema.depth name) := by
  have hTable := table_isComplete target
  obtain ⟨opening, hOpening⟩ := require_total hTable (by decide : TypeTable.listOpening ∈ _)
  obtain ⟨closing, hClosing⟩ := require_total hTable (by decide : TypeTable.listClosing ∈ _)
  refine ⟨?_, fun contract _ => isWhole_contract contract, opening, closing, hOpening, hClosing,
    ?_, ?_⟩
  · intro context object name hName
    exact ⟨walkObject_named hName, fun property _ => fieldType_property hName property⟩
  · intro context schema hContext hInline
    exact ⟨fun _ => walk_core, text_fieldType_core hOpening hClosing hContext hInline⟩
  · intro text hText site hSite hInline
    refine ⟨uses_site hSite, ?_⟩
    obtain ⟨contract, hContract, context, hCovered, hType⟩ :=
      covered_site (objects_ok hText) hSite
    obtain ⟨hSome, hPart⟩ := isWhole_contract contract _ hCovered.mem
    obtain ⟨inner, hInner⟩ := coreContext_total hCovered.ends
    have hCore := walk_core hInner
    have hNode := hCovered.within (List.mem_of_getElem? hCore)
    obtain ⟨name, hName, hDeclared⟩ := inline_declared hText hContract hNode hInline
    refine ⟨contract, hContract, context, inner, name, hPart, hCore, hName, hDeclared, ?_⟩
    rw [hType, text_fieldType_core hOpening hClosing hSome hInline, hInner]
    show (inlineName inner site.schema.core >>= _) = _
    rw [hName]
    rfl

/-- The parameter of a method of a comm: lists of enumerations. -/
def modesParam : Param :=
  ⟨"modes", "The modes", .array (.array (.enumeration ["on"] none) none) none, true⟩

/-- A method whose reply is a list of objects that have a property with an enumeration. -/
def getMethod : Method where
  name := "get"
  summary := "Get it"
  description := none
  params := [modesParam]
  result := some (.array (.object ⟨none, some "An entry",
    [(.text "kind", .enumeration ["off"] none)], [], false⟩) none)

/-- The comm with this method. -/
def getComm : Comm :=
  ⟨"shelf", some ⟨.backend, "shelf-backend-openrpc.json", [getMethod], [], []⟩, none, rfl⟩

/-- The lists of enumerations are printed with the name of an enumeration that is declared. -/
theorem named_getComm :
    ∃ text, Target.typeScript.render getComm = .ok text ∧
      (fieldType getComm.contracts Target.typeScript.table (paramContext "get" "modes")
        modesParam.schema).map TypeExpr.text = .ok "Array<Array<GetModes>>" ∧
      ∃ name, .ok name ∈ Target.typeScript.declaredIn getComm .enums ∧
        "Array<Array<GetModes>>" = listText "Array<" ">" 2 name := by
  have hValid : validate getComm = .ok [] := by decide +kernel
  have hKeys : ∀ contract ∈ getComm.contracts, contract.HasTextKeys := by
    refine List.forall_mem_singleton.mpr ⟨List.forall_mem_singleton.mpr ⟨?_, ?_⟩, by decide⟩
    · exact List.forall_mem_singleton.mpr rfl
    · rintro schema ⟨⟩
      rfl
  obtain ⟨text, hText⟩ := render_of_settled (settled_of_checked (checked_of_validate hValid) hKeys
    (isAcyclic_of_sharedKeys rfl)) .typeScript
  obtain ⟨-, -, opening, closing, hOpening, hClosing, -, hSites⟩ :=
    inlineTypes_named .typeScript getComm
  obtain rfl : "Array<" = opening := Except.ok.inj hOpening
  obtain rfl : ">" = closing := Except.ok.inj hClosing
  obtain ⟨-, _, -, _, _, name, -, -, -, hDeclared, hType⟩ :=
    hSites text hText (.param getMethod modesParam)
      ⟨List.mem_cons_self, List.mem_singleton_self _⟩ rfl
  exact ⟨text, hText, rfl, name, hDeclared, Except.ok.inj hType⟩

end CommBindings
