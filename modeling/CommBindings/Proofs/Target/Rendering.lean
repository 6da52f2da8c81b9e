import CommBindings.Proofs.Contract.Validation
import CommBindings.Proofs.Target.Closure
import CommBindings.Proofs.Target.Revival

set_option autoImplicit false

/-! # Validation is enough for rendering

All that the sections of a file are made of can be formed for a comm that has passed validation
(`settled_of_checked`), and then no section of any target ends with a fault. So a comm that is valid
can be rendered for all targets (`render_of_validate`), unless a shared schema leads back to itself:
then its revival in Python would have no end.
-/

namespace CommBindings

variable {comm : Comm}

/-- What the sections of a file are made of can be formed: the declarations of objects and
enumerations, the types of all schemas that they hold, and the revival of such values. -/
structure Comm.Settled (comm : Comm) : Prop where
  objects : comm.objects.outcome = .ok ()
  enums : comm.enums.outcome = .ok ()
  aliases : ∀ entry ∈ comm.aliases, entry.1.isText = true ∧ entry.2.Resolves comm.contracts
  properties : ∀ object ∈ comm.objects.items, ∀ property ∈ object.node.properties,
    property.1.isText = true ∧ property.2.Resolves comm.contracts
  params : ∀ method ∈ comm.methods, ∀ param ∈ method.params,
    param.schema.Resolves comm.contracts
  replies : ∀ method ∈ comm.methods, ∀ schema, method.reply? = some schema →
    schema.Resolves comm.contracts
  revives : ∀ context schema, IsNamed context → schema.Resolves comm.contracts →
    ∃ revival, Python.revivalOf comm context schema = .ok revival

theorem table_isComplete (target : Target) : target.table.IsComplete := by
  have hComplete : ∀ word ∈ TypeTable.words, (target.table.lookup word).isSome = true := by
    cases target <;> decide
  exact fun word hWord => Option.isSome_iff_exists.mp (hComplete word hWord)

theorem typeOf_total (target : Target) {context : Context} {schema : Schema}
    (hContext : IsNamed context) (hResolves : schema.Resolves comm.contracts) :
    ∃ type, fieldType comm.contracts target.table context schema = .ok type :=
  fieldType_total (table_isComplete target) hContext hResolves

/-! ## The outline -/

theorem declareFirst_total {δ : Type} {nameOf : Node → Option (Except Fault String)}
    {declaration : Node → String → Except Fault δ} {nodes : List Node}
    (hNodes : ∀ n ∈ nodes, ∀ named, nameOf n = some named →
      ∃ name, named = .ok name ∧ ∃ d, declaration n name = .ok d) (seen : List String) :
    ∃ seen', (declareFirst nameOf declaration seen nodes).outcome = .ok seen' := by
  induction nodes generalizing seen with
  | nil => exact ⟨seen, rfl⟩
  | cons node rest ih =>
      obtain ⟨hNode, hRest⟩ := List.forall_mem_cons.mp hNodes
      rw [declareFirst]
      cases hName : nameOf node with
      | none => exact ih hRest seen
      | some named =>
          obtain ⟨name, rfl, d, hDeclared⟩ := hNode named hName
          by_cases hOld : seen.contains name = true
          · obtain ⟨seen', hSeen⟩ := ih hRest seen
            refine ⟨seen', Emission.bind_outcome.mpr ⟨name, rfl, ?_⟩⟩
            rw [if_pos hOld]
            exact hSeen
          · obtain ⟨seen', hSeen⟩ := ih hRest (name :: seen)
            refine ⟨seen', Emission.bind_outcome.mpr ⟨name, rfl, ?_⟩⟩
            rw [if_neg hOld]
            exact Emission.bind_outcome.mpr
              ⟨d, hDeclared, Emission.bind_outcome.mpr ⟨(), rfl, hSeen⟩⟩

theorem declareAll_total {δ : Type} {nameOf : Node → Option (Except Fault String)}
    {declaration : Node → String → Except Fault δ} {contracts : List Contract}
    (hEnds : ∀ contract ∈ contracts, contract.nodes.outcome = .ok ())
    (hNodes : ∀ contract ∈ contracts, ∀ n ∈ contract.nodes.items, ∀ named,
      nameOf n = some named → ∃ name, named = .ok name ∧ ∃ d, declaration n name = .ok d)
    (seen : List String) : (declareAll nameOf declaration seen contracts).outcome = .ok () := by
  induction contracts generalizing seen with
  | nil => rfl
  | cons contract rest ih =>
      obtain ⟨hEnd, hRestEnds⟩ := List.forall_mem_cons.mp hEnds
      obtain ⟨hNode, hRestNodes⟩ := List.forall_mem_cons.mp hNodes
      obtain ⟨seen', hSeen⟩ := declareFirst_total hNode seen
      rw [declareAll]
      exact Emission.bind_outcome.mpr ⟨seen', hSeen, Emission.bind_outcome.mpr
        ⟨(), hEnd, ih hRestEnds hRestNodes seen'⟩⟩

/-- An object that passes the check for it can be declared. -/
theorem declareObject_total {contracts : List Contract} {n : Node} (hContext : IsNamed n.context)
    (hPasses : checkNode contracts n = .ok ()) :
    ∀ named, n.objectName? = some named →
      ∃ name, named = .ok name ∧ ∃ d, n.declareObject name = .ok d := by
  obtain ⟨context, schema⟩ := n
  intro named hNamed
  cases schema with
  | object object =>
      obtain ⟨name, hName⟩ := objectName_total object hContext
      obtain ⟨description, hDescription⟩ := described_of_passes hPasses
      refine ⟨name, ?_, _, bind_eq_ok.mpr ⟨description, hDescription, rfl⟩⟩
      rw [← hName]
      exact (Option.some.inj hNamed).symm
  | primitive kind description => cases hNamed
  | array items description => cases hNamed
  | enumeration values description => cases hNamed
  | reference pointer description => cases hNamed

theorem declareEnum_total {n : Node} (hContext : IsNamed n.context) :
    ∀ named, n.enumName? = some named →
      ∃ name, named = .ok name ∧ ∃ d, n.declareEnum name = .ok d := by
  intro named hNamed
  obtain ⟨name, hName⟩ := enumName_total hContext
  obtain ⟨description, hDescription⟩ := describeEnum_total hContext
  obtain ⟨values, -, rfl⟩ := Option.map_eq_some_iff.mp hNamed
  exact ⟨name, hName, _, bind_eq_ok.mpr ⟨description, hDescription, rfl⟩⟩

theorem objects_total (hChecked : comm.Checked)
    (hKeys : ∀ contract ∈ comm.contracts, contract.HasTextKeys) :
    comm.objects.outcome = .ok () :=
  declareAll_total hChecked.ends (fun contract hContract n hn =>
    declareObject_total ((contract_named (hKeys contract hContract)).2 n hn)
      (hChecked.passes contract hContract n hn)) []

theorem enums_total (hKeys : ∀ contract ∈ comm.contracts, contract.HasTextKeys) :
    comm.enums.outcome = .ok () :=
  declareAll_total (fun contract hContract => (contract_named (hKeys contract hContract)).1)
    (fun contract hContract n hn =>
      declareEnum_total ((contract_named (hKeys contract hContract)).2 n hn)) []

theorem settled_of_checked (hChecked : comm.Checked)
    (hKeys : ∀ contract ∈ comm.contracts, contract.HasTextKeys) (hAcyclic : comm.IsAcyclic) :
    comm.Settled := by
  have hNamed : ∀ contract ∈ comm.contracts, ∀ n ∈ contract.nodes.items, IsNamed n.context :=
    fun contract hContract => (contract_named (hKeys contract hContract)).2
  have hObjects : comm.objects.outcome = .ok () := objects_total hChecked hKeys
  have hShared : ∀ contract ∈ comm.contracts, ∀ entry ∈ contract.schemas,
      entry.2.Resolves comm.contracts := fun contract hContract entry hEntry =>
    (covered_shared (hChecked.ends contract hContract) hEntry).resolves
      (hChecked.passes contract hContract)
  exact
    { objects := hObjects
      enums := enums_total hKeys
      aliases := by
        intro entry hEntry
        obtain ⟨contract, hContract, hFilter⟩ := List.mem_flatMap.mp hEntry
        have hMem := (List.mem_filter.mp hFilter).1
        have hText := (Schema.haveTextKeys_iff.mp (hKeys contract hContract).2 entry hMem).1
        exact ⟨hText, hShared contract hContract entry hMem⟩
      properties := by
        intro object hObject property hProperty
        obtain ⟨contract, hContract, own, rest, -, hCovered⟩ :=
          covered_property hObjects hObject hProperty
        have hContext := hNamed contract hContract _ hCovered.mem
        exact ⟨hContext.2 _ List.mem_cons_self,
          hCovered.resolves (hChecked.passes contract hContract)⟩
      params := by
        intro method hMethod param hParam
        obtain ⟨contract, hContract, hMem⟩ := contract_of_method hMethod
        exact (covered_param (hChecked.ends contract hContract) hMem hParam).resolves
          (hChecked.passes contract hContract)
      replies := by
        intro method hMethod schema hReply
        obtain ⟨contract, hContract, hMem⟩ := contract_of_method hMethod
        have hResult : method.result = some schema := (Option.filter_eq_some_iff.mp hReply).1
        exact (covered_result (hChecked.ends contract hContract) hMem hResult).resolves
          (hChecked.passes contract hContract)
      revives := by
        intro context schema hContext hResolves
        refine Python.revivalOf_total hAcyclic (fun key target hTarget => ?_) hContext hResolves
        obtain ⟨contract, hContract, hLookup⟩ := List.exists_of_findSome?_eq_some hTarget
        exact hShared contract hContract _ (mem_of_lookupEntry hLookup) }

/-! ## Types that are formed -/

theorem Comm.Settled.aliasType (h : comm.Settled) (target : Target) {entry : Key × Schema}
    (hEntry : entry ∈ comm.aliases) :
    ∃ type, fieldType comm.contracts target.table [entry.1] entry.2 = .ok type := by
  obtain ⟨hText, hResolves⟩ := h.aliases entry hEntry
  exact typeOf_total target (isNamed_cons hText (List.forall_mem_nil _)) hResolves

theorem Comm.Settled.propertyType (h : comm.Settled) (target : Target)
    {object : ObjectDeclaration} (hObject : object ∈ comm.objects.items)
    {property : Key × Schema} (hProperty : property ∈ object.node.properties) :
    ∃ type, fieldType comm.contracts target.table [property.1, .text object.name] property.2 =
      .ok type := by
  obtain ⟨hText, hResolves⟩ := h.properties object hObject property hProperty
  exact typeOf_total target (isNamed_pair object.name hText) hResolves

theorem Comm.Settled.paramType (h : comm.Settled) (target : Target) {method : Method}
    (hMethod : method ∈ comm.methods) {param : Param} (hParam : param ∈ method.params) :
    ∃ type, fieldType comm.contracts target.table (paramContext method.name param.name)
      param.schema = .ok type :=
  typeOf_total target (isNamed_paramContext _ _) (h.params method hMethod param hParam)

theorem Comm.Settled.replyType (h : comm.Settled) (target : Target) {method : Method}
    (hMethod : method ∈ comm.methods) {schema : Schema} (hReply : method.reply? = some schema) :
    ∃ type, fieldType comm.contracts target.table (resultContext method.name) schema =
      .ok type :=
  typeOf_total target (isNamed_resultContext _) (h.replies method hMethod schema hReply)

theorem anyType_total (target : Target) :
    ∃ type, (target.table.require TypeTable.anyObject).map TypeExpr.token = .ok type := by
  obtain ⟨token, hToken⟩ := require_total (table_isComplete target)
    (by decide : TypeTable.anyObject ∈ TypeTable.words)
  exact ⟨.token token, map_eq_ok.mpr ⟨token, hToken, rfl⟩⟩

/-! ## TypeScript -/

namespace TypeScript

theorem Alias.print_total {declared : Alias} (hName : ∃ name, declared.name = .ok name)
    (hType : ∃ type, declared.type = .ok type) : declared.print.outcome = .ok () := by
  obtain ⟨name, hName⟩ := hName
  obtain ⟨type, hType⟩ := hType
  rw [Alias.print, hName, hType]
  cases declared.doc <;> rfl

theorem Field.print_total {field : Field} (hKey : field.key.isText = true)
    (hType : ∃ type, field.type = .ok type) : field.print.outcome = .ok () := by
  obtain ⟨key, hKey⟩ := label_of_isText hKey
  obtain ⟨type, hType⟩ := hType
  rw [Field.print, hKey, hType]
  rfl

theorem Interface.print_total {interface : Interface}
    (h : ∀ field ∈ interface.fields, field.print.outcome = .ok ()) :
    interface.print.outcome = .ok () := by
  have hFields := Emission.forAll_ok.mpr h
  exact Emission.bind_outcome.mpr ⟨(), rfl, Emission.bind_outcome.mpr ⟨(), rfl,
    Emission.bind_outcome.mpr ⟨(), hFields, rfl⟩⟩⟩

theorem objectOf_total (h : comm.Settled) {object : ObjectDeclaration}
    (hObject : object ∈ comm.objects.items) : (objectOf comm object).print.outcome = .ok () := by
  unfold objectOf
  split
  · exact Alias.print_total ⟨object.name, rfl⟩ (anyType_total .typeScript)
  · refine Interface.print_total (List.forall_mem_map.mpr fun property hProperty => ?_)
    exact Field.print_total (h.properties object hObject property hProperty).1
      (h.propertyType .typeScript hObject hProperty)

theorem paramFields_total (h : comm.Settled) {method : Method} (hMethod : method ∈ comm.methods) :
    ∀ field ∈ paramFields comm method, field.print.outcome = .ok () := by
  refine List.forall_mem_map.mpr fun param hParam => ?_
  exact Field.print_total rfl (h.paramType .typeScript hMethod hParam)

theorem resultOf_total (h : comm.Settled) {method : Method} (hMethod : method ∈ comm.methods) :
    ∃ type, resultOf comm method = .ok type := by
  unfold resultOf
  split
  · next schema hReply => exact h.replyType .typeScript hMethod hReply
  · exact ⟨_, rfl⟩

theorem unions_total (h : comm.Settled) : (unions comm).print.outcome = .ok () := by
  have hReplies : ∃ texts, (unions comm).replies.mapM Reply.text = .ok texts := by
    refine mapM_total (List.forall_mem_map.mpr fun method hMethod => ?_)
    have hKnown := List.mem_append_left comm.frontendMethods (List.mem_filter.mp hMethod).1
    obtain ⟨type, hType⟩ := resultOf_total h hKnown
    exact ⟨_, bind_eq_ok.mpr ⟨type, hType, rfl⟩⟩
  obtain ⟨texts, hTexts⟩ := hReplies
  rw [Unions.print, hTexts]
  rfl

theorem parametersOf_total (h : comm.Settled) {method : Method} (hMethod : method ∈ comm.methods)
    {params : List Param} (hParams : params ⊆ method.params) :
    ∃ texts, (parametersOf comm method params).mapM Parameter.text = .ok texts := by
  refine mapM_total fun parameter hParameter => ?_
  have hType : parameter.type ∈ (parametersOf comm method params).map Parameter.type :=
    List.mem_map_of_mem hParameter
  rw [parametersOf_types] at hType
  obtain ⟨param, hParam, hIs⟩ := List.mem_map.mp hType
  obtain ⟨type, hOk⟩ := h.paramType .typeScript hMethod (hParams hParam)
  rw [Parameter.text, ← hIs, show paramType comm method param = .ok type from hOk]
  cases parameter.presence <;> exact ⟨_, rfl⟩

theorem callOf_total (h : comm.Settled) {method : Method} (hMethod : method ∈ comm.methods) :
    (callOf comm method).print.outcome = .ok () := by
  obtain ⟨parameters, hParameters⟩ := parametersOf_total h hMethod (List.Subset.refl _)
  obtain ⟨result, hResult⟩ := resultOf_total h hMethod
  exact Emission.bind_outcome.mpr ⟨(), rfl, Emission.bind_outcome.mpr ⟨parameters, hParameters,
    Emission.bind_outcome.mpr ⟨result, hResult, rfl⟩⟩⟩

theorem client_total (h : comm.Settled) : (client comm).print.outcome = .ok () := by
  have hCalls := Emission.forAll_ok.mpr (List.forall_mem_map.mpr fun method hMethod =>
    callOf_total h (List.mem_append_left comm.frontendMethods hMethod))
  rw [Client.print]
  simp only [Emission.bind_outcome]
  exact ⟨(), rfl, (), rfl, (), rfl, (), rfl, (), rfl, (), rfl, (), hCalls, (), rfl, rfl⟩

/-- No section of the file ends with a fault. -/
theorem printSection_total (h : comm.Settled) (part : Section) :
    (printSection comm part).outcome = .ok () := by
  cases part with
  | header => rfl
  | aliases =>
      refine Emission.forAll_ok.mpr fun entry hEntry => ?_
      exact Alias.print_total (typeName_of_isText (h.aliases entry hEntry).1)
        (h.aliasType .typeScript hEntry)
  | objects =>
      exact Emission.flatMap_ok.mpr ⟨fun object hObject => objectOf_total h hObject, h.objects⟩
  | enums => exact Emission.flatMap_ok.mpr ⟨fun declared _ => rfl, h.enums⟩
  | paramRecords =>
      refine Emission.forAll_ok.mpr fun method hMethod => ?_
      exact Interface.print_total (paramFields_total h (mem_methods_of_hasParams hMethod))
  | backendUnions => exact unions_total h
  | frontendEvents =>
      have hEvent : ∀ method ∈ comm.frontendMethods,
          (eventOf comm method).print.outcome = .ok () := fun method hMethod =>
        Interface.print_total
          (paramFields_total h (List.mem_append_right comm.backendMethods hMethod))
      exact Emission.bind_outcome.mpr ⟨(), Emission.forAll_ok.mpr hEvent, rfl⟩
  | client => exact client_total h

end TypeScript

/-! ## Rust -/

namespace Rust

theorem Alias.print_total {declared : Alias} (hName : ∃ name, declared.name = .ok name)
    (hType : ∃ type, declared.type = .ok type) : declared.print.outcome = .ok () := by
  obtain ⟨name, hName⟩ := hName
  obtain ⟨type, hType⟩ := hType
  rw [Alias.print, hName, hType]
  cases declared.doc <;> rfl

theorem Field.text_total {field : Field} (hType : ∃ type, field.type = .ok type)
    (hName : ∃ name, field.name = .ok name) : ∃ text, field.text = .ok text := by
  obtain ⟨type, hType⟩ := hType
  obtain ⟨name, hName⟩ := hName
  exact ⟨_, bind_eq_ok.mpr ⟨type, hType, bind_eq_ok.mpr ⟨name, hName, rfl⟩⟩⟩

theorem Struct.print_total {struct : Struct} (h : ∀ field ∈ struct.fields, ∃ text,
    field.text = .ok text) : struct.print.outcome = .ok () := by
  obtain ⟨texts, hTexts⟩ := mapM_total h
  rw [Struct.print, hTexts]
  rfl

theorem keyFieldName_total {key : Key} (h : key.isText = true) :
    ∃ name, keyFieldName key = .ok name := by
  cases key with
  | text name => exact ⟨_, rfl⟩
  | _ => cases h

theorem objectOf_total (h : comm.Settled) {object : ObjectDeclaration}
    (hObject : object ∈ comm.objects.items) : (objectOf comm object).print.outcome = .ok () := by
  unfold objectOf
  split
  · exact Alias.print_total ⟨object.name, rfl⟩ (anyType_total .rust)
  · refine Struct.print_total (List.forall_mem_map.mpr fun property hProperty => ?_)
    exact Field.text_total (h.propertyType .rust hObject hProperty)
      (keyFieldName_total (h.properties object hObject property hProperty).1)

theorem paramsOf_total (h : comm.Settled) {method : Method} (hMethod : method ∈ comm.methods) :
    (paramsOf comm method).print.outcome = .ok () := by
  refine Struct.print_total (List.forall_mem_map.mpr fun param hParam => ?_)
  exact Field.text_total (h.paramType .rust hMethod hParam) ⟨_, rfl⟩

theorem Reply.print_total {reply : Reply} (h : ∃ type, reply.payload = .ok type) :
    reply.print.outcome = .ok () := by
  obtain ⟨type, hType⟩ := h
  rw [Reply.print, hType]
  cases reply.doc <;> rfl

theorem replies_total (h : comm.Settled) : (replies comm).print.outcome = .ok () := by
  have hReply : ∀ reply ∈ (replies comm).replies, reply.print.outcome = .ok () := by
    intro reply hMem
    obtain ⟨method, hMethod, hOf⟩ := List.mem_filterMap.mp hMem
    obtain ⟨schema, hSchema, rfl⟩ := Option.map_eq_some_iff.mp hOf
    exact Reply.print_total
      (h.replyType .rust (List.mem_append_left comm.frontendMethods hMethod) hSchema)
  exact Emission.bind_outcome.mpr ⟨(), rfl, Emission.bind_outcome.mpr
    ⟨(), Emission.forAll_ok.mpr hReply, rfl⟩⟩

theorem resultOf_total (h : comm.Settled) {method : Method} (hMethod : method ∈ comm.methods) :
    ∃ type, resultOf comm method = .ok type := by
  unfold resultOf
  split
  · next schema hReply => exact h.replyType .rust hMethod hReply
  · exact ⟨_, rfl⟩

theorem handler_total (h : comm.Settled) : (handler comm).print.outcome = .ok () := by
  have hHandler : ∀ member ∈ (handler comm).handlers, member.print.outcome = .ok () := by
    refine List.forall_mem_map.mpr fun method hMethod => ?_
    obtain ⟨type, hType⟩ := resultOf_total h (List.mem_append_left comm.frontendMethods hMethod)
    exact Emission.bind_outcome.mpr ⟨(), rfl, Emission.bind_outcome.mpr ⟨type, hType, rfl⟩⟩
  rw [Trait.print]
  simp only [Emission.bind_outcome]
  exact ⟨(), rfl, (), rfl, (), rfl, (), Emission.forAll_ok.mpr hHandler, rfl⟩

/-- No section of the file ends with a fault. -/
theorem printSection_total (h : comm.Settled) (part : Section) :
    (printSection comm part).outcome = .ok () := by
  cases part with
  | header => rfl
  | aliases =>
      refine Emission.forAll_ok.mpr fun entry hEntry => ?_
      exact Alias.print_total (typeName_of_isText (h.aliases entry hEntry).1)
        (h.aliasType .rust hEntry)
  | objects =>
      exact Emission.flatMap_ok.mpr ⟨fun object hObject => objectOf_total h hObject, h.objects⟩
  | enums => exact Emission.flatMap_ok.mpr ⟨fun declared _ => rfl, h.enums⟩
  | paramRecords =>
      refine Emission.forAll_ok.mpr fun method hMethod => ?_
      exact paramsOf_total h (mem_methods_of_hasParams hMethod)
  | backendUnions => exact Emission.bind_outcome.mpr ⟨(), rfl, replies_total h⟩
  | frontendEvents => rfl
  | client =>
      rw [printSection]
      split
      · exact Emission.bind_outcome.mpr ⟨(), handler_total h, rfl⟩
      · rfl

end Rust

/-! ## Python -/

namespace Python

theorem Alias.print_total {declared : Alias} (hName : ∃ name, declared.name = .ok name)
    (hType : ∃ type, declared.type = .ok type) : declared.print.outcome = .ok () := by
  obtain ⟨name, hName⟩ := hName
  obtain ⟨type, hType⟩ := hType
  rw [Alias.print, hName, hType]
  cases declared.doc <;> rfl

theorem Field.print_total {field : Field} (hType : ∃ type, field.type = .ok type)
    (hName : ∃ name, field.name = .ok name) (hRevival : ∃ revival, field.revival = .ok revival) :
    ∃ statements, field.print.outcome = .ok statements := by
  obtain ⟨type, hType⟩ := hType
  obtain ⟨name, hName⟩ := hName
  obtain ⟨revival, hRevival⟩ := hRevival
  rw [Field.print, hType, hName, hRevival]
  exact ⟨_, rfl⟩

theorem printFields_total {fields : List Field}
    (h : ∀ field ∈ fields, ∃ statements, field.print.outcome = .ok statements) :
    ∃ statements, (printFields fields).outcome = .ok statements := by
  induction fields with
  | nil => exact ⟨[], rfl⟩
  | cons field rest ih =>
      obtain ⟨⟨first, hFirst⟩, hRest⟩ := List.forall_mem_cons.mp h
      obtain ⟨others, hOthers⟩ := ih hRest
      exact ⟨first ++ others, Emission.bind_outcome.mpr ⟨first, hFirst,
        Emission.bind_outcome.mpr ⟨others, hOthers, rfl⟩⟩⟩

theorem Record.print_total {record : Record}
    (h : ∀ field ∈ record.fields, ∃ statements, field.print.outcome = .ok statements) :
    record.print.outcome = .ok () := by
  obtain ⟨statements, hFields⟩ := printFields_total h
  exact Emission.bind_outcome.mpr ⟨(), rfl, Emission.bind_outcome.mpr ⟨statements, hFields, rfl⟩⟩

theorem keyFieldName_total {key : Key} (h : key.isText = true) :
    ∃ name, keyFieldName key = .ok name := by
  cases key with
  | text name => exact ⟨_, rfl⟩
  | _ => cases h

theorem objectOf_total (h : comm.Settled) {object : ObjectDeclaration}
    (hObject : object ∈ comm.objects.items) : (objectOf comm object).print.outcome = .ok () := by
  unfold objectOf
  split
  · exact Alias.print_total ⟨object.name, rfl⟩ (anyType_total .python)
  · refine Record.print_total (List.forall_mem_map.mpr fun property hProperty => ?_)
    obtain ⟨hText, hResolves⟩ := h.properties object hObject property hProperty
    exact Field.print_total (h.propertyType .python hObject hProperty) (keyFieldName_total hText)
      (h.revives _ _ (isNamed_pair object.name hText) hResolves)

theorem paramsOf_total (h : comm.Settled) {method : Method} (hMethod : method ∈ comm.methods) :
    (paramsOf comm method).print.outcome = .ok () := by
  refine Record.print_total (List.forall_mem_map.mpr fun param hParam => ?_)
  exact Field.print_total (h.paramType .python hMethod hParam) ⟨_, rfl⟩
    (h.revives _ _ (isNamed_paramContext _ _) (h.params method hMethod param hParam))

theorem requestOf_total (method : Method) : (requestOf comm method).print.outcome = .ok () := by
  have hParams : ∀ field ∈ (paramsField method).toList,
      ∃ statements, field.print.outcome = .ok statements := by
    unfold paramsField
    split
    · exact List.forall_mem_singleton.mpr (Field.print_total ⟨_, rfl⟩ ⟨_, rfl⟩ ⟨_, rfl⟩)
    · exact List.forall_mem_nil _
  obtain ⟨statements, hFields⟩ := printFields_total hParams
  exact Emission.bind_outcome.mpr ⟨(), rfl, Emission.bind_outcome.mpr ⟨statements, hFields, rfl⟩⟩

theorem replyOf_total (h : comm.Settled) {method : Method} (hMethod : method ∈ comm.methods)
    {schema : Schema} (hReply : method.reply? = some schema) :
    (replyOf comm method schema).print.outcome = .ok () := by
  have hResult : ∃ statements,
      (replyOf comm method schema).result.print.outcome = .ok statements :=
    Field.print_total (h.replyType .python hMethod hReply) ⟨_, rfl⟩ ⟨_, rfl⟩
  obtain ⟨statements, hField⟩ := hResult
  exact Emission.bind_outcome.mpr ⟨(), rfl, Emission.bind_outcome.mpr ⟨statements, hField, rfl⟩⟩

theorem messages_total (h : comm.Settled) : (messages comm).print.outcome = .ok () := by
  have hRequest : ∀ request ∈ (messages comm).requests, request.print.outcome = .ok () :=
    List.forall_mem_map.mpr fun method _ => requestOf_total method
  have hReply : ∀ reply ∈ (messages comm).replies, reply.print.outcome = .ok () := by
    intro reply hMem
    obtain ⟨method, hMethod, hOf⟩ := List.mem_filterMap.mp hMem
    obtain ⟨schema, hSchema, rfl⟩ := Option.map_eq_some_iff.mp hOf
    exact replyOf_total h (List.mem_append_left comm.frontendMethods hMethod) hSchema
  rw [Messages.print]
  simp only [Emission.bind_outcome]
  exact ⟨(), rfl, (), Emission.forAll_ok.mpr hRequest, (), Emission.forAll_ok.mpr hReply,
    (), rfl, rfl⟩

theorem resultOf_total (h : comm.Settled) {method : Method} (hMethod : method ∈ comm.methods) :
    ∃ type, resultOf comm method = .ok type := by
  unfold resultOf
  split
  · next schema hReply => exact h.replyType .python hMethod hReply
  · exact ⟨_, rfl⟩

theorem handler_total (h : comm.Settled) : (handler comm).print.outcome = .ok () := by
  have hHandler : ∀ member ∈ (handler comm).handlers, member.print.outcome = .ok () := by
    refine List.forall_mem_map.mpr fun method hMethod => ?_
    obtain ⟨type, hType⟩ := resultOf_total h (List.mem_append_left comm.frontendMethods hMethod)
    exact Emission.bind_outcome.mpr ⟨type, hType, rfl⟩
  exact Emission.bind_outcome.mpr ⟨(), rfl, Emission.bind_outcome.mpr
    ⟨(), Emission.forAll_ok.mpr hHandler, rfl⟩⟩

/-- No section of the file ends with a fault. -/
theorem printSection_total (h : comm.Settled) (part : Section) :
    (printSection comm part).outcome = .ok () := by
  cases part with
  | header => rfl
  | aliases =>
      refine Emission.forAll_ok.mpr fun entry hEntry => ?_
      exact Alias.print_total (typeName_of_isText (h.aliases entry hEntry).1)
        (h.aliasType .python hEntry)
  | objects =>
      exact Emission.flatMap_ok.mpr ⟨fun object hObject => objectOf_total h hObject, h.objects⟩
  | enums => exact Emission.flatMap_ok.mpr ⟨fun declared _ => rfl, h.enums⟩
  | paramRecords =>
      refine Emission.forAll_ok.mpr fun method hMethod => ?_
      exact paramsOf_total h (mem_methods_of_hasParams hMethod)
  | backendUnions => exact messages_total h
  | frontendEvents => rfl
  | client =>
      rw [printSection]
      split
      · exact Emission.bind_outcome.mpr ⟨(), handler_total h, rfl⟩
      · rfl

end Python

/-! ## Whole files -/

theorem render_of_settled (h : comm.Settled) (target : Target) :
    ∃ text, target.render comm = .ok text := by
  have hPrint : (target.print comm).outcome = .ok () := by
    refine Emission.forAll_ok.mpr fun part _ => ?_
    cases target with
    | typeScript => exact TypeScript.printSection_total h part
    | rust => exact Rust.printSection_total h part
    | python => exact Python.printSection_total h part
  exact ⟨_, map_eq_ok.mpr ⟨_, Emission.toItems_ok.mpr ⟨hPrint, rfl⟩, rfl⟩⟩

/-- **Validation is enough for rendering.** A comm whose contracts are read from documents with
texts for keys, and no shared schema of which leads back to itself, can be rendered for all targets
if it passes validation. -/
theorem render_of_validate {comm : Comm} {warnings : List String}
    (hRead : ∀ contract ∈ comm.contracts, ∃ direction source document,
      Contract.read direction source document = .ok contract ∧
        (Value.mapping document none).hasTextKeys = true)
    (hAcyclic : comm.IsAcyclic) (hValid : validate comm = .ok warnings) (target : Target) :
    ∃ text, target.render comm = .ok text := by
  have hKeys : ∀ contract ∈ comm.contracts, contract.HasTextKeys := by
    intro contract hContract
    obtain ⟨direction, source, document, hRead, hTexts⟩ := hRead contract hContract
    exact hasTextKeys_of_readContract hRead hTexts
  exact render_of_settled (settled_of_checked (checked_of_validate hValid) hKeys hAcyclic) target

/-! ## A valid comm -/

/-- A document with one method, which replies with a list of shared values. -/
def listDocument : Mapping :=
  let mapping (entries : List (String × Value)) : Value :=
    .mapping (entries.map fun entry => (.text entry.1, entry.2)) none
  let reference (key : String) : Value :=
    mapping [("$ref", .text ("#/components/schemas/" ++ key))]
  let method := mapping [("name", .text "list"), ("summary", .text "List the sizes"),
    ("result", mapping [("schema", reference "sizes")])]
  let schemas := mapping [("size", mapping [("enum", .list [.text "small"] none)]),
    ("sizes", mapping [("type", .text "array"), ("items", reference "size")])]
  [(.text "methods", .list [method] none),
    (.text "components", mapping [("schemas", schemas)])]

/-- The contract in the document. -/
def listContract : Contract where
  direction := .backend
  source := "shop-backend-openrpc.json"
  methods :=
    [⟨"list", "List the sizes", none, [], some (.reference "#/components/schemas/sizes" none)⟩]
  schemas := [(.text "size", .enumeration ["small"] none),
    (.text "sizes", .array (.reference "#/components/schemas/size" none) none)]
  document := listDocument

/-- The comm with that contract. -/
def listComm : Comm := ⟨"shop", some listContract, none, rfl⟩

theorem read_reference (source : Option String) (location : Key) {pointer : String}
    (h : pointer ≠ "") :
    Schema.read source location (.mapping [(.text "$ref", .text pointer)] none) =
      .ok (.reference pointer none) := by
  rw [Schema.read]
  exact if_neg h

theorem read_listDocument :
    Contract.read .backend "shop-backend-openrpc.json" listDocument = .ok listContract := by
  let source := "shop-backend-openrpc.json"
  have hSize : Schema.read (some source) (.text "size")
      (.mapping [(.text "enum", .list [.text "small"] none)] none) =
      .ok (.enumeration ["small"] none) := by
    rw [Schema.read]
    rfl
  have hItems : Schema.read (some source) (.text "sizes[]")
      (.mapping [(.text "$ref", .text "#/components/schemas/size")] none) =
      .ok (.reference "#/components/schemas/size" none) := read_reference _ _ (by decide)
  have hSizes : Schema.read (some source) (.text "sizes")
      (.mapping [(.text "type", .text "array"),
        (.text "items", .mapping [(.text "$ref", .text "#/components/schemas/size")] none)]
        none) = .ok (.array (.reference "#/components/schemas/size" none) none) := by
    rw [Schema.read]
    exact bind_eq_ok.mpr ⟨_, rfl, bind_eq_ok.mpr ⟨_, hItems, rfl⟩⟩
  have hSchemas : Contract.readSchemas source
      [(.text "size", .mapping [(.text "enum", .list [.text "small"] none)] none),
        (.text "sizes", .mapping [(.text "type", .text "array"),
          (.text "items", .mapping [(.text "$ref", .text "#/components/schemas/size")] none)]
          none)] = .ok listContract.schemas :=
    bind_eq_ok.mpr ⟨_, hSize, bind_eq_ok.mpr ⟨_, bind_eq_ok.mpr ⟨_, hSizes, rfl⟩, rfl⟩⟩
  have hResult : Schema.read (some source) (.text "list.result")
      (.mapping [(.text "$ref", .text "#/components/schemas/sizes")] none) =
      .ok (.reference "#/components/schemas/sizes" none) := read_reference _ _ (by decide)
  have hMethod : Method.read source (.mapping [(.text "name", .text "list"),
      (.text "summary", .text "List the sizes"), (.text "result", .mapping [(.text "schema",
        .mapping [(.text "$ref", .text "#/components/schemas/sizes")] none)] none)] none) =
      .ok ⟨"list", "List the sizes", none, [],
        some (.reference "#/components/schemas/sizes" none)⟩ :=
    bind_eq_ok.mpr ⟨[], rfl, bind_eq_ok.mpr ⟨_, map_eq_ok.mpr ⟨_, hResult, rfl⟩, rfl⟩⟩
  exact bind_eq_ok.mpr ⟨_, mapM_eq_ok.mpr (.cons hMethod .nil),
    bind_eq_ok.mpr ⟨_, hSchemas, rfl⟩⟩

/-- The list leads to its items, and nothing else leads anywhere. -/
theorem leads_listComm {key next : String} (h : listComm.Leads key next) :
    key = "sizes" ∧ next = "size" := by
  obtain ⟨schema, hShared, hPointer, hSegment⟩ := h
  obtain ⟨contract, hContract, hLookup⟩ := List.exists_of_findSome?_eq_some hShared
  rw [List.mem_singleton.mp hContract] at hLookup
  rcases List.mem_cons.mp (mem_of_lookupEntry hLookup) with hFirst | hSecond
  · cases hFirst
    cases hPointer
  · cases List.mem_singleton.mp hSecond
    refine ⟨rfl, ?_⟩
    rw [← hSegment, ← Option.some.inj hPointer]
    decide

theorem isAcyclic_listComm : listComm.IsAcyclic := by
  intro key hLoop
  obtain ⟨next, hFirst, -⟩ := Relation.TransGen.head'_iff.mp hLoop
  obtain ⟨last, -, hLast⟩ := Relation.TransGen.tail'_iff.mp hLoop
  have hSame := (leads_listComm hFirst).1.symm.trans (leads_listComm hLast).2
  exact absurd hSame (by decide)

theorem render_listComm :
    validate listComm = .ok [] ∧ ∀ target : Target, ∃ text, target.render listComm = .ok text := by
  have hRead : ∀ contract ∈ listComm.contracts, ∃ direction source document,
      Contract.read direction source document = .ok contract ∧
        (Value.mapping document none).hasTextKeys = true := by
    refine List.forall_mem_singleton.mpr ⟨_, _, listDocument, read_listDocument, ?_⟩
    decide +kernel
  have hValid : validate listComm = .ok [] := by
    decide +kernel
  exact ⟨hValid, render_of_validate hRead isAcyclic_listComm hValid⟩

end CommBindings
