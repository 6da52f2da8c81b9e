import CommBindings.Proofs.Target.Statements

set_option autoImplicit false

/-! # Types at import time

For each section that declares types for values, when its statements find what they look up: an
alias that is not quoted looks up the name for lists (`aliases_intended`), an object that stands for
arbitrary values looks up theirs, and a data class looks up the function for attributes, which an
attribute of its own may have replaced (`objects_intended`, `params_intended`).
-/

namespace CommBindings.Python

variable {comm : Comm} {hasProtocol : Bool} {before : List Statement} {name : String}

/-! ## Aliases -/

/-- The alias is not quoted, and it is one for a list. -/
def Alias.IsEagerList (declared : Alias) : Prop :=
  declared.isForward = false ∧
    ∃ opening element closing, declared.type = .ok (.listOf opening element closing)

theorem alias_declares (entry : Key × Schema) : (aliasOf comm entry).statement.Declares where
  builtin := Origin.noConfusion
  header := Origin.noConfusion
  name := by
    show Naming.startsSmall (entry.1.typeName.toOption.getD "") = false
    cases hName : entry.1.typeName with
    | error fault => rfl
    | ok name => exact Naming.startsSmall_typeName hName

/-- The type of a plain value is a name of the language, or none at all. -/
theorem primitive_uses {context : Context} {kind : Kind} {description : Option String}
    {type : TypeExpr} (h : typeOf comm context (.primitive kind description) = .ok type) :
    ∀ use ∈ typeUses type, use.IsSmall := by
  have hTable : ∀ kind : Kind, ∃ token, table.lookup kind.word = some token ∧
      ∀ use ∈ tokenUses token, ∃ name ∈ smallNames, use = .fixed name := by
    intro kind
    cases kind <;> exact ⟨_, rfl, by decide⟩
  obtain ⟨token, hToken, hUses⟩ := hTable kind
  obtain ⟨found, hFound, rfl⟩ := fieldType_primitive_ok h
  obtain rfl := Option.some.inj (hToken.symm.trans hFound)
  exact hUses

theorem list_uses {context : Context} {items : Schema} {description : Option String}
    {type : TypeExpr} (h : typeOf comm context (.array items description) = .ok type) :
    ∃ inner element, typeOf comm inner items = .ok element ∧ type = .listOf "List[" element "]" ∧
      typeUses type = .fixed "List" :: typeUses element := by
  obtain ⟨_, inner, element, _, ⟨⟩, ⟨⟩, -, hElement, rfl⟩ := fieldType_array_ok h
  refine ⟨inner, element, hElement, rfl, ?_⟩
  have hOpen : tokenUses "List[" = [.fixed "List"] := by
    decide
  have hClose : tokenUses "]" = [] := by
    decide
  rw [typeUses, hOpen, hClose, List.append_nil, List.singleton_append]

/-- In a type that is not quoted only lists and names of the language occur. -/
theorem eager_uses {context : Context} {schema : Schema} {type : TypeExpr}
    (hForward : isForward schema = false) (h : typeOf comm context schema = .ok type) :
    ∀ use ∈ typeUses type, use.IsSmall ∨ use = .fixed "List" := by
  fun_induction isForward schema generalizing context type with
  | case1 items description ih =>
      obtain ⟨inner, element, hElement, -, hUses⟩ := list_uses h
      rw [hUses]
      exact List.forall_mem_cons.mpr ⟨Or.inr rfl, ih hForward hElement⟩
  | case2 kind description => exact fun use hUse => Or.inl (primitive_uses h use hUse)
  | case3 schema hArray hPrimitive => cases hForward

theorem eager_list {context : Context} {schema : Schema} {type : TypeExpr}
    (hForward : isForward schema = false) (h : typeOf comm context schema = .ok type) :
    .fixed "List" ∈ typeUses type ↔
      ∃ opening element closing, type = .listOf opening element closing := by
  cases schema with
  | primitive kind description =>
      have hSmall : ¬ (Use.fixed "List").IsSmall := by
        rintro ⟨name, hName, hSame⟩
        have hList : "List" = name := congrArg Use.name hSame
        rw [← hList] at hName
        exact absurd hName (by decide)
      obtain ⟨token, -, rfl⟩ := fieldType_primitive_ok h
      refine iff_of_false (fun hUse => hSmall (primitive_uses h _ hUse)) ?_
      rintro ⟨opening, element, closing, hList⟩
      cases hList
  | array items description =>
      obtain ⟨inner, element, -, hList, hUses⟩ := list_uses h
      rw [hUses]
      exact iff_of_true List.mem_cons_self ⟨_, _, _, hList⟩
  | object node => cases hForward
  | enumeration values description => cases hForward
  | reference pointer description => cases hForward

theorem mem_alias_uses {entry : Key × Schema} {use : Use} :
    use ∈ (aliasOf comm entry).statement.allUses ↔ isForward entry.2 = false ∧
      ∃ type, typeOf comm [entry.1] entry.2 = .ok type ∧ use ∈ typeUses type := by
  show use ∈ (if isForward entry.2 then []
    else ((typeOf comm [entry.1] entry.2).toOption.map typeUses).getD []) ++ [] ↔ _
  rw [List.append_nil]
  split
  · next hForward => simp [hForward]
  · next hForward =>
    cases typeOf comm [entry.1] entry.2 with
    | error fault => simp [Except.toOption]
    | ok type => simp [Except.toOption, hForward]

theorem alias_uses (entry : Key × Schema) :
    ∀ use ∈ (aliasOf comm entry).statement.allUses, use.IsSmall ∨ use = .fixed "List" := by
  intro use hUse
  obtain ⟨hForward, type, hType, hUse⟩ := mem_alias_uses.mp hUse
  exact eager_uses hForward hType use hUse

theorem list_mem_alias_uses {entry : Key × Schema} :
    .fixed "List" ∈ (aliasOf comm entry).statement.allUses ↔
      (aliasOf comm entry).IsEagerList := by
  rw [mem_alias_uses]
  refine and_congr_right fun hForward => ⟨?_, ?_⟩
  · rintro ⟨type, hType, hUse⟩
    obtain ⟨opening, element, closing, rfl⟩ := (eager_list hForward hType).mp hUse
    exact ⟨opening, element, closing, hType⟩
  · rintro ⟨opening, element, closing, hType⟩
    exact ⟨_, hType, (eager_list hForward hType).mpr ⟨_, _, _, rfl⟩⟩

theorem alias_name {entry : Key × Schema} (hName : name ≠ "") :
    (aliasOf comm entry).statement.name = name ↔ entry.1.typeName = .ok name := by
  show entry.1.typeName.toOption.getD "" = name ↔ _
  cases entry.1.typeName with
  | error fault => exact iff_of_false hName.symm (fun h => by cases h)
  | ok other => exact Except.ok.injEq other name ▸ Iff.rfl

theorem aliases_intended :
    Intended (headScope hasProtocol) (statementsIn comm .aliases) ↔
      comm.aliases.Pairwise fun first later =>
        first.1.typeName = .ok "List" → ¬ (aliasOf comm later).IsEagerList := by
  have hDeclares : ∀ statement ∈ statementsIn comm .aliases, statement.Declares :=
    List.forall_mem_map.mpr fun entry _ => alias_declares entry
  have hUses : ∀ statement ∈ statementsIn comm .aliases, ∀ use ∈ statement.allUses,
      use.IsSmall ∨ use = .fixed "List" := List.forall_mem_map.mpr fun entry _ => alias_uses entry
  have hFirst : ∀ statement ∈ ([] : List Statement), statement.Declares := List.forall_mem_nil _
  show Intended (extend (headScope hasProtocol) []) _ ↔ _
  rw [capital_intended_iff (capital_isIntended (by decide)) hFirst hDeclares hUses, statementsIn,
    List.forall_mem_map, List.forall_mem_map, List.pairwise_map]
  have hSpared : ∀ entry ∈ comm.aliases, (aliasOf comm entry).statement.SparesItself :=
    fun entry _ => List.Pairwise.nil
  have hFound : ∀ entry ∈ comm.aliases, Use.fixed "List" ∈ (aliasOf comm entry).statement.allUses →
      "List" ∉ ([] : List Statement).map Statement.name := fun _ _ _ => List.not_mem_nil
  rw [and_iff_right hSpared, and_iff_right hFound]
  refine List.Pairwise.iff fun first later => ?_
  rw [alias_name (by decide), list_mem_alias_uses]

/-! ## Data classes -/

theorem line_spares_iff {body : List Line} {fields : List Field} :
    (body ++ revivalLines fields).Pairwise (fun first later =>
      ∀ use ∈ later.uses, use.name ≠ first.name) ↔
    body.Pairwise fun first later => ∀ use ∈ later.uses, use.name ≠ first.name := by
  have hLines : ∀ line ∈ revivalLines fields, line.uses = [] := by
    intro line hLine
    unfold revivalLines at hLine
    split at hLine
    · exact absurd hLine List.not_mem_nil
    · rw [List.mem_singleton.mp hLine]
  have hNone : ∀ first, ∀ line ∈ revivalLines fields, ∀ use ∈ line.uses,
      use.name ≠ Line.name first := by
    intro first line hLine use hUse
    rw [hLines line hLine] at hUse
    exact absurd hUse List.not_mem_nil
  rw [List.pairwise_append]
  refine and_iff_left ⟨?_, fun first _ => hNone first⟩
  exact List.pairwise_of_forall_mem_list fun first _ line hLine => hNone first line hLine

theorem revivalLines_uses (fields : List Field) : (revivalLines fields).flatMap Line.uses = [] := by
  unfold revivalLines
  split <;> rfl

theorem record_uses (record : Record) : ∀ use ∈ record.statement.allUses, use.IsSmall := by
  intro use hUse
  have hUse : use ∈ Use.fixed "dataclass" ::
      (record.fields.map (Field.line record.name) ++ revivalLines record.fields).flatMap
        Line.uses := hUse
  rw [List.flatMap_append, revivalLines_uses, List.append_nil, List.flatMap_map] at hUse
  rcases List.mem_cons.mp hUse with rfl | hUse
  · exact ⟨_, by decide, rfl⟩
  · obtain ⟨field, -, hField⟩ := List.mem_flatMap.mp hUse
    rw [List.mem_singleton.mp hField]
    exact ⟨_, by decide, rfl⟩

theorem inClass_eq_field {className name : String} :
    inClass className name = "field" ↔ name = "field" := by
  unfold inClass
  constructor
  · intro h
    split at h
    · -- a private name keeps a low line at its start
      have hStart := congrArg (fun text => text.toList.head?) h
      simp only [String.toList_append] at hStart
      exact absurd hStart (by simp)
    · exact h
  · rintro rfl
    rfl

theorem record_spares_iff (record : Record) :
    record.statement.SparesItself ↔
      record.fields.Pairwise fun first _ =>
        (first.name.toOption.map FieldName.identifier).getD "" ≠ "field" := by
  show List.Pairwise _ (record.fields.map (Field.line record.name) ++ revivalLines record.fields) ↔ _
  rw [line_spares_iff, List.pairwise_map]
  refine List.Pairwise.iff fun first later => ?_
  show (∀ use ∈ [Use.fixed "field"], _) ↔ _
  rw [List.forall_mem_singleton]
  exact ne_comm.trans (not_congr inClass_eq_field)

/-- A coined name begins with no small letter, as its stem does not. -/
theorem method_declares_coined (method : Method) (ending : Ending) {statement : Statement}
    (hBuiltin : statement.origin ≠ .builtin) (hHeader : statement.origin ≠ .header)
    (hName : statement.name = Naming.pascalCase method.name ++ ending.text) :
    statement.DeclaresCoined :=
  ⟨hBuiltin, hHeader, _, ending, Naming.startsSmall_pascalCase _, hName⟩

theorem params_declare :
    ∀ statement ∈ statementsIn comm .paramRecords, statement.DeclaresCoined :=
  List.forall_mem_map.mpr fun method _ =>
    method_declares_coined method .params Origin.noConfusion Origin.noConfusion rfl

theorem params_intended (hBefore : ∀ statement ∈ before, statement.Declares) :
    Intended (extend (headScope hasProtocol) before) (statementsIn comm .paramRecords) ↔
      ∀ method ∈ comm.methodsWithParams, method.params.Pairwise fun first _ =>
        first.name ≠ "field" := by
  rw [small_intended_iff hBefore fun statement hStatement =>
      (params_declare statement hStatement).declares, statementsIn, List.forall_mem_map]
  · refine forall₂_congr fun method _ => ?_
    rw [record_spares_iff, paramsOf, List.pairwise_map]
    exact List.Pairwise.iff fun first _ => not_congr Naming.pythonField_eq_field
  · exact List.forall_mem_map.mpr fun method _ => record_uses _

/-! ## Objects and enumerations -/

theorem objectName_small {context : Context} {node : ObjectSchema} {name : String}
    (h : objectName context node = .ok name) : Naming.startsSmall name = false := by
  obtain ⟨key, -, hName⟩ := bind_eq_ok.mp h
  exact Naming.startsSmall_typeName hName

theorem enumName_small {context : Context} {name : String} (h : enumName context = .ok name) :
    Naming.startsSmall name = false := by
  unfold enumName at h
  split at h
  · obtain ⟨first, hFirst, h⟩ := bind_eq_ok.mp h
    obtain ⟨second, hSecond, h⟩ := bind_eq_ok.mp h
    cases h
    exact Naming.startsSmall_append (Naming.startsSmall_typeName hFirst)
      (Naming.startsSmall_typeName hSecond)
  · exact Naming.startsSmall_typeName h
  · cases h

theorem object_name (object : ObjectDeclaration) :
    (objectOf comm object).statement.name = object.name := by
  unfold objectOf
  split <;> rfl

theorem object_origin (object : ObjectDeclaration) :
    (objectOf comm object).statement.origin = .other := by
  unfold objectOf
  split <;> rfl

theorem objects_declare (h : comm.objects.outcome = .ok ()) :
    ∀ statement ∈ statementsIn comm .objects, statement.Declares := by
  refine List.forall_mem_map.mpr fun object hObject => ?_
  obtain ⟨node, -, hName, -⟩ := (objects_declares h).2.origin hObject
  refine ⟨by rw [object_origin]; exact Origin.noConfusion,
    by rw [object_origin]; exact Origin.noConfusion, ?_⟩
  rw [object_name]
  obtain ⟨found, -, hNamed⟩ := Option.map_eq_some_iff.mp hName
  exact objectName_small hNamed

theorem object_uses (object : ObjectDeclaration) :
    (∀ use ∈ (objectOf comm object).statement.allUses, use.IsSmall ∨ use = .fixed "JsonData") ∧
      (.fixed "JsonData" ∈ (objectOf comm object).statement.allUses ↔
        object.node.isAny = true) := by
  have hLarge : ¬ (Use.fixed "JsonData").IsSmall := by
    rintro ⟨name, hName, hSame⟩
    have hData : "JsonData" = name := congrArg Use.name hSame
    rw [← hData] at hName
    exact absurd hName (by decide)
  by_cases hAny : object.node.isAny = true
  · have hToken : tokenUses "JsonData" = [.fixed "JsonData"] := by
      decide
    have hUses : (objectOf comm object).statement.allUses = [.fixed "JsonData"] := by
      rw [objectOf, if_pos hAny]
      show tokenUses "JsonData" ++ [] = _
      rw [hToken, List.append_nil]
    rw [hUses]
    exact ⟨List.forall_mem_singleton.mpr (Or.inr rfl),
      iff_of_true (List.mem_singleton_self _) hAny⟩
  · have hUses : ∀ use ∈ (objectOf comm object).statement.allUses, use.IsSmall := by
      rw [objectOf, if_neg hAny]
      exact record_uses _
    exact ⟨fun use hUse => Or.inl (hUses use hUse),
      iff_of_false (fun hUse => hLarge (hUses _ hUse)) hAny⟩

theorem key_line_name (object : ObjectDeclaration) (property : Key × Schema) :
    ((fieldOf comm object property).name.toOption.map FieldName.identifier).getD "" = "field" ↔
      property.1 = .text "field" := by
  show ((keyFieldName property.1).toOption.map FieldName.identifier).getD "" = "field" ↔ _
  unfold keyFieldName
  split
  · next name hKey =>
    rw [hKey, Scalar.text.injEq]
    exact Naming.pythonField_eq_field
  · next hOther =>
    refine iff_of_false ?_ (hOther "field")
    show "" ≠ "field"
    decide

theorem object_spares_iff (object : ObjectDeclaration) :
    (objectOf comm object).statement.SparesItself ↔
      (object.node.isAny = false → object.node.properties.Pairwise fun first _ =>
        first.1 ≠ .text "field") := by
  by_cases hAny : object.node.isAny = true
  · have hAlias : (objectOf comm object).statement.SparesItself := by
      rw [objectOf, if_pos hAny]
      exact List.Pairwise.nil
    exact iff_of_true hAlias fun hRecord => absurd hAny (Bool.eq_false_iff.mp hRecord)
  · rw [objectOf, if_neg hAny, ObjectType.statement, record_spares_iff, List.pairwise_map,
      imp_iff_right (Bool.not_eq_true _ ▸ hAny)]
    exact List.Pairwise.iff fun first _ => not_congr (key_line_name object first)

theorem objects_intended (h : comm.objects.outcome = .ok ())
    (hBefore : ∀ statement ∈ before, statement.Declares) :
    Intended (extend (headScope hasProtocol) before) (statementsIn comm .objects) ↔
      (∀ object ∈ comm.objects.items, object.node.isAny = false →
        object.node.properties.Pairwise fun first _ => first.1 ≠ .text "field") ∧
      (∀ object ∈ comm.objects.items, object.node.isAny = true →
        "JsonData" ∉ before.map Statement.name) ∧
      comm.objects.items.Pairwise fun first later =>
        first.name = "JsonData" → later.node.isAny = false := by
  rw [capital_intended_iff (capital_isIntended (by decide)) hBefore (objects_declare h)
    (List.forall_mem_map.mpr fun object _ => (object_uses object).1), statementsIn,
    List.forall_mem_map, List.forall_mem_map, List.pairwise_map]
  refine and_congr ?_ (and_congr ?_ ?_)
  · exact forall₂_congr fun object _ => object_spares_iff object
  · exact forall₂_congr fun object _ => by rw [(object_uses object).2]
  · refine List.Pairwise.iff fun first later => ?_
    rw [object_name, (object_uses later).2, Bool.not_eq_true]

theorem enumeration_spares (enumeration : Enumeration) (origin : Origin) :
    (enumeration.statement origin).SparesItself := by
  refine List.pairwise_map.mpr (List.pairwise_of_forall fun first later => ?_)
  exact List.forall_mem_nil _

theorem enumeration_uses (enumeration : Enumeration) (origin : Origin) :
    ∀ use ∈ (enumeration.statement origin).allUses, use.IsSmall := by
  have hBody : (enumeration.statement origin).body.flatMap Line.uses = [] := by
    show (enumeration.members.map _).flatMap Line.uses = []
    rw [List.flatMap_map]
    exact List.flatMap_eq_nil_iff.mpr fun _ _ => rfl
  rw [Statement.allUses, hBody, List.append_nil]
  refine List.forall_mem_map.mpr fun name hName => ⟨name, ?_, rfl⟩
  revert name
  decide

theorem enums_declare (h : comm.enums.outcome = .ok ()) :
    ∀ statement ∈ statementsIn comm .enums, statement.Declares := by
  refine List.forall_mem_map.mpr fun declared hDeclared => ?_
  refine ⟨Origin.noConfusion, Origin.noConfusion, ?_⟩
  obtain ⟨node, -, hName, -⟩ := (enums_declares h).origin hDeclared
  obtain ⟨found, -, hNamed⟩ := Option.map_eq_some_iff.mp hName
  exact enumName_small hNamed

theorem enums_intended (h : comm.enums.outcome = .ok ())
    (hBefore : ∀ statement ∈ before, statement.Declares) :
    Intended (extend (headScope hasProtocol) before) (statementsIn comm .enums) := by
  refine (small_intended_iff hBefore (enums_declare h) ?_).mpr ?_
  · exact List.forall_mem_map.mpr fun declared _ => enumeration_uses _ _
  · exact List.forall_mem_map.mpr fun declared _ => enumeration_spares _ _

/-! ## All types -/

/-- The statements for the types of values. -/
def typeStatements (comm : Comm) : List Statement :=
  statementsIn comm .aliases ++ statementsIn comm .objects ++ statementsIn comm .enums ++
    statementsIn comm .paramRecords

theorem aliases_declare : ∀ statement ∈ statementsIn comm .aliases, statement.Declares :=
  List.forall_mem_map.mpr fun entry _ => alias_declares entry

theorem types_declare (hObjects : comm.objects.outcome = .ok ())
    (hEnums : comm.enums.outcome = .ok ()) :
    ∀ statement ∈ typeStatements comm, statement.Declares := by
  simp only [typeStatements, List.forall_mem_append]
  exact ⟨⟨⟨aliases_declare, objects_declare hObjects⟩, enums_declare hEnums⟩,
    fun statement h => (params_declare statement h).declares⟩

theorem types_origin : ∀ statement ∈ typeStatements comm, statement.origin = .other := by
  simp only [typeStatements, List.forall_mem_append]
  refine ⟨⟨⟨?_, ?_⟩, ?_⟩, ?_⟩
  · exact List.forall_mem_map.mpr fun entry _ => rfl
  · exact List.forall_mem_map.mpr fun object _ => object_origin object
  · exact List.forall_mem_map.mpr fun declared _ => rfl
  · exact List.forall_mem_map.mpr fun method _ => rfl

theorem alias_takes (hName : name ≠ "") :
    name ∈ (statementsIn comm .aliases).map Statement.name ↔
      ∃ entry ∈ comm.aliases, entry.1.typeName = .ok name := by
  rw [statementsIn, List.map_map, List.mem_map]
  exact exists_congr fun entry => and_congr_right fun _ => alias_name hName

theorem types_intended (hObjects : comm.objects.outcome = .ok ())
    (hEnums : comm.enums.outcome = .ok ()) :
    Intended (headScope hasProtocol) (typeStatements comm) ↔
      (comm.aliases.Pairwise fun first later =>
        first.1.typeName = .ok "List" → ¬ (aliasOf comm later).IsEagerList) ∧
      ((∀ object ∈ comm.objects.items, object.node.isAny = false →
          object.node.properties.Pairwise fun first _ => first.1 ≠ .text "field") ∧
        (∀ object ∈ comm.objects.items, object.node.isAny = true →
          ¬ ∃ entry ∈ comm.aliases, entry.1.typeName = .ok "JsonData") ∧
        comm.objects.items.Pairwise fun first later =>
          first.name = "JsonData" → later.node.isAny = false) ∧
      ∀ method ∈ comm.methodsWithParams, method.params.Pairwise fun first _ =>
        first.name ≠ "field" := by
  have hFirst : ∀ statement ∈ statementsIn comm .aliases ++ statementsIn comm .objects,
      statement.Declares :=
    List.forall_mem_append.mpr ⟨aliases_declare, objects_declare hObjects⟩
  have hSecond : ∀ statement ∈ statementsIn comm .aliases ++ statementsIn comm .objects ++
      statementsIn comm .enums, statement.Declares :=
    List.forall_mem_append.mpr ⟨hFirst, enums_declare hEnums⟩
  rw [typeStatements, intended_append, intended_append, intended_append, aliases_intended,
    objects_intended hObjects aliases_declare, and_iff_left (enums_intended hEnums hFirst),
    params_intended hSecond, alias_takes (by decide), and_assoc]

end CommBindings.Python
