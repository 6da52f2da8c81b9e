import CommBindings.Proofs.Target.Rendering

set_option autoImplicit false

/-! # Attributes are revived as their types ask for

The type of an attribute and the way in which it is revived come from two recursions over its
schema. The type of a reference is the name at the end of its pointer, wherever that leads; revival
follows the pointer, but only if it is the usual one of a shared schema. Where all references on the
way are usual ones, and each name that is met with has one meaning in the file (`Traceable`), an
attribute is revived by the class in which its type unfolds, under as many lists
(`revival_of_traceable`). Where the way comes to another reference (`Lost`), the attribute is not
revived, even if its type is a class (`owner_not_revived`).
-/

namespace CommBindings

namespace Python

/-! ## The text of a record -/

/-- The declaration of an attribute whose type and name could be formed. -/
def Field.attribute? (field : Field) : Option String :=
  match field.type, field.name with
  | .ok type, .ok name =>
    some (attributeText name type.text field.description field.isOptional)
  | _, _ => none

/-- The statement that revives an attribute, if the attribute is revived. -/
def Field.statement? (field : Field) : Option String :=
  match field.name, field.revival with
  | .ok name, .ok (some revival) =>
    some (revivalStatement name.identifier field.isOptional revival)
  | _, _ => none

/-- The fragments of a data class: its head, its attributes, and the method that revives them with
one statement for each that is revived. -/
def Record.fragments (record : Record) : List String :=
  recordStart record.name record.doc :: (record.fields.filterMap Field.attribute? ++
    [postInit record.revivalDoc (record.fields.filterMap Field.statement?), "\n"])

theorem Field.print_ok {field : Field} {statements : List String}
    (h : field.print.outcome = .ok statements) :
    field.print.items = field.attribute?.toList ∧ statements = field.statement?.toList := by
  obtain ⟨type, hType, h⟩ := Emission.bind_outcome.mp h
  obtain ⟨name, hName, h⟩ := Emission.bind_outcome.mp h
  obtain ⟨-, -, h⟩ := Emission.bind_outcome.mp h
  obtain ⟨revival, hRevival, h⟩ := Emission.bind_outcome.mp h
  have hType : field.type = .ok type := hType
  have hName : field.name = .ok name := hName
  have hRevival : field.revival = .ok revival := hRevival
  constructor
  · rw [Field.print, hType, hName, hRevival, Field.attribute?, hType, hName]
    rfl
  · rw [← Except.ok.inj h, Field.statement?, hName, hRevival]
    cases revival <;> rfl

theorem printFields_ok {fields : List Field} {statements : List String}
    (h : (printFields fields).outcome = .ok statements) :
    (printFields fields).items = fields.filterMap Field.attribute? ∧
      statements = fields.filterMap Field.statement? := by
  induction fields generalizing statements with
  | nil =>
      cases h
      exact ⟨rfl, rfl⟩
  | cons field rest ih =>
      obtain ⟨first, hFirst, h⟩ := Emission.bind_outcome.mp h
      obtain ⟨others, hOthers, h⟩ := Emission.bind_outcome.mp h
      obtain ⟨hItems, hStatement⟩ := Field.print_ok hFirst
      obtain ⟨hRestItems, hStatements⟩ := ih hOthers
      constructor
      · rw [printFields, Emission.bind_items _ hFirst, Emission.bind_items _ hOthers, hItems,
          hRestItems, List.filterMap_cons]
        cases field.attribute? with
        | none => exact List.append_nil _
        | some text => exact congrArg (List.cons text) (List.append_nil _)
      · rw [← Except.ok.inj h, hStatement, hStatements, List.filterMap_cons]
        cases field.statement? <;> rfl

theorem Record.print_ok {record : Record} (h : record.print.outcome = .ok ()) :
    record.print.toItems = .ok record.fragments := by
  refine Emission.toItems_ok.mpr ⟨h, ?_⟩
  obtain ⟨-, -, h⟩ := Emission.bind_outcome.mp h
  obtain ⟨statements, hFields, -⟩ := Emission.bind_outcome.mp h
  obtain ⟨hItems, hStatements⟩ := printFields_ok hFields
  rw [Record.print, Emission.bind_items _ rfl, Emission.bind_items _ hFields, hItems,
    hStatements]
  rfl

/-! ## What names stand for -/

/-- What a declaration makes of a name: another name for a type, a name for arbitrary values, or
that of a class. -/
inductive Meaning where
  | synonym (type : TypeExpr)
  | anything
  | ofClass
  deriving Repr, DecidableEq

end Python

/-- What the declaration of the object makes of its name. -/
def ObjectSchema.meaning (node : ObjectSchema) : Python.Meaning :=
  if node.isAny then .anything else .ofClass

/-- What the declaration of a shared schema makes of its name, if it is no alias. -/
def Schema.meaning? : Schema → Option Python.Meaning
  | .object node => some node.meaning
  | .enumeration _ _ => some .ofClass
  | _ => none

namespace Python

/-- A declaration in the file gives the name a meaning. Whatever is declared that is neither an
alias nor an object is a class, or a choice of classes. -/
inductive Means (comm : Comm) (name : String) : Meaning → Prop where
  | synonym {entry : Key × Schema} {type : TypeExpr} (h : entry ∈ comm.aliases)
    (hName : entry.1.typeName = .ok name) (hType : typeOf comm [entry.1] entry.2 = .ok type) :
    Means comm name (.synonym type)
  | object {object : ObjectDeclaration} (h : object ∈ comm.objects.items)
    (hName : object.name = name) : Means comm name object.node.meaning
  | other {part : Section} (h : part ∈ comm.sections) (hAliases : part ≠ .aliases)
    (hObjects : part ≠ .objects) (hName : .ok name ∈ declaredIn comm part) :
    Means comm name .ofClass

/-- The name has no meaning but the given one. -/
def StandsFor (comm : Comm) (name : String) (meaning : Meaning) : Prop :=
  ∀ other, Means comm name other → other = meaning

/-- The type, with aliases followed and lists taken off, has so many levels of lists, and in them a
class, or else a token of the table or arbitrary values. -/
inductive Unfolds (comm : Comm) : TypeExpr → Nat → Option String → Prop where
  | token (text : String) : Unfolds comm (.token text) 0 none
  | listOf {opening closing : String} {element : TypeExpr} {levels : Nat} {className : Option String}
    (h : Unfolds comm element levels className) :
    Unfolds comm (.listOf opening element closing) (levels + 1) className
  | synonym {name : String} {type : TypeExpr} {levels : Nat} {className : Option String}
    (hName : Means comm name (.synonym type)) (h : Unfolds comm type levels className) :
    Unfolds comm (.named name) levels className
  | anything {name : String} (hName : Means comm name .anything) :
    Unfolds comm (.named name) 0 none
  | ofClass {name : String} (hName : Means comm name .ofClass) :
    Unfolds comm (.named name) 0 (some name)

variable {comm : Comm} {name : String}

theorem unfolds_synonym {type : TypeExpr} {levels : Nat} {className : Option String}
    (hName : StandsFor comm name (.synonym type)) (h : Unfolds comm (.named name) levels className) :
    Unfolds comm type levels className := by
  cases h with
  | synonym hMeans hUnfolds =>
      cases hName _ hMeans
      exact hUnfolds
  | anything hMeans => cases hName _ hMeans
  | ofClass hMeans => cases hName _ hMeans

theorem unfolds_anything {levels : Nat} {className : Option String}
    (hName : StandsFor comm name .anything) (h : Unfolds comm (.named name) levels className) :
    className = none := by
  cases h with
  | synonym hMeans hUnfolds => cases hName _ hMeans
  | anything hMeans => rfl
  | ofClass hMeans => cases hName _ hMeans

theorem unfolds_ofClass {levels : Nat} {className : Option String}
    (hName : StandsFor comm name .ofClass) (h : Unfolds comm (.named name) levels className) :
    levels = 0 ∧ className = some name := by
  cases h with
  | synonym hMeans hUnfolds => cases hName _ hMeans
  | anything hMeans => cases hName _ hMeans
  | ofClass hMeans => exact ⟨rfl, rfl⟩

/-! ## Following a schema -/

/-- All references on the way through the schema are the usual ones to shared schemas, and each name
that is met with stands for what is found there. -/
inductive Traceable (comm : Comm) : Context → Schema → Prop where
  | primitive {context : Context} {kind : Kind} {description : Option String} :
    Traceable comm context (.primitive kind description)
  | enumeration {context : Context} {values : List String} {description : Option String}
    (hName : ∀ name, enumName context = .ok name → StandsFor comm name .ofClass) :
    Traceable comm context (.enumeration values description)
  | object {context : Context} {node : ObjectSchema}
    (hName : ∀ name, objectName context node = .ok name → StandsFor comm name node.meaning) :
    Traceable comm context (.object node)
  | array {context inner : Context} {items : Schema} {description : Option String}
    (hInner : itemsContext context = .ok inner) (h : Traceable comm inner items) :
    Traceable comm context (.array items description)
  | shared {context : Context} {pointer : String} {description : Option String} {target : Schema}
    {meaning : Meaning} (hTarget : component? comm pointer = some target)
    (hMeaning : target.meaning? = some meaning)
    (hName : StandsFor comm (Naming.pascalCase (lastSegment pointer)) meaning) :
    Traceable comm context (.reference pointer description)
  | synonym {context : Context} {pointer : String} {description : Option String} {target : Schema}
    {type : TypeExpr} (hTarget : component? comm pointer = some target)
    (hAliased : target.meaning? = none)
    (hType : typeOf comm [.text (lastSegment pointer)] target = .ok type)
    (hName : StandsFor comm (Naming.pascalCase (lastSegment pointer)) (.synonym type))
    (h : Traceable comm [.text (lastSegment pointer)] target) :
    Traceable comm context (.reference pointer description)

/-- The way through the schema comes to a reference that is not the usual one to a shared schema. -/
inductive Lost (comm : Comm) : Schema → Prop where
  | unusual {pointer : String} {description : Option String}
    (h : component? comm pointer = none) : Lost comm (.reference pointer description)
  | array {items : Schema} {description : Option String} (h : Lost comm items) :
    Lost comm (.array items description)
  | synonym {pointer : String} {description : Option String} {target : Schema}
    (hTarget : component? comm pointer = some target) (hAliased : target.meaning? = none)
    (h : Lost comm target) : Lost comm (.reference pointer description)

/-- The revival of what so many levels of lists hold by its class. -/
def Revival.nested (className : String) : Nat → Revival
  | 0 => .construct className
  | levels + 1 => .each (nested className levels)

example : (Revival.nested "Size" 2).text "self.sizes" =
    "[[_revive(Size, item) for item in item] for item in self.sizes]" := by
  decide

theorem nested_succ (className : Option String) (levels : Nat) :
    (className.map (Revival.nested · levels)).map Revival.each =
      className.map (Revival.nested · (levels + 1)) := by
  cases className <;> rfl

variable {hops : Nat} {context : Context} {schema : Schema} {revival : Option Revival}

/-- An alias is followed from one shared schema to the next. -/
theorem revival_synonym {pointer : String} {description : Option String} {target : Schema}
    (hTarget : component? comm pointer = some target) (hAliased : target.meaning? = none)
    (h : revivalWithin comm hops context (.reference pointer description) = .ok revival) :
    ∃ left, revivalWithin comm left [.text (lastSegment pointer)] target = .ok revival := by
  rw [revivalWithin, hTarget] at h
  cases target with
  | object node => cases hAliased
  | enumeration values description => cases hAliased
  | primitive kind description =>
      cases hops with
      | zero => cases h
      | succ hops => exact ⟨hops, h⟩
  | array items description =>
      cases hops with
      | zero => cases h
      | succ hops => exact ⟨hops, h⟩
  | reference pointer description =>
      cases hops with
      | zero => cases h
      | succ hops => exact ⟨hops, h⟩

theorem revival_array {items : Schema} {description : Option String} {inner : Context}
    (hInner : itemsContext context = .ok inner)
    (h : revivalWithin comm hops context (.array items description) = .ok revival) :
    ∃ item, revivalWithin comm hops inner items = .ok item ∧ revival = item.map .each := by
  rw [revivalWithin] at h
  obtain ⟨found, hFound, hInside⟩ := bind_eq_ok.mp h
  obtain ⟨item, hItem, hEach⟩ := bind_eq_ok.mp hInside
  rw [← Except.ok.inj (hInner.symm.trans hFound)] at hItem
  exact ⟨item, hItem, (Except.ok.inj hEach).symm⟩

/-- A reference to a shared schema that is no alias revives by the name of the reference, unless
it is one to arbitrary values. -/
theorem revival_shared {pointer : String} {description : Option String} {target : Schema}
    {meaning : Meaning} (hTarget : component? comm pointer = some target)
    (hMeaning : target.meaning? = some meaning)
    (h : revivalWithin comm hops context (.reference pointer description) = .ok revival) :
    (meaning = .anything ∧ revival = none) ∨ (meaning = .ofClass ∧
      revival = some (.construct (Naming.pascalCase (lastSegment pointer)))) := by
  have hByName : ∀ {found : Option Revival}, ((resolveReference comm.contracts pointer).map
      fun name => some (Revival.construct name)) = .ok found →
        found = some (.construct (Naming.pascalCase (lastSegment pointer))) := by
    intro found hFound
    obtain ⟨name, hName, rfl⟩ := map_eq_ok.mp hFound
    rw [resolveReference_ok hName]
  rw [revivalWithin, hTarget] at h
  cases target with
  | object node =>
      have hIs : meaning = node.meaning := (Option.some.inj hMeaning).symm
      simp only at h
      split at h
      · next hAny =>
        refine Or.inl ⟨?_, (Except.ok.inj h).symm⟩
        rw [hIs, ObjectSchema.meaning, if_pos hAny]
      · next hAny =>
        refine Or.inr ⟨?_, hByName h⟩
        rw [hIs, ObjectSchema.meaning, if_neg hAny]
  | enumeration values description =>
      exact Or.inr ⟨(Option.some.inj hMeaning).symm, hByName h⟩
  | primitive kind description => cases hMeaning
  | array items description => cases hMeaning
  | reference pointer description => cases hMeaning

/-- **A traceable schema is revived as its type asks for**: by the class in which the type unfolds,
under as many lists, and not at all if it unfolds in no class. -/
theorem revival_of_traceable (hTraceable : Traceable comm context schema)
    (hRevival : revivalWithin comm hops context schema = .ok revival) {type : TypeExpr}
    {levels : Nat} {className : Option String} (hType : typeOf comm context schema = .ok type)
    (hUnfolds : Unfolds comm type levels className) :
    revival = className.map (Revival.nested · levels) := by
  induction hTraceable generalizing hops revival type levels className with
  | primitive =>
      obtain ⟨token, -, rfl⟩ := fieldType_primitive_ok hType
      cases hUnfolds
      rw [revivalWithin] at hRevival
      exact (Except.ok.inj hRevival).symm
  | enumeration hName =>
      obtain ⟨name, hOk, rfl⟩ := fieldType_enumeration_ok hType
      obtain ⟨rfl, rfl⟩ := unfolds_ofClass (hName name hOk) hUnfolds
      rw [revivalWithin, hOk] at hRevival
      exact (Except.ok.inj hRevival).symm
  | @object context node hName =>
      obtain ⟨name, hOk, rfl⟩ := fieldType_object_ok hType
      have hStands := hName name hOk
      rw [revivalWithin] at hRevival
      by_cases hAny : node.isAny = true
      · rw [ObjectSchema.meaning, if_pos hAny] at hStands
        rw [if_pos hAny] at hRevival
        rw [unfolds_anything hStands hUnfolds]
        exact (Except.ok.inj hRevival).symm
      · rw [ObjectSchema.meaning, if_neg hAny] at hStands
        rw [if_neg hAny, hOk] at hRevival
        obtain ⟨rfl, rfl⟩ := unfolds_ofClass hStands hUnfolds
        exact (Except.ok.inj hRevival).symm
  | array hInner hItems ih =>
      obtain ⟨item, hItem, rfl⟩ := revival_array hInner hRevival
      obtain ⟨opening, inner, element, closing, -, -, hFound, hElement, rfl⟩ :=
        fieldType_array_ok hType
      obtain rfl := Except.ok.inj (hInner.symm.trans hFound)
      cases hUnfolds with
      | listOf hInside => rw [ih hItem hElement hInside, nested_succ]
  | shared hTarget hMeaning hName =>
      obtain rfl := fieldType_reference_ok hType
      rcases revival_shared hTarget hMeaning hRevival with ⟨rfl, rfl⟩ | ⟨rfl, rfl⟩
      · rw [unfolds_anything hName hUnfolds]
        rfl
      · obtain ⟨rfl, rfl⟩ := unfolds_ofClass hName hUnfolds
        rfl
  | synonym hTarget hAliased hOk hName hAlias ih =>
      obtain rfl := fieldType_reference_ok hType
      obtain ⟨left, hLeft⟩ := revival_synonym hTarget hAliased hRevival
      exact ih hLeft hOk (unfolds_synonym hName hUnfolds)

/-- Where the way comes to an unusual reference, nothing is revived. -/
theorem revival_of_lost (hLost : Lost comm schema)
    (hRevival : revivalWithin comm hops context schema = .ok revival) : revival = none := by
  induction hLost generalizing hops context revival with
  | unusual h =>
      rw [revivalWithin, h] at hRevival
      exact (Except.ok.inj hRevival).symm
  | array h ih =>
      rw [revivalWithin] at hRevival
      obtain ⟨inner, -, hRevival⟩ := bind_eq_ok.mp hRevival
      obtain ⟨item, hItem, hRevival⟩ := bind_eq_ok.mp hRevival
      rw [← Except.ok.inj hRevival, ih hItem]
      rfl
  | synonym hTarget hAliased h ih =>
      obtain ⟨left, hLeft⟩ := revival_synonym hTarget hAliased hRevival
      exact ih hLeft

/-! ## Records -/

/-- What becomes of an attribute with a schema: it is revived as its type asks for, under a test for
none if it may be absent, or not at all if the way is lost. -/
structure Revives (comm : Comm) (context : Context) (schema : Schema) (isRequired : Bool)
    (field : Field) : Prop where
  traced : Traceable comm context schema → ∀ type levels className,
    field.type = .ok type → Unfolds comm type levels className →
      ∃ name, field.name = .ok name ∧ field.statement? = className.map fun className =>
        revivalStatement name.identifier (!isRequired) (.nested className levels)
  lost : Lost comm schema → field.statement? = none

theorem revives_of_revival {isRequired : Bool} {field : Field}
    (hType : field.type = typeOf comm context schema) (hName : ∃ name, field.name = .ok name)
    (hOptional : field.isOptional = !isRequired)
    (hField : field.revival = revivalOf comm context schema)
    (hRevival : ∃ revival, revivalOf comm context schema = .ok revival) :
    Revives comm context schema isRequired field := by
  obtain ⟨name, hName⟩ := hName
  obtain ⟨revival, hRevival⟩ := hRevival
  have hStatement : field.statement? =
      revival.map fun revival => revivalStatement name.identifier (!isRequired) revival := by
    rw [Field.statement?, hName, hField, hRevival, hOptional]
    cases revival <;> rfl
  constructor
  · intro hTraceable type levels className hOk hUnfolds
    have hNested := revival_of_traceable hTraceable hRevival (hType.symm.trans hOk) hUnfolds
    refine ⟨name, hName, ?_⟩
    rw [hStatement, hNested, Option.map_map]
    rfl
  · intro hLost
    rw [hStatement, revival_of_lost hLost hRevival]
    rfl

theorem revives_property (h : comm.Settled) {object : ObjectDeclaration}
    (hObject : object ∈ comm.objects.items) {property : Key × Schema}
    (hProperty : property ∈ object.node.properties) :
    Revives comm [property.1, .text object.name] property.2
      (object.node.isRequired property.1) (fieldOf comm object property) := by
  obtain ⟨hText, hResolves⟩ := h.properties object hObject property hProperty
  exact revives_of_revival rfl (keyFieldName_total hText) rfl rfl
    (h.revives _ _ (isNamed_pair object.name hText) hResolves)

theorem revives_param (h : comm.Settled) {method : Method} (hMethod : method ∈ comm.methods)
    {param : Param} (hParam : param ∈ method.params) :
    Revives comm (paramContext method.name param.name) param.schema param.isRequired
      (paramField comm method param) :=
  revives_of_revival rfl ⟨_, rfl⟩ rfl rfl
    (h.revives _ _ (isNamed_paramContext _ _) (h.params method hMethod param hParam))

end Python

open Python

/-- **Attributes are revived as their types ask for.** In the data class of each object, and in that
of the parameters of each method, the method that revives the attributes has exactly one statement
for each attribute that is revived. An attribute that is traceable is revived by the class in which
its type unfolds, under as many lists, and not at all if its type unfolds in no class. One whose way
comes to an unusual reference is never revived. -/
theorem fields_revived {comm : Comm} {warnings : List String}
    (hKeys : ∀ contract ∈ comm.contracts, contract.HasTextKeys) (hAcyclic : comm.IsAcyclic)
    (hValid : validate comm = .ok warnings) :
    (∀ object ∈ comm.objects.items, object.node.isAny = false →
      ∃ record, objectOf comm object = .dataClass record ∧
        record.print.toItems = .ok record.fragments ∧
        record.fields = object.node.properties.map (fieldOf comm object) ∧
        ∀ property ∈ object.node.properties,
          Revives comm [property.1, .text object.name] property.2
            (object.node.isRequired property.1) (fieldOf comm object property)) ∧
    ∀ method ∈ comm.methodsWithParams,
      (paramsOf comm method).print.toItems = .ok (paramsOf comm method).fragments ∧
      (paramsOf comm method).fields = method.params.map (paramField comm method) ∧
      ∀ param ∈ method.params,
        Revives comm (paramContext method.name param.name) param.schema param.isRequired
          (paramField comm method param) := by
  have hSettled := settled_of_checked (checked_of_validate hValid) hKeys hAcyclic
  constructor
  · intro object hObject hRecord
    have hPrint := objectOf_total hSettled hObject
    have hOf : objectOf comm object = .dataClass _ := if_neg (by rw [hRecord]; decide)
    rw [hOf] at hPrint
    exact ⟨_, hOf, Record.print_ok hPrint, rfl,
      fun property hProperty => revives_property hSettled hObject hProperty⟩
  · intro method hWithParams
    have hMethod := mem_methods_of_hasParams hWithParams
    exact ⟨Record.print_ok (paramsOf_total hSettled hMethod), rfl,
      fun param hParam => revives_param hSettled hMethod hParam⟩

/-! ## A list of enumeration members -/

/-- A method with one parameter, which may be absent: a list of the shared sizes. -/
def askMethod : Method :=
  ⟨"ask", "Ask for sizes", none,
    [⟨"sizes", "The sizes", .reference "#/components/schemas/sizes" none, false⟩], none⟩

/-- The comm of the lists of sizes, with that method. -/
def askComm : Comm := ⟨"shop", some { listContract with methods := [askMethod] }, none, rfl⟩

theorem isAcyclic_askComm : askComm.IsAcyclic := by
  -- both comms have the same shared schemas
  have hSame : askComm.Leads = listComm.Leads := rfl
  unfold Comm.IsAcyclic
  rw [hSame]
  exact isAcyclic_listComm

/-- The type of the sizes. -/
def sizesType : TypeExpr := .listOf "List[" (.named "Size") "]"

theorem means_askComm {name : String} {meaning : Meaning} (h : Means askComm name meaning) :
    meaning = .ofClass ∧ name ≠ "Sizes" ∨ name = "Sizes" ∧ meaning = .synonym sizesType := by
  cases h with
  | synonym hEntry hName hType =>
      cases List.mem_singleton.mp hEntry
      cases hName
      cases hType
      decide
  | object hObject hName =>
      have hNone : askComm.objects.items = [] := by
        decide
      rw [hNone] at hObject
      cases hObject
  | @other part hPart hAliases hObjects hName =>
      refine Or.inl ⟨rfl, ?_⟩
      rintro rfl
      have hOthers : ∀ part ∈ askComm.sections, part ≠ .aliases → part ≠ .objects →
          .ok "Sizes" ∉ declaredIn askComm part := by
        decide
      exact hOthers part hPart hAliases hObjects hName

theorem traceable_sizes : Traceable askComm (paramContext "ask" "sizes")
    (.reference "#/components/schemas/sizes" none) := by
  have hSize : StandsFor askComm (Naming.pascalCase (lastSegment "#/components/schemas/size"))
      .ofClass := by
    intro other hOther
    rcases means_askComm hOther with ⟨hClass, -⟩ | ⟨hName, -⟩
    · exact hClass
    · exact absurd hName (by decide)
  have hSizes : StandsFor askComm (Naming.pascalCase (lastSegment "#/components/schemas/sizes"))
      (.synonym sizesType) := by
    intro other hOther
    rcases means_askComm hOther with ⟨-, hName⟩ | ⟨-, hSynonym⟩
    · exact absurd (by decide) hName
    · exact hSynonym
  exact .synonym rfl rfl rfl hSizes (.array rfl (.shared rfl rfl hSize))

theorem unfolds_sizes : Unfolds askComm (.named "Sizes") 1 (some "Size") := by
  have hSizes : Means askComm "Sizes" (.synonym sizesType) :=
    .synonym (List.mem_singleton_self _) rfl rfl
  have hSize : Means askComm "Size" .ofClass :=
    .other (by decide : Section.enums ∈ _) (by decide) (by decide) (by decide +kernel)
  exact .synonym hSizes (.listOf (.ofClass hSize))

theorem sizes_revived :
    validate askComm = .ok [] ∧
      (paramsOf askComm askMethod).fields.map Field.statement? =
        [some ("        if self.sizes is not None:\n" ++
          "            self.sizes = [_revive(Size, item) for item in self.sizes]\n")] := by
  have hKeys : ∀ contract ∈ askComm.contracts, contract.HasTextKeys := by
    refine List.forall_mem_singleton.mpr ⟨List.forall_mem_singleton.mpr ⟨?_, ?_⟩, by decide⟩
    · exact List.forall_mem_singleton.mpr rfl
    · exact fun schema hNone => by cases hNone
  have hValid : validate askComm = .ok [] := by
    decide +kernel
  have hMethod : askMethod ∈ askComm.methodsWithParams := List.mem_singleton_self _
  obtain ⟨-, -, hParams⟩ := (fields_revived hKeys isAcyclic_askComm hValid).2 askMethod hMethod
  obtain ⟨name, hName, hStatement⟩ :=
    (hParams _ (List.mem_singleton_self _)).traced traceable_sizes _ _ _ rfl unfolds_sizes
  cases hName
  exact ⟨hValid, congrArg (fun statement => [statement]) hStatement⟩

/-! ## A reference into an object -/

/-- A method with one parameter, whose schema is a property of the shared item. -/
def ownerMethod : Method :=
  ⟨"get", "Get an item", none,
    [⟨"who", "The owner", .reference "#/components/schemas/item/properties/owner" none, true⟩], none⟩

/-- A comm with that method and that item. -/
def ownerComm : Comm :=
  let mapping (entries : List (String × Value)) : Value :=
    .mapping (entries.map fun entry => (.text entry.1, entry.2)) none
  let label := mapping [("type", .text "string"), ("description", .text "A label")]
  let owner := mapping [("type", .text "object"), ("description", .text "An owner"),
    ("properties", mapping [("label", label)])]
  let item := mapping [("type", .text "object"), ("description", .text "An item"),
    ("properties", mapping [("owner", owner)])]
  let ownerSchema : ObjectSchema := ⟨none, some "An owner",
    [(.text "label", .primitive .string (some "A label"))], [], false⟩
  let itemSchema : ObjectSchema := ⟨none, some "An item",
    [(.text "owner", .object ownerSchema)], [], false⟩
  { name := "shop"
    backend := some
      { direction := .backend
        source := "shop-backend-openrpc.json"
        methods := [ownerMethod]
        schemas := [(.text "item", .object itemSchema)]
        document := [(.text "components", mapping [("schemas", mapping [("item", item)])])] }
    frontend := none
    hasContract := rfl }

theorem isAcyclic_ownerComm : ownerComm.IsAcyclic :=
  isAcyclic_of_pointer? (by decide)

/-- The parameter is declared with the class of owners for its type, but is not revived. -/
theorem owner_not_revived :
    validate ownerComm = .ok [] ∧ ownerComm.IsAcyclic ∧
      ownerMethod ∈ ownerComm.methodsWithParams ∧
      (paramsOf ownerComm ownerMethod).fields.map Field.type = [.ok (.named "Owner")] ∧
      Unfolds ownerComm (.named "Owner") 0 (some "Owner") ∧
      StandsFor ownerComm "Owner" .ofClass ∧
      (paramsOf ownerComm ownerMethod).fields.map Field.statement? = [none] := by
  have hRecords : ∀ object ∈ ownerComm.objects.items, object.node.meaning = .ofClass := by
    decide +kernel
  have hOwner : ∃ object ∈ ownerComm.objects.items, object.name = "Owner" := by
    decide +kernel
  have hMeans : Means ownerComm "Owner" .ofClass := by
    obtain ⟨object, hObject, hName⟩ := hOwner
    rw [← hRecords object hObject]
    exact .object hObject hName
  have hStands : StandsFor ownerComm "Owner" .ofClass := by
    intro other hOther
    cases hOther with
    | synonym hEntry hName hType => cases hEntry
    | object hObject hName => exact hRecords _ hObject
    | other hPart hAliases hObjects hName => rfl
  have hRevival : revivalOf ownerComm (paramContext "get" "who")
      (.reference "#/components/schemas/item/properties/owner" none) = .ok none := by
    rw [revivalOf, revivalWithin]
    rfl
  have hStatement : (paramsOf ownerComm ownerMethod).fields.map Field.statement? = [none] := by
    show [Field.statement? _] = [none]
    rw [Field.statement?]
    simp only [paramField, hRevival, ownerMethod]
  exact ⟨by decide +kernel, isAcyclic_ownerComm, List.mem_singleton_self _, by decide +kernel,
    .ofClass hMeans, hStands, hStatement⟩

end CommBindings
