import CommBindings.Contract.Basic
import CommBindings.Proofs.Document.Parts
import CommBindings.Proofs.Results

set_option autoImplicit false

/-! # What is read from a document

A schema that is read is an array whose items were read from the entry `items`, an object whose
properties were read from the entry `properties`, or it has no parts (`read_ok`). What schemas have
if the schemas inside them have it, is had by all that are read (`Collected.of_read`). So a schema
has texts for keys if the entries `properties` inside its document have (`Value.hasTextNames`),
whatever the other keys are (`hasTextKeys_of_read`). The schemas of a contract are read from parts
of its document (`everySchema_of_read`).
-/

namespace CommBindings

/-- A broken rule is no result. -/
theorem violate_ne_ok {α : Type} {rule : Rule} {field : Key} {source : Option String} {a : α} :
    violate rule field source ≠ .ok a := by
  unfold violate
  split
  · exact nofun
  · exact nofun

/-- A rule that is checked on the way to a result is kept. -/
theorem unless_violated {α : Type} {broken : Prop} [Decidable broken] {rule : Rule} {field : Key}
    {source : Option String} {result : Except Fault α} {a : α}
    (h : (if broken then violate rule field source else result) = .ok a) :
    ¬ broken ∧ result = .ok a := by
  by_cases hBroken : broken
  · rw [if_pos hBroken] at h
    exact absurd h violate_ne_ok
  · rw [if_neg hBroken] at h
    exact ⟨hBroken, h⟩

namespace Schema

/-- Whether the schema has no schemas inside. -/
def isLeaf : Schema → Bool
  | array _ _ | object _ => false
  | _ => true

theorem sizeOf_property_lt {node : ObjectSchema} {property : Key × Schema}
    (h : property ∈ node.properties) : sizeOf property.2 < sizeOf (object node) := by
  obtain ⟨name, description, properties, required, additional⟩ := node
  obtain ⟨key, schema⟩ := property
  have := List.sizeOf_lt_of_mem h
  simp only [Prod.mk.sizeOf_spec] at this
  simp only [object.sizeOf_spec, ObjectSchema.mk.sizeOf_spec]
  omega

/-- What schemas have if the schemas right inside them have it, all have. -/
@[elab_as_elim]
theorem induction {P : Schema → Prop} (leaf : ∀ schema : Schema, schema.isLeaf = true → P schema)
    (array : ∀ items description, P items → P (.array items description))
    (object : ∀ node, (∀ property ∈ node.properties, P property.2) → P (.object node))
    (schema : Schema) : P schema := by
  cases schema with
  | array items description => exact array items description (induction leaf array object items)
  | object node =>
      exact object node fun property hProperty => induction leaf array object property.2
  | primitive kind description => exact leaf _ rfl
  | enumeration values description => exact leaf _ rfl
  | reference pointer description => exact leaf _ rfl
termination_by sizeOf schema
decreasing_by
  · simp only [Schema.array.sizeOf_spec]
    omega
  · exact sizeOf_property_lt hProperty

/-- The object was read from the mapping. -/
structure ReadFrom (source : Option String) (m : Mapping) (node : ObjectSchema) : Prop where
  properties : ∃ owner entries, optionalEntries? (m.get? "properties") = some entries ∧
    readProperties source owner entries = .ok node.properties
  required : ∃ texts, node.required = sortedTexts texts
  substantial : node.properties = [] → node.additional = true

/-- Where the parts of a schema that was read come from. -/
theorem read_ok {source : Option String} {location : Key} {raw : Value} {schema : Schema}
    (h : read source location raw = .ok schema) :
    ∃ m, raw.entries? = some m ∧
      ((∃ items place part description, m.get? "items" = some items ∧
          read source place items = .ok part ∧ schema = .array part description) ∨
        (∃ node, ReadFrom source m node ∧ schema = .object node) ∨ schema.isLeaf = true) := by
  rw [read] at h
  split at h
  · exact absurd h violate_ne_ok
  · next m hEntries =>
    refine ⟨m, hEntries, ?_⟩
    simp only at h
    split at h
    · -- an array
      split at h
      · exact absurd h violate_ne_ok
      · next items hItems =>
        obtain ⟨place, -, h⟩ := bind_eq_ok.mp h
        obtain ⟨part, hPart, h⟩ := bind_eq_ok.mp h
        cases h
        exact Or.inl ⟨items, _, part, _, hItems, hPart, rfl⟩
    · split at h
      · -- a reference
        split at h
        · obtain ⟨-, h⟩ := unless_violated h
          cases h
          exact Or.inr (Or.inr rfl)
        · exact absurd h violate_ne_ok
      · split at h
        · -- an enumeration
          obtain ⟨texts, -, h⟩ := bind_eq_ok.mp h
          cases h
          exact Or.inr (Or.inr rfl)
        · split at h
          · -- an object
            split at h
            · exact absurd h violate_ne_ok
            · split at h
              · exact absurd h violate_ne_ok
              · next entries hProperties =>
                obtain ⟨properties, hRead, h⟩ := bind_eq_ok.mp h
                split at h
                · exact absurd h violate_ne_ok
                · obtain ⟨hSome, h⟩ := unless_violated h
                  obtain ⟨required, -, h⟩ := bind_eq_ok.mp h
                  cases h
                  refine Or.inr (Or.inl ⟨_, ⟨⟨_, entries, hProperties, hRead⟩, ⟨required, rfl⟩, ?_⟩,
                    rfl⟩)
                  rintro rfl
                  simpa using hSome
          · -- a scalar type
            obtain ⟨kind, -, h⟩ := bind_eq_ok.mp h
            cases h
            exact Or.inr (Or.inr rfl)

theorem map_fst_readProperties {source : Option String} {owner : Key} {raw : List (Key × Value)}
    {properties : List (Key × Schema)} (h : readProperties source owner raw = .ok properties) :
    properties.map Prod.fst = raw.map Prod.fst := by
  induction raw generalizing properties with
  | nil =>
      rw [readProperties] at h
      cases h
      rfl
  | cons entry rest ih =>
      rw [readProperties] at h
      obtain ⟨first, -, h⟩ := bind_eq_ok.mp h
      obtain ⟨second, -, h⟩ := bind_eq_ok.mp h
      obtain ⟨-, h⟩ := unless_violated h
      obtain ⟨schema, -, h⟩ := bind_eq_ok.mp h
      obtain ⟨others, hOthers, h⟩ := bind_eq_ok.mp h
      cases h
      rw [List.map_cons, List.map_cons, ih hOthers]

/-- An object has the keys of the entry `properties`. -/
theorem ReadFrom.keys {source : Option String} {m : Mapping} {node : ObjectSchema}
    (h : ReadFrom source m node) :
    ∃ entries, optionalEntries? (m.get? "properties") = some entries ∧
      node.properties.map Prod.fst = entries.map Prod.fst := by
  obtain ⟨owner, entries, hEntries, hRead⟩ := h.properties
  exact ⟨entries, hEntries, map_fst_readProperties hRead⟩

/-- A property that schemas have if the schemas inside them have it, where the mappings that objects
are read from have another. -/
structure Collected (source : Option String) (ofMapping : Mapping → Bool) (P : Schema → Prop) :
    Prop where
  leaf : ∀ schema, schema.isLeaf = true → P schema
  array : ∀ items description, P items → P (.array items description)
  object : ∀ m node, ofMapping m = true → Value.everyEntry (fun _ => true) ofMapping m = true →
    ReadFrom source m node → (∀ property ∈ node.properties, P property.2) → P (.object node)

section

variable {source : Option String} {ofMapping : Mapping → Bool} {P : Schema → Prop}

mutual

/-- What is collected from parts is had by all schemas that are read. -/
theorem Collected.of_read (hP : Collected source ofMapping P) {location : Key} {raw : Value}
    {schema : Schema} (h : read source location raw = .ok schema)
    (hEvery : raw.every (fun _ => true) ofMapping = true) : P schema := by
  obtain ⟨m, hEntries, hParts⟩ := read_ok h
  obtain ⟨hOwn, hInside⟩ := Value.every_of_entries? hEvery hEntries
  have hSmaller := sizeOf_entries?_lt hEntries
  rcases hParts with ⟨items, place, part, description, hItems, hPart, rfl⟩ |
    ⟨node, hNode, rfl⟩ | hLeaf
  · have := sizeOf_get?_lt hItems
    exact hP.array part description (hP.of_read hPart (Value.every_of_get? hInside hItems))
  · refine hP.object m node hOwn hInside hNode ?_
    obtain ⟨owner, entries, hProperties, hRead⟩ := hNode.properties
    have hEach := Value.every_of_optionalEntries?
      (fun v hv => Value.every_of_get? hInside hv) hProperties
    rcases sizeOf_optionalEntries?_le hProperties with rfl | ⟨v, hv, hLess⟩
    · rw [readProperties] at hRead
      rw [← Except.ok.inj hRead]
      exact List.forall_mem_nil _
    · have := sizeOf_get?_lt hv
      exact hP.of_readProperties hRead hEach
  · exact hP.leaf schema hLeaf
termination_by sizeOf raw

theorem Collected.of_readProperties (hP : Collected source ofMapping P) {owner : Key}
    {raw : List (Key × Value)} {properties : List (Key × Schema)}
    (h : readProperties source owner raw = .ok properties)
    (hEvery : Value.everyEntry (fun _ => true) ofMapping raw = true) :
    ∀ property ∈ properties, P property.2 := by
  match raw with
  | [] =>
    rw [readProperties] at h
    cases h
    exact List.forall_mem_nil _
  | (key, value) :: rest =>
    rw [Value.everyEntry, Bool.and_eq_true] at hEvery
    rw [readProperties] at h
    obtain ⟨first, -, h⟩ := bind_eq_ok.mp h
    obtain ⟨second, -, h⟩ := bind_eq_ok.mp h
    obtain ⟨-, h⟩ := unless_violated h
    obtain ⟨schema, hSchema, h⟩ := bind_eq_ok.mp h
    obtain ⟨others, hOthers, h⟩ := bind_eq_ok.mp h
    cases h
    exact List.forall_mem_cons.mpr
      ⟨hP.of_read hSchema hEvery.1, hP.of_readProperties hOthers hEvery.2⟩
termination_by sizeOf raw

end

end

mutual

/-- Whether all keys of properties inside the schema are texts. -/
def hasTextKeys : Schema → Bool
  | array items _ => items.hasTextKeys
  | object ⟨_, _, properties, _, _⟩ => haveTextKeys properties
  | primitive _ _ | enumeration _ _ | reference _ _ => true

/-- Whether the keys of some schemas and all those inside are texts. -/
def haveTextKeys : List (Key × Schema) → Bool
  | [] => true
  | (key, schema) :: rest => key.isText && schema.hasTextKeys && haveTextKeys rest

end

theorem haveTextKeys_iff {schemas : List (Key × Schema)} :
    haveTextKeys schemas = true ↔
      ∀ entry ∈ schemas, entry.1.isText = true ∧ entry.2.hasTextKeys = true := by
  induction schemas with
  | nil => simp [haveTextKeys]
  | cons entry rest ih =>
      rw [haveTextKeys, Bool.and_eq_true, Bool.and_eq_true, ih, List.forall_mem_cons]

theorem hasTextKeys_object {node : ObjectSchema} :
    (object node).hasTextKeys = haveTextKeys node.properties := by
  cases node
  rw [hasTextKeys]

theorem hasTextKeys_of_isLeaf {schema : Schema} (h : schema.isLeaf = true) :
    schema.hasTextKeys = true := by
  cases schema with
  | array items description => cases h
  | object node => cases h
  | primitive kind description => rw [hasTextKeys]
  | enumeration values description => rw [hasTextKeys]
  | reference pointer description => rw [hasTextKeys]

/-- Whether the keys that become the names of properties are texts. -/
def hasTextNames (m : Mapping) : Bool :=
  (optionalEntries? (m.get? "properties")).all Mapping.hasTextKeys

end Schema

/-- Whether all keys that become the names of properties inside the value are texts. -/
def Value.hasTextNames (value : Value) : Bool := value.every (fun _ => true) Schema.hasTextNames

namespace Schema

theorem hasTextNames_of_inside {ofScalar : Scalar → Bool} {m : Mapping}
    (h : Value.everyEntry ofScalar Mapping.hasTextKeys m = true) : hasTextNames m = true :=
  (Option.all_eq_true _ _).mpr fun _ hEntries =>
    Value.hasTextKeys_of_optionalEntries? (fun _ hv => Value.every_of_get? h hv) hEntries

theorem collected_hasTextKeys (source : Option String) :
    Collected source hasTextNames fun schema => schema.hasTextKeys = true where
  leaf := fun _ => hasTextKeys_of_isLeaf
  array := by
    intro items description hItems
    rw [hasTextKeys, hItems]
  object := by
    intro m node hOwn _ hNode hParts
    obtain ⟨entries, hEntries, hKeys⟩ := hNode.keys
    have hTexts : ∀ key ∈ entries.map Prod.fst, key.isText = true :=
      List.forall_mem_map.mpr (List.all_eq_true.mp ((Option.all_eq_true _ _).mp hOwn _ hEntries))
    rw [← hKeys] at hTexts
    rw [hasTextKeys_object, haveTextKeys_iff]
    exact fun property hProperty =>
      ⟨hTexts _ (List.mem_map_of_mem hProperty), hParts property hProperty⟩

/-- A schema that is read from a value with texts for names has texts for keys. -/
theorem hasTextKeys_of_read {source : Option String} {location : Key} {raw : Value}
    {schema : Schema} (h : read source location raw = .ok schema)
    (hNames : raw.hasTextNames = true) : schema.hasTextKeys = true :=
  (collected_hasTextKeys source).of_read h hNames

/-- The schema was read from a value whose mappings all have a property. -/
def IsRead (ofMapping : Mapping → Bool) (source : String) (schema : Schema) : Prop :=
  ∃ location value, Schema.read (some source) location value = .ok schema ∧
    value.every (fun _ => true) ofMapping = true

end Schema

/-! ## Contracts -/

/-- A property is that of all schemas of a method. -/
def Method.EverySchema (P : Schema → Prop) (method : Method) : Prop :=
  (∀ param ∈ method.params, P param.schema) ∧ ∀ schema, method.result = some schema → P schema

/-- A property is that of the schemas of all methods and of all shared schemas. -/
def Contract.EverySchema (P : Schema → Prop) (contract : Contract) : Prop :=
  (∀ method ∈ contract.methods, method.EverySchema P) ∧ ∀ entry ∈ contract.schemas, P entry.2

theorem Contract.EverySchema.mono {P Q : Schema → Prop} {contract : Contract}
    (h : contract.EverySchema P) (hSchema : ∀ schema, P schema → Q schema) :
    contract.EverySchema Q := by
  refine ⟨fun method hMethod => ?_, fun entry hEntry => hSchema _ (h.2 entry hEntry)⟩
  obtain ⟨hParams, hResult⟩ := h.1 method hMethod
  exact ⟨fun param hParam => hSchema _ (hParams param hParam),
    fun schema hSome => hSchema _ (hResult schema hSome)⟩

/-- All keys of schemas in a method are texts. -/
def Method.HasTextKeys (method : Method) : Prop :=
  (∀ param ∈ method.params, param.schema.hasTextKeys = true) ∧
    ∀ schema, method.result = some schema → schema.hasTextKeys = true

/-- All keys of schemas in a contract are texts. -/
def Contract.HasTextKeys (contract : Contract) : Prop :=
  (∀ method ∈ contract.methods, method.HasTextKeys) ∧
    Schema.haveTextKeys contract.schemas = true

variable {ofMapping : Mapping → Bool}

theorem isRead_of_param {source method : String} {raw : Value} {param : Param}
    (h : Param.read source method raw = .ok param)
    (hEvery : raw.every (fun _ => true) ofMapping = true) :
    param.schema.IsRead ofMapping source := by
  unfold Param.read at h
  split at h
  · exact absurd h violate_ne_ok
  · next m hEntries =>
    split at h
    · exact absurd h violate_ne_ok
    · split at h
      · exact absurd h violate_ne_ok
      · split at h
        · exact absurd h violate_ne_ok
        · next rawSchema hSchema =>
          split at h
          · exact absurd h violate_ne_ok
          · obtain ⟨schema, hRead, h⟩ := bind_eq_ok.mp h
            cases h
            exact ⟨_, rawSchema, hRead,
              Value.every_of_get? (Value.every_of_entries? hEvery hEntries).2 hSchema⟩

theorem isRead_of_result {source method : String} {raw : Option Value} {result : Option Schema}
    (h : Method.readResult source method raw = .ok result)
    (hEvery : ∀ value, raw = some value → value.every (fun _ => true) ofMapping = true) :
    ∀ schema, result = some schema → schema.IsRead ofMapping source := by
  unfold Method.readResult at h
  split at h
  · cases h
    exact nofun
  · next rawSchema hSchema =>
    obtain ⟨schema, hRead, hResult⟩ := map_eq_ok.mp h
    obtain ⟨m, hEntries, hSchema⟩ := Option.bind_eq_some_iff.mp hSchema
    obtain ⟨value, hValue, hEntries⟩ := Option.bind_eq_some_iff.mp hEntries
    intro other hOther
    rw [← hResult, Option.some.injEq] at hOther
    rw [← hOther]
    exact ⟨_, rawSchema, hRead, Value.every_of_get?
      (Value.every_of_entries? (hEvery value hValue) hEntries).2 hSchema⟩

theorem isRead_of_method {source : String} {raw : Value} {method : Method}
    (h : Method.read source raw = .ok method)
    (hEvery : raw.every (fun _ => true) ofMapping = true) :
    method.EverySchema (Schema.IsRead ofMapping source) := by
  unfold Method.read at h
  split at h
  · exact absurd h violate_ne_ok
  · next m hEntries =>
    have hInside := (Value.every_of_entries? hEvery hEntries).2
    split at h
    · exact absurd h violate_ne_ok
    · split at h
      · exact absurd h violate_ne_ok
      · split at h
        · exact absurd h violate_ne_ok
        · next rawParams hParams =>
          obtain ⟨params, hRead, h⟩ := bind_eq_ok.mp h
          split at h
          · exact absurd h violate_ne_ok
          · obtain ⟨result, hResult, h⟩ := bind_eq_ok.mp h
            cases h
            refine ⟨fun param hParam => ?_, ?_⟩
            · obtain ⟨rawParam, hRaw, hRead⟩ := mem_of_mapM hRead hParam
              have hItems := Value.every_of_optionalItems?
                (fun v hv => Value.every_of_get? hInside hv) hParams
              exact isRead_of_param hRead (hItems rawParam hRaw)
            · exact isRead_of_result hResult
                fun value hValue => Value.every_of_get? hInside hValue

/-- What a contract that was read consists of. -/
theorem Contract.read_ok {direction : Direction} {source : String} {document : Mapping}
    {contract : Contract} (h : Contract.read direction source document = .ok contract) :
    contract.document = document ∧
      (∃ raws, (document.get? "methods").bind Value.items? = some raws ∧
        raws.mapM (Method.read source) = .ok contract.methods) ∧
      (contract.schemas = [] ∨ ∃ entries mark,
        Contract.rawSchemas document = some (.mapping entries mark) ∧
        Contract.readSchemas source entries = .ok contract.schemas) := by
  unfold Contract.read at h
  split at h
  · exact absurd h violate_ne_ok
  · next raws hRaws =>
    obtain ⟨methods, hMethods, h⟩ := bind_eq_ok.mp h
    split at h
    · exact absurd h violate_ne_ok
    · split at h
      · cases h
        exact ⟨rfl, ⟨raws, hRaws, hMethods⟩, Or.inl rfl⟩
      · next entries mark hEntries =>
        obtain ⟨schemas, hSchemas, h⟩ := bind_eq_ok.mp h
        cases h
        exact ⟨rfl, ⟨raws, hRaws, hMethods⟩, Or.inr ⟨entries, mark, hEntries, hSchemas⟩⟩
      · exact absurd h violate_ne_ok

theorem every_of_rawSchemas {ofScalar : Scalar → Bool} {document : Mapping} {value : Value}
    (hEvery : Value.everyEntry ofScalar ofMapping document = true)
    (h : Contract.rawSchemas document = some value) : value.every ofScalar ofMapping = true := by
  unfold Contract.rawSchemas at h
  split at h
  · cases h
  · next components hComponents =>
    obtain ⟨outer, hOuter, hEntries⟩ := Option.bind_eq_some_iff.mp hComponents
    have hInside := (Value.every_of_entries? (Value.every_of_get? hEvery hOuter) hEntries).2
    split at h
    · cases h
    · exact Value.every_of_get? hInside h

theorem isRead_of_shared {source : String} {entries : List (Key × Value)}
    {schemas : List (Key × Schema)} (h : Contract.readSchemas source entries = .ok schemas)
    (hKeys : Mapping.hasTextKeys entries = true)
    (hEvery : Value.everyEntry (fun _ => true) ofMapping entries = true) :
    ∀ entry ∈ schemas, entry.1.isText = true ∧ entry.2.IsRead ofMapping source := by
  induction entries generalizing schemas with
  | nil =>
      cases h
      exact List.forall_mem_nil _
  | cons entry rest ih =>
      rw [Mapping.hasTextKeys, List.all_cons, Bool.and_eq_true] at hKeys
      rw [Value.everyEntry, Bool.and_eq_true] at hEvery
      rw [Contract.readSchemas] at h
      obtain ⟨schema, hSchema, h⟩ := bind_eq_ok.mp h
      obtain ⟨others, hOthers, h⟩ := bind_eq_ok.mp h
      cases h
      exact List.forall_mem_cons.mpr
        ⟨⟨hKeys.1, entry.1, entry.2, hSchema, hEvery.1⟩, ih hOthers hKeys.2 hEvery.2⟩

/-- Whether a property is that of all mappings inside the methods and the shared schemas of a
document, and the keys of the shared schemas are texts. -/
def Contract.everyPart (ofMapping : Mapping → Bool) (document : Mapping) : Bool :=
  (document.get? "methods").all (Value.every (fun _ => true) ofMapping) &&
    (rawSchemas document).all fun schemas =>
      schemas.entries?.all Mapping.hasTextKeys && schemas.every (fun _ => true) ofMapping

section Parts

variable {document : Mapping}

theorem every_of_methods {methods : Value} (h : Contract.everyPart ofMapping document = true)
    (hMethods : document.get? "methods" = some methods) :
    methods.every (fun _ => true) ofMapping = true := by
  rw [Contract.everyPart, Bool.and_eq_true] at h
  exact (Option.all_eq_true _ _).mp h.1 methods hMethods

theorem every_of_sharedEntries {schemas : Value} {entries : Mapping}
    (h : Contract.everyPart ofMapping document = true)
    (hSchemas : Contract.rawSchemas document = some schemas)
    (hEntries : schemas.entries? = some entries) :
    entries.hasTextKeys = true ∧ Value.everyEntry (fun _ => true) ofMapping entries = true := by
  rw [Contract.everyPart, Bool.and_eq_true] at h
  obtain ⟨hKeys, hEvery⟩ := Bool.and_eq_true_iff.mp ((Option.all_eq_true _ _).mp h.2 schemas hSchemas)
  exact ⟨(Option.all_eq_true _ _).mp hKeys entries hEntries,
    (Value.every_of_entries? hEvery hEntries).2⟩

/-- What follows of the mappings in a document with texts for keys is a property of its parts. -/
theorem everyPart_of_every {ofScalar : Scalar → Bool} {given : Mapping → Bool}
    (hTexts : ∀ m, given m = true → m.hasTextKeys = true)
    (hMapping : ∀ m, given m = true → Value.everyEntry ofScalar given m = true →
      ofMapping m = true)
    (h : Value.everyEntry ofScalar given document = true) :
    Contract.everyPart ofMapping document = true := by
  rw [Contract.everyPart, Bool.and_eq_true, Option.all_eq_true, Option.all_eq_true]
  refine ⟨fun methods hMethods => ?_, fun schemas hSchemas => ?_⟩
  · exact Value.every_mono (fun _ _ => rfl) hMapping methods (Value.every_of_get? h hMethods)
  · have hEvery := every_of_rawSchemas h hSchemas
    rw [Bool.and_eq_true, Option.all_eq_true]
    exact ⟨fun entries hEntries => hTexts _ (Value.every_of_entries? hEvery hEntries).1,
      Value.every_mono (fun _ _ => rfl) hMapping schemas hEvery⟩

theorem everyPart_mono {ofMapping' : Mapping → Bool}
    (hMapping : ∀ m, ofMapping m = true → ofMapping' m = true)
    (h : Contract.everyPart ofMapping document = true) :
    Contract.everyPart ofMapping' document = true := by
  have hValue : ∀ value : Value, value.every (fun _ => true) ofMapping = true →
      value.every (fun _ => true) ofMapping' = true :=
    Value.every_mono (fun _ _ => rfl) fun m hm _ => hMapping m hm
  rw [Contract.everyPart, Bool.and_eq_true, Option.all_eq_true, Option.all_eq_true] at h ⊢
  refine ⟨fun methods hMethods => hValue _ (h.1 methods hMethods), fun schemas hSchemas => ?_⟩
  obtain ⟨hKeys, hEvery⟩ := Bool.and_eq_true_iff.mp (h.2 schemas hSchemas)
  exact Bool.and_eq_true_iff.mpr ⟨hKeys, hValue _ hEvery⟩

end Parts

/-- What holds of all mappings in the parts of a document holds of what its schemas are read from. -/
theorem everySchema_of_read {direction : Direction} {source : String} {document : Mapping}
    {contract : Contract} (h : Contract.read direction source document = .ok contract)
    (hParts : Contract.everyPart ofMapping document = true) :
    contract.EverySchema (Schema.IsRead ofMapping source) ∧
      ∀ entry ∈ contract.schemas, entry.1.isText = true := by
  obtain ⟨-, ⟨raws, hRaws, hRead⟩, hShared⟩ := Contract.read_ok h
  have hMethods : ∀ method ∈ contract.methods,
      method.EverySchema (Schema.IsRead ofMapping source) := by
    intro method hMethod
    obtain ⟨raw, hRaw, hOne⟩ := mem_of_mapM hRead hMethod
    obtain ⟨value, hValue, hItems⟩ := Option.bind_eq_some_iff.mp hRaws
    exact isRead_of_method hOne
      (Value.every_of_items? (every_of_methods hParts hValue) hItems raw hRaw)
  have hSchemas : ∀ entry ∈ contract.schemas,
      entry.1.isText = true ∧ entry.2.IsRead ofMapping source := by
    rcases hShared with hNone | ⟨entries, mark, hEntries, hRead⟩
    · rw [hNone]
      exact List.forall_mem_nil _
    · obtain ⟨hKeys, hInside⟩ := every_of_sharedEntries hParts hEntries rfl
      exact isRead_of_shared hRead hKeys hInside
  exact ⟨⟨hMethods, fun entry hEntry => (hSchemas entry hEntry).2⟩,
    fun entry hEntry => (hSchemas entry hEntry).1⟩

/-- A contract that is read from parts with texts for names has texts for keys. -/
theorem hasTextKeys_of_parts {direction : Direction} {source : String} {document : Mapping}
    {contract : Contract} (h : Contract.read direction source document = .ok contract)
    (hNames : Contract.everyPart Schema.hasTextNames document = true) : contract.HasTextKeys := by
  obtain ⟨hRead, hShared⟩ := everySchema_of_read h hNames
  have hKeys : contract.EverySchema fun schema => schema.hasTextKeys = true := by
    refine hRead.mono fun schema hSchema => ?_
    obtain ⟨location, value, hRead, hEvery⟩ := hSchema
    exact Schema.hasTextKeys_of_read hRead hEvery
  exact ⟨hKeys.1, Schema.haveTextKeys_iff.mpr fun entry hEntry =>
    ⟨hShared entry hEntry, hKeys.2 entry hEntry⟩⟩

/-- A contract that is read from a document with texts for keys has texts for keys. -/
theorem hasTextKeys_of_readContract {direction : Direction} {source : String}
    {document : Mapping} {contract : Contract}
    (h : Contract.read direction source document = .ok contract)
    (hKeys : (Value.mapping document none).hasTextKeys = true) : contract.HasTextKeys :=
  hasTextKeys_of_parts h (everyPart_of_every (fun _ hTexts => hTexts)
    (fun _ _ => Schema.hasTextNames_of_inside) (Value.every_of_entries? hKeys rfl).2)

end CommBindings
