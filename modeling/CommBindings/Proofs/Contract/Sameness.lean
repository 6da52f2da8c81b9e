import CommBindings.Contract.Validation
import CommBindings.Proofs.Contract.Reading
import CommBindings.Proofs.Contract.Reference
import CommBindings.Proofs.Contract.SortedTexts

set_option autoImplicit false

/-! # Schemas that are the same

Two schemas are the same if they differ at most in the order of properties, at any depth
(`Schema.Same`). Schemas that are read from a document have each property once, and their required
names in sorted order (`orderly_of_readContract`). For such schemas the check of the validator is
exact: it holds if and only if they are the same (`sameAs_iff`).
-/

namespace CommBindings

namespace Schema

/-- Two schemas are the same: leaves if they are equal, arrays if their items are, and objects if they
have one name, one description and one rule for further properties, require the same names, have the
same keys, and under each key the same schemas. -/
inductive Same : Schema → Schema → Prop
  | leaf {schema : Schema} (h : schema.isLeaf = true) : Same schema schema
  | array {items items' : Schema} {description : Option String} (h : Same items items') :
      Same (.array items description) (.array items' description)
  | object {node node' : ObjectSchema} (hName : node.name = node'.name)
      (hDescription : node.description = node'.description)
      (hAdditional : node.additional = node'.additional)
      (hRequired : ∀ name, name ∈ node.required ↔ name ∈ node'.required)
      (hKeys : ∀ key, key ∈ node.properties.map Prod.fst ↔ key ∈ node'.properties.map Prod.fst)
      (hProperties : ∀ key schema schema', (key, schema) ∈ node.properties →
        (key, schema') ∈ node'.properties → Same schema schema') :
      Same (.object node) (.object node')

/-- Every object inside has each property once, under a text, and its required names in order. -/
inductive Orderly : Schema → Prop
  | leaf {schema : Schema} (h : schema.isLeaf = true) : Orderly schema
  | array {items : Schema} {description : Option String} (h : Orderly items) :
      Orderly (.array items description)
  | object {node : ObjectSchema} (hTexts : ∀ property ∈ node.properties, property.1.isText = true)
      (hOnce : (node.properties.map Prod.fst).Nodup)
      (hRequired : ∃ texts, node.required = sortedTexts texts)
      (hParts : ∀ property ∈ node.properties, Orderly property.2) : Orderly (.object node)

theorem inherited_orderly : Inherited Orderly where
  items := by
    intro items description h
    cases h with
    | leaf hLeaf => cases hLeaf
    | array h => exact h
  property := by
    intro node h
    cases h with
    | leaf hLeaf => cases hLeaf
    | object hTexts hOnce hRequired hParts => exact hParts

/-! ## Reading gives orderly schemas -/

/-- Whether the mapping has texts for keys, and each of them once. -/
def hasNamedEntries (m : Mapping) : Bool := m.hasTextKeys && decide (m.map Prod.fst).Nodup

theorem hasNamedEntries_iff {m : Mapping} : hasNamedEntries m = true ↔
    (∀ key ∈ m.map Prod.fst, key.isText = true) ∧ (m.map Prod.fst).Nodup := by
  rw [hasNamedEntries, Bool.and_eq_true, decide_eq_true_eq, Mapping.hasTextKeys, List.all_eq_true,
    List.forall_mem_map]

theorem collected_orderly (source : Option String) :
    Collected source hasNamedEntries Orderly where
  leaf := fun _ hLeaf => .leaf hLeaf
  array := fun _ _ hItems => .array hItems
  object := by
    intro m node _ hInside hNode hParts
    obtain ⟨entries, hEntries, hKeys⟩ := hNode.keys
    have hNamed : hasNamedEntries entries = true := by
      rcases Value.optionalEntries?_some hEntries with rfl | ⟨v, hv, hOwn⟩
      · rfl
      · exact (Value.every_of_entries? (Value.every_of_get? hInside hv) hOwn).1
    obtain ⟨hTexts, hOnce⟩ := hasNamedEntries_iff.mp hNamed
    rw [← hKeys] at hTexts hOnce
    exact .object (fun property hProperty => hTexts _ (List.mem_map_of_mem hProperty)) hOnce
      hNode.required hParts

/-- A schema that is read from mappings with each key once, and texts for keys, is orderly. -/
theorem orderly_of_read {source : Option String} {location : Key} {raw : Value} {schema : Schema}
    (h : read source location raw = .ok schema)
    (hNamed : raw.every (fun _ => true) hasNamedEntries = true) : schema.Orderly :=
  (collected_orderly source).of_read h hNamed

/-! ## The check is exact -/

theorem sameAs_leaf {schema other : Schema} (h : schema.isLeaf = true) :
    schema.sameAs other = true ↔ schema = other := by
  cases schema with
  | array items description => cases h
  | object node => cases h
  | primitive kind description => cases other <;> simp [sameAs]
  | enumeration values description => cases other <;> simp [sameAs]
  | reference pointer description => cases other <;> simp [sameAs]

theorem propertiesIn_iff {properties others : List (Key × Schema)} :
    propertiesIn properties others = true ↔ ∀ property ∈ properties,
      ∃ schema, lookupEntry others property.1 = some schema ∧
        property.2.sameAs schema = true := by
  induction properties with
  | nil => simp [propertiesIn]
  | cons property rest ih =>
      rw [propertiesIn, Bool.and_eq_true, ih, List.forall_mem_cons]
      refine and_congr_left fun _ => ?_
      cases lookupEntry others property.1 with
      | none => simp
      | some schema => simp

/-- Where each key stands once, what a mapping has under a text is what is found there. -/
theorem lookupEntry_eq_some_iff {α : Type} {entries : List (Key × α)} {key : Key} {value : α}
    (hText : key.isText = true) (hOnce : (entries.map Prod.fst).Nodup) :
    lookupEntry entries key = some value ↔ (key, value) ∈ entries := by
  cases key with
  | text name =>
      refine ⟨mem_of_lookupEntry, fun hMem => ?_⟩
      induction entries with
      | nil => exact absurd hMem List.not_mem_nil
      | cons entry rest ih =>
          rw [List.map_cons, List.nodup_cons] at hOnce
          rw [lookupEntry_cons]
          rcases List.mem_cons.mp hMem with rfl | hMem
          · rw [if_pos (by simp [Scalar.sameKey])]
          · have hOther : entry.1.sameKey (.text name) = false := by
              refine Bool.eq_false_iff.mpr fun hSame => hOnce.1 ?_
              rw [eq_of_sameKey_text hSame]
              exact List.mem_map_of_mem hMem
            rw [hOther, if_neg Bool.false_ne_true]
            exact ih hOnce.2 hMem
  | _ => cases hText

theorem sameAs_array {items other : Schema} {description : Option String} :
    (array items description).sameAs other = true ↔
      ∃ items', other = .array items' description ∧ items.sameAs items' = true := by
  cases other with
  | array items' description' =>
      rw [sameAs, Bool.and_eq_true, decide_eq_true_eq]
      constructor
      · rintro ⟨hItems, rfl⟩
        exact ⟨items', rfl, hItems⟩
      · rintro ⟨_, ⟨⟩, hItems⟩
        exact ⟨hItems, rfl⟩
  | _ => simp [sameAs]

theorem same_array {items other : Schema} {description : Option String} :
    Same (array items description) other ↔
      ∃ items', other = .array items' description ∧ Same items items' := by
  constructor
  · intro hSame
    cases hSame with
    | leaf hLeaf => cases hLeaf
    | array hItems => exact ⟨_, rfl, hItems⟩
  · rintro ⟨items', rfl, hItems⟩
    exact .array hItems

theorem sameAs_object {node : ObjectSchema} {other : Schema} :
    (object node).sameAs other = true ↔ ∃ node', other = .object node' ∧
      node.name = node'.name ∧ node.description = node'.description ∧
      node.additional = node'.additional ∧ node.required = node'.required ∧
      node.properties.length = node'.properties.length ∧
      propertiesIn node.properties node'.properties = true := by
  cases other with
  | object node' =>
      obtain ⟨name, description, properties, required, additional⟩ := node
      rw [sameAs, ObjectSchema.sameAs]
      simp only [Bool.and_eq_true, decide_eq_true_eq, object.injEq]
      constructor
      · rintro ⟨⟨⟨⟨⟨hName, hDescription⟩, hRequired⟩, hAdditional⟩, hLength⟩, hProperties⟩
        exact ⟨node', rfl, hName, hDescription, hAdditional, hRequired, hLength, hProperties⟩
      · rintro ⟨_, rfl, hName, hDescription, hAdditional, hRequired, hLength, hProperties⟩
        exact ⟨⟨⟨⟨⟨hName, hDescription⟩, hRequired⟩, hAdditional⟩, hLength⟩, hProperties⟩
  | _ => simp [sameAs]

theorem same_object {node : ObjectSchema} {other : Schema} :
    Same (object node) other ↔ ∃ node', other = .object node' ∧
      node.name = node'.name ∧ node.description = node'.description ∧
      node.additional = node'.additional ∧
      (∀ name, name ∈ node.required ↔ name ∈ node'.required) ∧
      (∀ key, key ∈ node.properties.map Prod.fst ↔ key ∈ node'.properties.map Prod.fst) ∧
      ∀ key schema schema', (key, schema) ∈ node.properties →
        (key, schema') ∈ node'.properties → Same schema schema' := by
  constructor
  · intro hSame
    cases hSame with
    | leaf hLeaf => cases hLeaf
    | object hName hDescription hAdditional hRequired hKeys hProperties =>
        exact ⟨_, rfl, hName, hDescription, hAdditional, hRequired, hKeys, hProperties⟩
  · rintro ⟨node', rfl, hName, hDescription, hAdditional, hRequired, hKeys, hProperties⟩
    exact .object hName hDescription hAdditional hRequired hKeys hProperties

/-- Properties are among others of their number exactly if the keys are the same, with the same schema
under each. -/
theorem propertiesIn_iff_same {properties others : List (Key × Schema)}
    (hTexts : ∀ property ∈ properties, property.1.isText = true)
    (hOnce : (properties.map Prod.fst).Nodup) (hOtherOnce : (others.map Prod.fst).Nodup)
    (hSame : ∀ property ∈ properties, ∀ other ∈ others,
      property.2.sameAs other.2 = true ↔ Same property.2 other.2) :
    properties.length = others.length ∧ propertiesIn properties others = true ↔
      (∀ key, key ∈ properties.map Prod.fst ↔ key ∈ others.map Prod.fst) ∧
      ∀ key schema schema', (key, schema) ∈ properties → (key, schema') ∈ others →
        Same schema schema' := by
  rw [propertiesIn_iff]
  constructor
  · rintro ⟨hLength, hIn⟩
    have hSubset : properties.map Prod.fst ⊆ others.map Prod.fst := by
      refine List.forall_mem_map.mpr fun property hProperty => ?_
      obtain ⟨schema, hFound, -⟩ := hIn property hProperty
      have hMem := (lookupEntry_eq_some_iff (hTexts property hProperty) hOtherOnce).mp hFound
      exact List.mem_map.mpr ⟨_, hMem, rfl⟩
    have hPerm : (properties.map Prod.fst).Perm (others.map Prod.fst) := by
      refine (List.Nodup.subperm hOnce hSubset).perm_of_length_le ?_
      rw [List.length_map, List.length_map, hLength]
    refine ⟨fun key => hPerm.mem_iff, fun key schema schema' hSchema hSchema' => ?_⟩
    obtain ⟨found, hFound, hSameFound⟩ := hIn _ hSchema
    -- the key stands once among the others, so what is found is the schema there
    have hThere := (lookupEntry_eq_some_iff (hTexts _ hSchema) hOtherOnce).mpr hSchema'
    have hEq : schema' = found := Option.some.inj (hThere.symm.trans hFound)
    rw [← hEq] at hSameFound
    exact (hSame _ hSchema _ hSchema').mp hSameFound
  · rintro ⟨hKeys, hProperties⟩
    have hPerm : (properties.map Prod.fst).Perm (others.map Prod.fst) :=
      (List.perm_ext_iff_of_nodup hOnce hOtherOnce).mpr hKeys
    have hLength := hPerm.length_eq
    rw [List.length_map, List.length_map] at hLength
    refine ⟨hLength, fun property hProperty => ?_⟩
    obtain ⟨other, hOther, hKey⟩ :=
      List.mem_map.mp ((hKeys property.1).mp (List.mem_map_of_mem hProperty))
    have hMem : (property.1, other.2) ∈ others := by
      rw [← hKey]
      exact hOther
    exact ⟨other.2,
      (lookupEntry_eq_some_iff (hTexts property hProperty) hOtherOnce).mpr hMem,
      (hSame property hProperty _ hMem).mpr (hProperties _ _ _ hProperty hMem)⟩

/-- For orderly schemas the validator's check holds exactly if they are the same. -/
theorem sameAs_iff {schema other : Schema} (h : schema.Orderly) (hOther : other.Orderly) :
    schema.sameAs other = true ↔ Same schema other := by
  induction h generalizing other with
  | leaf hLeaf =>
      rw [sameAs_leaf hLeaf]
      constructor
      · rintro rfl
        exact .leaf hLeaf
      · intro hSame
        cases hSame with
        | leaf _ => rfl
        | array _ => cases hLeaf
        | object _ _ _ _ _ _ => cases hLeaf
  | array hItems ih =>
      rw [sameAs_array, same_array]
      refine exists_congr fun items' => and_congr_right fun hArray => ?_
      rw [hArray] at hOther
      exact ih (inherited_orderly.items _ _ hOther)
  | @object node hTexts hOnce hRequired hParts ih =>
      rw [sameAs_object, same_object]
      refine exists_congr fun node' => and_congr_right fun hObject => ?_
      rw [hObject] at hOther
      cases hOther with
      | leaf hLeaf => cases hLeaf
      | object hTexts' hOnce' hRequired' hParts' =>
        -- sorted texts are equal if they have the same members
        have hTextsSame : node.required = node'.required ↔
            ∀ name, name ∈ node.required ↔ name ∈ node'.required := by
          obtain ⟨texts, hTexts⟩ := hRequired
          obtain ⟨others, hOthers⟩ := hRequired'
          rw [hTexts, hOthers]
          exact ⟨fun hEq name => by rw [hEq], sortedTexts_congr⟩
        rw [hTextsSame, propertiesIn_iff_same hTexts hOnce hOnce' fun property hProperty other
          hOther => ih property hProperty (hParts' other hOther)]

/-- An orderly schema is the same as itself. -/
theorem Same.refl {schema : Schema} (h : schema.Orderly) : Same schema schema := by
  induction h with
  | leaf hLeaf => exact .leaf hLeaf
  | array _ ih => exact .array ih
  | @object node hTexts hOnce _ _ ih =>
      refine .object rfl rfl rfl (fun _ => Iff.rfl) (fun _ => Iff.rfl) ?_
      intro key schema schema' hSchema hSchema'
      have hThere := (lookupEntry_eq_some_iff (hTexts _ hSchema) hOnce).mpr hSchema
      have hAgain := (lookupEntry_eq_some_iff (hTexts _ hSchema) hOnce).mpr hSchema'
      have hEq : schema = schema' := Option.some.inj (hThere.symm.trans hAgain)
      rw [← hEq]
      exact ih _ hSchema

end Schema

/-! ## Contracts -/

/-- Whether all mappings inside the value have texts for keys, and each of them once. -/
def Value.hasNamedEntries (value : Value) : Bool :=
  value.every (fun _ => true) Schema.hasNamedEntries

theorem hasTextKeys_of_hasNamedEntries {value : Value} (h : value.hasNamedEntries = true) :
    value.hasTextKeys = true :=
  Value.every_mono (fun _ hScalar => hScalar)
    (fun _ hMapping _ => (Bool.and_eq_true_iff.mp hMapping).1) value h

/-- The schemas of a contract that is read from a document are orderly. -/
theorem orderly_of_readContract {direction : Direction} {source : String} {document : Mapping}
    {contract : Contract} (h : Contract.read direction source document = .ok contract)
    (hNamed : (Value.mapping document none).hasNamedEntries = true) :
    contract.EverySchema Schema.Orderly := by
  have hParts : Contract.everyPart Schema.hasNamedEntries document = true :=
    everyPart_of_every (fun _ hMapping => (Bool.and_eq_true_iff.mp hMapping).1)
      (fun _ hMapping _ => hMapping) (Value.every_of_entries? hNamed rfl).2
  refine (everySchema_of_read h hParts).1.mono fun schema hSchema => ?_
  obtain ⟨location, value, hRead, hEvery⟩ := hSchema
  exact Schema.orderly_of_read hRead hEvery

end CommBindings
