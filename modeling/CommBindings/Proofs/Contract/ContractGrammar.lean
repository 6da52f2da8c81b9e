import CommBindings.Proofs.Contract.SchemaGrammar

set_option autoImplicit false

/-! # The grammar of contracts

Which documents are contracts (`Contract.InGrammar`), and which contract says what a document says
(`Contract.Mirrors`), told by the entries of the document alone. Reading comes to a contract exactly for
the documents in the grammar, and the contract mirrors the document (`read_faithful`): its methods,
their parameters and the shared schemas stand in the order of the document, one for each.
-/

namespace CommBindings

/-! ## Names -/

/-- The node is a mapping that bears the name. -/
def Named (raw : Value) (name : String) : Prop :=
  ∃ (m : Mapping) (mark : Option Mark), raw = .mapping m mark ∧ m.Says "name" name

/-- Each of the nodes bears a name, and no two bear the same. -/
def NamedApart (raws : List Value) : Prop := ∃ names, List.Forall₂ Named raws names ∧ names.Nodup

theorem Mapping.Says.unique {m : Mapping} {key text other : String} (h : m.Says key text)
    (hOther : m.Says key other) : text = other :=
  Option.some.inj ((says_iff_prose.mp h).symm.trans (says_iff_prose.mp hOther))

theorem named_unique : Relator.RightUnique Named := by
  rintro raw name other ⟨m, mark, rfl, hName⟩ ⟨_, _, hSame, hOther⟩
  cases hSame
  exact hName.unique hOther

theorem firstRepeated?_eq_none_iff {names : List String} (seen : List String) :
    firstRepeated? seen names = none ↔ names.Nodup ∧ ∀ name ∈ names, name ∉ seen := by
  -- every step adds a name to those that were seen
  induction names generalizing seen with
  | nil => simp [firstRepeated?]
  | cons name rest ih =>
      rw [firstRepeated?]
      by_cases hSeen : name ∈ seen
      · rw [if_pos (List.contains_iff_mem.mpr hSeen)]
        constructor
        · exact nofun
        · exact fun h => absurd hSeen (h.2 name List.mem_cons_self)
      · rw [if_neg (fun h => hSeen (List.contains_iff_mem.mp h)), ih, List.nodup_cons,
          List.forall_mem_cons]
        constructor
        · rintro ⟨hRest, hApart⟩
          refine ⟨⟨fun hAgain => hApart name hAgain List.mem_cons_self, hRest⟩, hSeen,
            fun other hOther hIn => hApart other hOther (List.mem_cons_of_mem _ hIn)⟩
        · rintro ⟨⟨hOnce, hRest⟩, -, hApart⟩
          refine ⟨hRest, fun other hOther hIn => ?_⟩
          rcases List.mem_cons.mp hIn with rfl | hIn
          · exact hOnce hOther
          · exact hApart other hOther hIn

theorem firstRepeated?_nil_iff {names : List String} :
    firstRepeated? [] names = none ↔ names.Nodup := by
  rw [firstRepeated?_eq_none_iff]
  exact and_iff_left fun _ _ => List.not_mem_nil

/-- What is read from nodes one by one, with the names of the nodes, has names apart exactly if the
nodes have. -/
theorem namedApart_iff {α : Type} {raws : List Value} {parts : List α} {name : α → String}
    (h : List.Forall₂ (fun raw part => Named raw (name part)) raws parts) :
    NamedApart raws ↔ (parts.map name).Nodup := by
  have hNames : List.Forall₂ Named raws (parts.map name) := List.forall₂_map_right_iff.mpr h
  constructor
  · rintro ⟨names, hOther, hApart⟩
    rwa [named_unique.forall₂ hNames hOther]
  · exact fun hApart => ⟨_, hNames, hApart⟩

/-! ## Parameters -/

namespace Param

/-- The raw nodes that are parameters: those with a name, a description and a schema in which a flag
that says whether the parameter is required is a truth value. -/
inductive InGrammar : Value → Prop where
  | intro {m : Mapping} {mark : Option Mark} {name description : String} {schema : Value}
      (hName : m.Says "name" name) (hDescription : m.Says "description" description)
      (hSchema : m.get? "schema" = some schema) (hInside : Schema.InGrammar schema)
      (hFlag : m.get? "required" = none ∨ ∃ flag, m.get? "required" = some (.scalar (.bool flag))) :
      InGrammar (.mapping m mark)

/-- The parameter says what the raw node says. It is required if its flag is left out or true. -/
inductive Mirrors : Value → Param → Prop where
  | intro {m : Mapping} {mark : Option Mark} {param : Param} {schema : Value}
      (hName : m.Says "name" param.name) (hDescription : m.Says "description" param.description)
      (hSchema : m.get? "schema" = some schema) (hInside : Schema.Mirrors schema param.schema)
      (hRequired : param.isRequired = true ↔
        m.get? "required" = none ∨ m.get? "required" = some (.scalar (.bool true))) :
      Mirrors (.mapping m mark) param

variable {m : Mapping} {mark : Option Mark} {source method : String} {param : Param}

theorem readFlag?_total {value : Option Value}
    (h : value = none ∨ ∃ flag, value = some (.scalar (.bool flag))) :
    ∃ isRequired, readFlag? value = some isRequired := by
  rcases h with rfl | ⟨flag, rfl⟩
  · exact ⟨true, rfl⟩
  · exact ⟨flag, rfl⟩

theorem readFlag?_eq_some {value : Option Value} {isRequired : Bool}
    (h : readFlag? value = some isRequired) :
    (value = none ∨ ∃ flag, value = some (.scalar (.bool flag))) ∧
      (isRequired = true ↔ value = none ∨ value = some (.scalar (.bool true))) := by
  unfold readFlag? at h
  split at h
  · cases h
    simp
  · cases h
    simp
  · cases h

theorem read_iff : read source method (.mapping m mark) = .ok param ↔
    ∃ raw, m.Says "name" param.name ∧ m.Says "description" param.description ∧
      m.get? "schema" = some raw ∧ readFlag? (m.get? "required") = some param.isRequired ∧
      Schema.read (some source) (.text (method ++ "." ++ param.name)) raw = .ok param.schema := by
  simp only [says_iff_prose]
  constructor
  · intro h
    rw [read] at h
    simp only [Value.entries?] at h
    split at h
    · exact absurd h violate_ne_ok
    · next name hName =>
      split at h
      · exact absurd h violate_ne_ok
      · next description hDescription =>
        split at h
        · exact absurd h violate_ne_ok
        · next raw hRaw =>
          split at h
          · exact absurd h violate_ne_ok
          · next isRequired hFlag =>
            obtain ⟨schema, hSchema, h⟩ := bind_eq_ok.mp h
            cases h
            exact ⟨raw, hName, hDescription, hRaw, hFlag, hSchema⟩
  · rintro ⟨raw, hName, hDescription, hRaw, hFlag, hSchema⟩
    rw [read, Value.entries?]
    simp only [hName, hDescription, hRaw, hFlag]
    exact bind_eq_ok.mpr ⟨param.schema, hSchema, rfl⟩

theorem mapping_of_read {raw : Value} (h : read source method raw = .ok param) :
    ∃ (m : Mapping) (mark : Option Mark), raw = .mapping m mark := by
  cases hEntries : raw.entries? with
  | none =>
      rw [read, hEntries] at h
      exact absurd h violate_ne_ok
  | some m => exact ⟨m, Value.entries?_eq_some_iff.mp hEntries⟩

theorem read_sound {raw : Value} (h : read source method raw = .ok param) :
    InGrammar raw ∧ Mirrors raw param ∧ Named raw param.name := by
  obtain ⟨m, mark, rfl⟩ := mapping_of_read h
  obtain ⟨schema, hName, hDescription, hSchema, hFlag, hRead⟩ := read_iff.mp h
  obtain ⟨hGrammar, hMirrors⟩ := Schema.read_sound hRead
  obtain ⟨hTruth, hRequired⟩ := readFlag?_eq_some hFlag
  exact ⟨.intro hName hDescription hSchema hGrammar hTruth,
    .intro hName hDescription hSchema hMirrors hRequired, m, mark, rfl, hName⟩

theorem read_complete {raw : Value} (h : InGrammar raw) (hShort : raw.isShort = true) :
    ∃ param, read source method raw = .ok param := by
  cases h with
  | @intro m mark name description schema hName hDescription hSchema hInside hFlag =>
    have hParts := (Value.every_of_entries? hShort rfl).2
    obtain ⟨isRequired, hRequired⟩ := readFlag?_total hFlag
    obtain ⟨part, hPart⟩ := @Schema.read_complete (some source) _ hInside
      (Value.every_of_get? hParts hSchema) (.text (method ++ "." ++ name)) rfl
    exact ⟨⟨name, description, part, isRequired⟩,
      read_iff.mpr ⟨schema, hName, hDescription, hSchema, hRequired, hPart⟩⟩

end Param

/-! ## Methods -/

namespace Method

/-- The entry for the result of a method is a mapping with a schema. -/
def ResultHas (m : Mapping) (schema : Value) : Prop :=
  ∃ (result : Mapping) (mark : Option Mark),
    m.get? "result" = some (.mapping result mark) ∧ result.get? "schema" = some schema

/-- The raw nodes that are methods. -/
inductive InGrammar : Value → Prop where
  | intro {m : Mapping} {mark : Option Mark} {name summary : String} {params : List Value}
      (hName : m.Says "name" name) (hSummary : m.Says "summary" summary)
      (hParams : OptionalItems (m.get? "params") params)
      (hEach : ∀ raw ∈ params, Param.InGrammar raw) (hApart : NamedApart params)
      (hResult : ∀ schema, ResultHas m schema → Schema.InGrammar schema) :
      InGrammar (.mapping m mark)

/-- The method says what the raw node says: it has its parameters, in order and one for each, and a
result exactly if the node has a schema for one. -/
inductive Mirrors : Value → Method → Prop where
  | intro {m : Mapping} {mark : Option Mark} {method : Method} {params : List Value}
      (hName : m.Says "name" method.name) (hSummary : m.Says "summary" method.summary)
      (hDescription : m.Keeps "description" method.description)
      (hParams : OptionalItems (m.get? "params") params)
      (hEach : List.Forall₂ Param.Mirrors params method.params)
      (hPresent : method.result.isSome = true ↔ ∃ schema, ResultHas m schema)
      (hResult : ∀ schema part, ResultHas m schema → method.result = some part →
        Schema.Mirrors schema part) :
      Mirrors (.mapping m mark) method

variable {m : Mapping} {mark : Option Mark} {source : String} {method : Method}

theorem resultHas_iff {schema : Value} : ResultHas m schema ↔
    (((m.get? "result").bind Value.entries?).bind fun m => m.get? "schema") = some schema := by
  rw [Option.bind_eq_some_iff]
  constructor
  · rintro ⟨result, mark, hResult, hSchema⟩
    exact ⟨result, by rw [hResult]; rfl, hSchema⟩
  · rintro ⟨result, hResult, hSchema⟩
    obtain ⟨value, hValue, hEntries⟩ := Option.bind_eq_some_iff.mp hResult
    obtain ⟨mark, rfl⟩ := Value.entries?_eq_some_iff.mp hEntries
    exact ⟨result, mark, hValue, hSchema⟩

theorem readResult_sound {name : String} {result : Option Schema}
    (h : readResult source name (m.get? "result") = .ok result) :
    (∀ schema, ResultHas m schema → Schema.InGrammar schema) ∧
      (result.isSome = true ↔ ∃ schema, ResultHas m schema) ∧
      ∀ schema part, ResultHas m schema → result = some part → Schema.Mirrors schema part := by
  simp only [resultHas_iff]
  unfold readResult at h
  split at h
  · next hNone =>
    cases h
    simp [hNone]
  · next raw hRaw =>
    obtain ⟨part, hRead, rfl⟩ := map_eq_ok.mp h
    obtain ⟨hGrammar, hMirrors⟩ := Schema.read_sound hRead
    rw [hRaw]
    refine ⟨?_, ⟨fun _ => ⟨raw, rfl⟩, fun _ => rfl⟩, ?_⟩
    · rintro _ ⟨⟩
      exact hGrammar
    · rintro _ _ ⟨⟩ ⟨⟩
      exact hMirrors

theorem readResult_total (name : String)
    (hResult : ∀ schema, ResultHas m schema → Schema.InGrammar schema)
    (hShort : Value.everyEntry Scalar.isShort Mapping.hasShortKeys m = true) :
    ∃ result, readResult source name (m.get? "result") = .ok result := by
  unfold readResult
  split
  · exact ⟨none, rfl⟩
  · next raw hRaw =>
    obtain ⟨result, mark, hOuter, hSchema⟩ := resultHas_iff.mpr hRaw
    have hInner := (Value.every_of_entries? (Value.every_of_get? hShort hOuter) rfl).2
    obtain ⟨part, hPart⟩ := @Schema.read_complete (some source) _ (hResult raw ⟨_, _, hOuter, hSchema⟩)
      (Value.every_of_get? hInner hSchema) (.text (name ++ ".result")) rfl
    exact ⟨some part, map_eq_ok.mpr ⟨part, hPart, rfl⟩⟩

theorem read_iff : read source (.mapping m mark) = .ok method ↔
    ∃ raws, m.Says "name" method.name ∧ m.Says "summary" method.summary ∧
      m.prose? "description" = method.description ∧ OptionalItems (m.get? "params") raws ∧
      raws.mapM (Param.read source method.name) = .ok method.params ∧
      (method.params.map Param.name).Nodup ∧
      readResult source method.name (m.get? "result") = .ok method.result := by
  simp only [says_iff_prose, optionalItems_iff, ← firstRepeated?_nil_iff]
  constructor
  · intro h
    rw [read] at h
    simp only [Value.entries?] at h
    split at h
    · exact absurd h violate_ne_ok
    · next name hName =>
      split at h
      · exact absurd h violate_ne_ok
      · next summary hSummary =>
        split at h
        · exact absurd h violate_ne_ok
        · next raws hRaws =>
          obtain ⟨params, hParams, h⟩ := bind_eq_ok.mp h
          split at h
          · exact absurd h violate_ne_ok
          · next hApart =>
            obtain ⟨result, hResult, h⟩ := bind_eq_ok.mp h
            cases h
            exact ⟨raws, hName, hSummary, rfl, hRaws, hParams, hApart, hResult⟩
  · rintro ⟨raws, hName, hSummary, hDescription, hRaws, hParams, hApart, hResult⟩
    rw [read, Value.entries?]
    simp only [hName, hSummary, hRaws, hDescription]
    refine bind_eq_ok.mpr ⟨method.params, hParams, ?_⟩
    simp only [hApart]
    exact bind_eq_ok.mpr ⟨method.result, hResult, rfl⟩

theorem mapping_of_read {raw : Value} (h : read source raw = .ok method) :
    ∃ (m : Mapping) (mark : Option Mark), raw = .mapping m mark := by
  cases hEntries : raw.entries? with
  | none =>
      rw [read, hEntries] at h
      exact absurd h violate_ne_ok
  | some m => exact ⟨m, Value.entries?_eq_some_iff.mp hEntries⟩

/-- The parameters that were read, beside the nodes that they were read from. -/
theorem params_sound {name : String} {raws : List Value} {params : List Param}
    (h : raws.mapM (Param.read source name) = .ok params) :
    List.Forall₂ (fun raw param =>
      Param.InGrammar raw ∧ Param.Mirrors raw param ∧ Named raw param.name) raws params :=
  (mapM_eq_ok.mp h).imp fun _ _ => Param.read_sound

theorem read_sound {raw : Value} (h : read source raw = .ok method) :
    InGrammar raw ∧ Mirrors raw method ∧ Named raw method.name := by
  obtain ⟨m, mark, rfl⟩ := mapping_of_read h
  obtain ⟨raws, hName, hSummary, hDescription, hRaws, hParams, hApart, hResult⟩ := read_iff.mp h
  obtain ⟨hInside, hPresent, hMirrors⟩ := readResult_sound hResult
  have hEach := params_sound hParams
  refine ⟨.intro hName hSummary hRaws ?_ ((namedApart_iff (hEach.imp fun _ _ h => h.2.2)).mpr hApart)
    hInside, .intro hName hSummary (hDescription ▸ keeps_prose m "description") hRaws
      (hEach.imp fun _ _ h => h.2.1) hPresent hMirrors, m, mark, rfl, hName⟩
  intro raw hRaw
  obtain ⟨param, -, hRead⟩ := exists_of_mapM hParams hRaw
  exact (Param.read_sound hRead).1

theorem read_complete {raw : Value} (h : InGrammar raw) (hShort : raw.isShort = true) :
    ∃ method, read source raw = .ok method := by
  cases h with
  | @intro m mark name summary raws hName hSummary hRaws hEach hApart hResult =>
    have hParts := (Value.every_of_entries? hShort rfl).2
    have hItems := Value.every_of_optionalItems? (fun _ hSome => Value.every_of_get? hParts hSome)
      (optionalItems_iff.mp hRaws)
    obtain ⟨params, hParams⟩ := mapM_total fun raw hRaw =>
      @Param.read_complete source name raw (hEach raw hRaw) (hItems raw hRaw)
    obtain ⟨result, hRead⟩ := @readResult_total m source name hResult hParts
    have hNames := (params_sound hParams).imp fun _ _ h => h.2.2
    exact ⟨⟨name, summary, m.prose? "description", params, result⟩,
      read_iff.mpr ⟨raws, hName, hSummary, rfl, hRaws, hParams, (namedApart_iff hNames).mp hApart,
        hRead⟩⟩

end Method

/-! ## Contracts -/

namespace Contract

/-- The entries of the shared schemas of a document. There are none if the components are no mapping
or have no schemas, or if `null` stands for the schemas. -/
inductive SharedSchemas (document : Mapping) : Mapping → Prop where
  | apart (h : ∀ components mark, document.get? "components" ≠ some (.mapping components mark)) :
      SharedSchemas document []
  | absent {components : Mapping} {mark : Option Mark}
      (hComponents : document.get? "components" = some (.mapping components mark))
      (h : components.get? "schemas" = none) : SharedSchemas document []
  | null {components : Mapping} {mark : Option Mark}
      (hComponents : document.get? "components" = some (.mapping components mark))
      (h : components.get? "schemas" = some .null) : SharedSchemas document []
  | given {components entries : Mapping} {mark inner : Option Mark}
      (hComponents : document.get? "components" = some (.mapping components mark))
      (h : components.get? "schemas" = some (.mapping entries inner)) :
      SharedSchemas document entries

/-- The documents that are contracts. -/
inductive InGrammar (document : Mapping) : Prop where
  | intro {raws : List Value} {mark : Option Mark} {entries : Mapping}
      (hMethods : document.get? "methods" = some (.list raws mark))
      (hEach : ∀ raw ∈ raws, Method.InGrammar raw) (hApart : NamedApart raws)
      (hShared : SharedSchemas document entries)
      (hSchemas : ∀ entry ∈ entries, Schema.InGrammar entry.2) : InGrammar document

/-- A shared schema has the key of the entry that it mirrors. -/
def MirrorsEntry (entry : Key × Value) (shared : Key × Schema) : Prop :=
  shared.1 = entry.1 ∧ Schema.Mirrors entry.2 shared.2

/-- The contract says what the document says: it has its methods and its shared schemas, in order and
one for each. -/
inductive Mirrors (document : Mapping) (contract : Contract) : Prop where
  | intro {raws : List Value} {mark : Option Mark} {entries : Mapping}
      (hDocument : contract.document = document)
      (hMethods : document.get? "methods" = some (.list raws mark))
      (hEach : List.Forall₂ Method.Mirrors raws contract.methods)
      (hShared : SharedSchemas document entries)
      (hSchemas : List.Forall₂ MirrorsEntry entries contract.schemas) : Mirrors document contract

variable {direction : Direction} {source : String} {document : Mapping} {contract : Contract}

theorem readSchemas_sound {entries : Mapping} {schemas : List (Key × Schema)}
    (h : readSchemas source entries = .ok schemas) :
    (∀ entry ∈ entries, Schema.InGrammar entry.2) ∧
      List.Forall₂ MirrorsEntry entries schemas := by
  induction entries generalizing schemas with
  | nil =>
      cases h
      exact ⟨List.forall_mem_nil _, .nil⟩
  | cons entry rest ih =>
      rw [readSchemas] at h
      obtain ⟨schema, hSchema, h⟩ := bind_eq_ok.mp h
      obtain ⟨others, hOthers, h⟩ := bind_eq_ok.mp h
      cases h
      obtain ⟨hGrammar, hMirrors⟩ := Schema.read_sound hSchema
      obtain ⟨hAllGrammar, hAllMirror⟩ := ih hOthers
      exact ⟨List.forall_mem_cons.mpr ⟨hGrammar, hAllGrammar⟩,
        .cons ⟨rfl, hMirrors⟩ hAllMirror⟩

theorem readSchemas_total {entries : Mapping} (hKeys : entries.hasShortKeys = true)
    (hEach : ∀ entry ∈ entries, Schema.InGrammar entry.2 ∧ entry.2.isShort = true) :
    ∃ schemas, readSchemas source entries = .ok schemas := by
  induction entries with
  | nil => exact ⟨[], rfl⟩
  | cons entry rest ih =>
      rw [Mapping.hasShortKeys, List.all_cons, Bool.and_eq_true] at hKeys
      obtain ⟨⟨hGrammar, hShort⟩, hRest⟩ := List.forall_mem_cons.mp hEach
      obtain ⟨schema, hSchema⟩ := @Schema.read_complete (some source) _ hGrammar hShort _ hKeys.1
      obtain ⟨others, hOthers⟩ := ih hKeys.2 hRest
      refine ⟨(entry.1, schema) :: others, ?_⟩
      rw [readSchemas]
      exact bind_eq_ok.mpr ⟨schema, hSchema, bind_eq_ok.mpr ⟨others, hOthers, rfl⟩⟩

/-- The shared schemas of a document, as they are read. -/
theorem sharedSchemas_iff {entries : Mapping} : SharedSchemas document entries ↔
    (rawSchemas document = none ∧ entries = []) ∨
      ∃ mark, rawSchemas document = some (.mapping entries mark) := by
  unfold rawSchemas
  constructor
  · intro h
    cases h with
    | apart hNone =>
        have hEntries : (document.get? "components").bind Value.entries? = none := by
          rw [Option.eq_none_iff_forall_ne_some]
          intro components hSome
          obtain ⟨value, hValue, hComponents⟩ := Option.bind_eq_some_iff.mp hSome
          obtain ⟨mark, rfl⟩ := Value.entries?_eq_some_iff.mp hComponents
          exact hNone components mark hValue
        rw [hEntries]
        exact Or.inl ⟨rfl, rfl⟩
    | absent hComponents hNone =>
        refine Or.inl ⟨?_, rfl⟩
        rw [hComponents, Option.bind_some, Value.entries?]
        simp only [hNone]
    | null hComponents hNull =>
        refine Or.inl ⟨?_, rfl⟩
        rw [hComponents, Option.bind_some, Value.entries?]
        simp only [hNull, Value.null]
    | given hComponents hGiven =>
        rw [hComponents, Option.bind_some, Value.entries?]
        simp only [hGiven]
        exact Or.inr ⟨_, rfl⟩
  · intro h
    split at h
    · next hNone =>
      rcases h with ⟨-, rfl⟩ | ⟨_, h⟩
      · refine .apart fun components mark hSome => ?_
        rw [hSome] at hNone
        cases hNone
      · cases h
    · next components hComponents =>
      obtain ⟨outer, hOuter, hInner⟩ := Option.bind_eq_some_iff.mp hComponents
      obtain ⟨mark, rfl⟩ := Value.entries?_eq_some_iff.mp hInner
      split at h
      · next hNull =>
        rcases h with ⟨-, rfl⟩ | ⟨_, h⟩
        · exact .null hOuter hNull
        · cases h
      · rcases h with ⟨hNone, rfl⟩ | ⟨_, hGiven⟩
        · exact .absent hOuter hNone
        · exact .given hOuter hGiven

theorem methods_iff {raws : List Value} :
    (document.get? "methods").bind Value.items? = some raws ↔
      ∃ mark, document.get? "methods" = some (.list raws mark) := by
  constructor
  · intro h
    obtain ⟨value, hValue, hItems⟩ := Option.bind_eq_some_iff.mp h
    obtain ⟨mark, rfl⟩ := Value.items?_eq_some_iff.mp hItems
    exact ⟨mark, hValue⟩
  · rintro ⟨mark, hMethods⟩
    rw [hMethods]
    rfl

theorem read_iff : read direction source document = .ok contract ↔
    ∃ raws mark entries, document.get? "methods" = some (.list raws mark) ∧
      raws.mapM (Method.read source) = .ok contract.methods ∧
      (contract.methods.map Method.name).Nodup ∧ SharedSchemas document entries ∧
      readSchemas source entries = .ok contract.schemas ∧
      contract.direction = direction ∧ contract.source = source ∧
      contract.document = document := by
  simp only [sharedSchemas_iff, ← firstRepeated?_nil_iff]
  constructor
  · intro h
    unfold read at h
    split at h
    · exact absurd h violate_ne_ok
    · next raws hRaws =>
      obtain ⟨mark, hRaws⟩ := methods_iff.mp hRaws
      obtain ⟨methods, hMethods, h⟩ := bind_eq_ok.mp h
      split at h
      · exact absurd h violate_ne_ok
      · next hApart =>
        split at h
        · next hNone =>
          cases h
          exact ⟨raws, mark, [], hRaws, hMethods, hApart, Or.inl ⟨hNone, rfl⟩, rfl, rfl, rfl, rfl⟩
        · next entries inner hEntries =>
          obtain ⟨schemas, hSchemas, h⟩ := bind_eq_ok.mp h
          cases h
          exact ⟨raws, mark, entries, hRaws, hMethods, hApart, Or.inr ⟨inner, hEntries⟩, hSchemas,
            rfl, rfl, rfl⟩
        · exact absurd h violate_ne_ok
  · rintro ⟨raws, mark, entries, hRaws, hMethods, hApart, hShared, hSchemas, rfl, rfl, rfl⟩
    unfold read
    rw [methods_iff.mpr ⟨mark, hRaws⟩]
    refine bind_eq_ok.mpr ⟨contract.methods, hMethods, ?_⟩
    simp only [hApart]
    rcases hShared with ⟨hNone, rfl⟩ | ⟨inner, hEntries⟩
    · rw [hNone]
      cases contract with
      | mk direction source methods schemas document =>
          cases hSchemas
          rfl
    · rw [hEntries]
      exact bind_eq_ok.mpr ⟨contract.schemas, hSchemas, rfl⟩

theorem methods_sound {raws : List Value} {methods : List Method}
    (h : raws.mapM (Method.read source) = .ok methods) :
    List.Forall₂ (fun raw method =>
      Method.InGrammar raw ∧ Method.Mirrors raw method ∧ Named raw method.name) raws methods :=
  (mapM_eq_ok.mp h).imp fun _ _ => Method.read_sound

/-- What is read is in the grammar, and the contract mirrors it. -/
theorem read_sound (h : read direction source document = .ok contract) :
    InGrammar document ∧ Mirrors document contract := by
  obtain ⟨raws, mark, entries, hRaws, hMethods, hApart, hShared, hSchemas, -, -, hDocument⟩ :=
    read_iff.mp h
  have hEach := methods_sound hMethods
  obtain ⟨hInside, hMirrors⟩ := readSchemas_sound hSchemas
  refine ⟨.intro hRaws ?_ ((namedApart_iff (hEach.imp fun _ _ h => h.2.2)).mpr hApart) hShared hInside,
    .intro hDocument hRaws (hEach.imp fun _ _ h => h.2.1) hShared hMirrors⟩
  intro raw hRaw
  obtain ⟨method, -, hRead⟩ := exists_of_mapM hMethods hRaw
  exact (Method.read_sound hRead).1

theorem isShort_of_sharedSchemas {entries : Mapping} (hShared : SharedSchemas document entries)
    (hShort : Value.everyEntry Scalar.isShort Mapping.hasShortKeys document = true) :
    entries.hasShortKeys = true ∧
      Value.everyEntry Scalar.isShort Mapping.hasShortKeys entries = true := by
  have hNil : Value.everyEntry Scalar.isShort Mapping.hasShortKeys [] = true := by
    rw [Value.everyEntry]
  cases hShared with
  | apart _ => exact ⟨rfl, hNil⟩
  | absent _ _ => exact ⟨rfl, hNil⟩
  | null _ _ => exact ⟨rfl, hNil⟩
  | given hComponents hGiven =>
      have hInner := (Value.every_of_entries? (Value.every_of_get? hShort hComponents) rfl).2
      exact Value.every_of_entries? (Value.every_of_get? hInner hGiven) rfl

/-- A document in the grammar is read, if the texts for messages and names can be formed. -/
theorem read_complete (h : InGrammar document)
    (hShort : (Value.mapping document none).isShort = true) :
    ∃ contract, read direction source document = .ok contract := by
  cases h with
  | @intro raws mark entries hRaws hEach hApart hShared hSchemas =>
    have hParts := (Value.every_of_entries? hShort rfl).2
    have hItems := Value.every_of_items? (Value.every_of_get? hParts hRaws) rfl
    obtain ⟨methods, hMethods⟩ := mapM_total fun raw hRaw =>
      @Method.read_complete source raw (hEach raw hRaw) (hItems raw hRaw)
    obtain ⟨hKeys, hInside⟩ := isShort_of_sharedSchemas hShared hParts
    obtain ⟨schemas, hRead⟩ := @readSchemas_total source entries hKeys fun entry hEntry =>
      ⟨hSchemas entry hEntry, Value.everyEntry_iff.mp hInside entry hEntry⟩
    -- the methods have the names of their nodes, which are apart
    have hNames := (methods_sound hMethods).imp fun _ _ h => h.2.2
    exact ⟨⟨direction, source, methods, schemas, document⟩,
      read_iff.mpr ⟨raws, mark, entries, hRaws, hMethods, (namedApart_iff hNames).mp hApart, hShared,
        hRead, rfl, rfl, rfl⟩⟩

/-- **The grammar of contracts.** A document without overlong integers is read as a contract exactly if
it is in the grammar, and the contract that is read mirrors the document. -/
theorem read_faithful (hShort : (Value.mapping document none).isShort = true) :
    ((∃ contract, read direction source document = .ok contract) ↔ InGrammar document) ∧
      ∀ contract, read direction source document = .ok contract →
        contract.direction = direction ∧ contract.source = source ∧ Mirrors document contract := by
  refine ⟨⟨?_, fun hGrammar => read_complete hGrammar hShort⟩, fun contract hRead => ?_⟩
  · rintro ⟨contract, hRead⟩
    exact (read_sound hRead).1
  · obtain ⟨-, -, -, -, -, -, -, -, hDirection, hSource, -⟩ := read_iff.mp hRead
    exact ⟨hDirection, hSource, (read_sound hRead).2⟩

/-- A document with two methods and a shared schema. The first method has two parameters, of which the
second has a flag, and a result; the second has `false` for parameters and a text for a result. -/
def lampDocument : Mapping :=
  [(.text "methods", .list
      [.mapping
        [(.text "name", .text "switch"), (.text "summary", .text "Switch the lamp"),
          (.text "params", .list
            [.mapping [(.text "name", .text "on"), (.text "description", .text "Whether it is lit"),
                (.text "schema", .mapping [(.text "type", .text "boolean")] none)] none,
              .mapping [(.text "name", .text "delay"), (.text "description", .text "In seconds"),
                (.text "required", .scalar (.bool false)),
                (.text "schema", .mapping [(.text "type", .text "number")] none)] none] none),
          (.text "result", .mapping
            [(.text "schema", .mapping [(.text "$ref", .text "#/components/schemas/lamp")] none)]
            none)] none,
        .mapping
          [(.text "name", .text "reset"), (.text "summary", .text "Reset the lamp"),
            (.text "params", .scalar (.bool false)), (.text "result", .text "nothing")] none] none),
    (.text "components", .mapping
      [(.text "schemas", .mapping
        [(.text "lamp", .mapping [(.text "type", .text "string")] none)] none)] none)]

theorem inGrammar_lampDocument : InGrammar lampDocument := by
  have hKind : ∀ kind : Kind, Schema.InGrammar (.mapping [(.text "type", .text kind.word)] none) := by
    intro kind
    cases kind <;>
      exact .scalar (.scalar (some_text_ne (by decide)) rfl rfl (some_text_ne (by decide))) rfl
  have hReference : Schema.InGrammar
      (.mapping [(.text "$ref", .text "#/components/schemas/lamp")] none) :=
    .reference (.reference nofun nofun) rfl (by decide)
  refine .intro rfl ?_ ⟨["switch", "reset"], ?_, by decide⟩ (.given rfl rfl)
    (List.forall_mem_singleton.mpr (hKind .string))
  · refine List.forall_mem_cons.mpr ⟨?_, List.forall_mem_singleton.mpr ?_⟩
    · refine .intro ⟨rfl, rfl⟩ ⟨rfl, rfl⟩ .given ?_ ⟨["on", "delay"], ?_, by decide⟩ ?_
      · refine List.forall_mem_cons.mpr ⟨?_, List.forall_mem_singleton.mpr ?_⟩
        · exact .intro ⟨rfl, rfl⟩ ⟨rfl, rfl⟩ rfl (hKind .boolean) (Or.inl rfl)
        · exact .intro ⟨rfl, rfl⟩ ⟨rfl, rfl⟩ rfl (hKind .number) (Or.inr ⟨false, rfl⟩)
      · exact .cons ⟨_, _, rfl, rfl, rfl⟩ (.cons ⟨_, _, rfl, rfl, rfl⟩ .nil)
      · rintro schema ⟨_, _, ⟨⟩, ⟨⟩⟩
        exact hReference
    · refine .intro ⟨rfl, rfl⟩ ⟨rfl, rfl⟩ (.void rfl) (List.forall_mem_nil _) ⟨[], .nil, .nil⟩ ?_
      rintro schema ⟨_, _, ⟨⟩, -⟩
  · exact .cons ⟨_, _, rfl, rfl, rfl⟩ (.cons ⟨_, _, rfl, rfl, rfl⟩ .nil)

/-- The document is read, and the contract mirrors it. -/
theorem read_lampDocument : ∃ contract, read .backend "lamp.json" lampDocument = .ok contract ∧
    Mirrors lampDocument contract := by
  obtain ⟨hAccepted, hMirrors⟩ := @read_faithful .backend "lamp.json" lampDocument (by decide +kernel)
  obtain ⟨contract, hRead⟩ := hAccepted.mpr inGrammar_lampDocument
  obtain ⟨-, -, hContract⟩ := hMirrors contract hRead
  exact ⟨contract, hRead, hContract⟩

end Contract

end CommBindings
