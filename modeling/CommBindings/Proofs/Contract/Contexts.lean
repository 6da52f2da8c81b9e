import CommBindings.Proofs.Contract.Reading
import CommBindings.Proofs.Contract.Typing

set_option autoImplicit false

/-! # Contexts that give names

From a context that has a key, and whose keys are texts, all names can be formed that a node needs
(`IsNamed`). A walk through schemas with texts for keys begins in such a context, and so all nodes
that it comes across stand in one (`contract_named`). There a type can be derived for every schema
whose last reference resolves (`fieldType_total`).
-/

namespace CommBindings

/-- A context from which names can be formed: it has a key, and its keys are texts. -/
def IsNamed (context : Context) : Prop := context ≠ [] ∧ ∀ key ∈ context, key.isText = true

variable {context : Context}

theorem label_eq_ok {key : Key} {shown : String} :
    key.label = .ok shown ↔ key.display? = some shown := by
  rw [Scalar.label]
  cases key.display? with
  | none => simp
  | some text => simp

theorem label_of_isText {key : Key} (h : key.isText = true) : ∃ shown, key.label = .ok shown := by
  cases key with
  | text name => exact ⟨name, rfl⟩
  | _ => cases h

theorem typeName_of_isText {key : Key} (h : key.isText = true) :
    ∃ name, key.typeName = .ok name := by
  cases key with
  | text name => exact ⟨_, rfl⟩
  | _ => cases h

theorem isNamed_cons {key : Key} {keys : Context} (hKey : key.isText = true)
    (hKeys : ∀ k ∈ keys, k.isText = true) : IsNamed (key :: keys) :=
  ⟨List.cons_ne_nil _ _, List.forall_mem_cons.mpr ⟨hKey, hKeys⟩⟩

theorem IsNamed.cases (h : IsNamed context) :
    ∃ key keys, context = key :: keys ∧ key.isText = true ∧ ∀ k ∈ keys, k.isText = true := by
  cases context with
  | nil => exact absurd rfl h.1
  | cons key keys => exact ⟨key, keys, rfl, List.forall_mem_cons.mp h.2⟩

/-! ## Names and descriptions -/

theorem isNamed_pair {key : Key} (name : String) (h : key.isText = true) :
    IsNamed [key, .text name] :=
  isNamed_cons h (List.forall_mem_singleton.mpr rfl)

theorem isNamed_paramContext (method param : String) : IsNamed (paramContext method param) :=
  isNamed_pair method rfl

theorem isNamed_resultContext (method : String) : IsNamed (resultContext method) :=
  isNamed_cons rfl (List.forall_mem_nil _)

theorem isNamed_ownerContext {node : ObjectSchema} (h : IsNamed context) :
    IsNamed (ownerContext context node) := by
  unfold ownerContext
  split
  · exact isNamed_cons rfl h.2
  · exact h

theorem itemsContext_total (h : IsNamed context) :
    ∃ inner, itemsContext context = .ok inner ∧ IsNamed inner := by
  unfold itemsContext
  split
  · next key =>
    obtain ⟨shown, hShown⟩ := label_of_isText (h.2 key List.mem_cons_self)
    exact ⟨_, bind_eq_ok.mpr ⟨shown, hShown, rfl⟩, isNamed_cons rfl (List.forall_mem_nil _)⟩
  · exact ⟨context, rfl, h⟩

theorem objectName_total (node : ObjectSchema) (h : IsNamed context) :
    ∃ name, objectName context node = .ok name := by
  obtain ⟨key, keys, rfl, hKey, -⟩ := h.cases
  cases hOwn : node.name with
  | some own => exact ⟨_, objectName_own _ hOwn⟩
  | none =>
      rw [objectName_key key keys hOwn]
      exact typeName_of_isText hKey

theorem enumName_total (h : IsNamed context) : ∃ name, enumName context = .ok name := by
  obtain ⟨key, keys, rfl, hKey, hKeys⟩ := h.cases
  obtain ⟨second, hSecond⟩ := typeName_of_isText hKey
  cases keys with
  | nil => exact ⟨second, hSecond⟩
  | cons owner rest =>
      obtain ⟨first, hFirst⟩ := typeName_of_isText (hKeys owner List.mem_cons_self)
      exact ⟨_, bind_eq_ok.mpr ⟨first, hFirst, bind_eq_ok.mpr ⟨second, hSecond, rfl⟩⟩⟩

theorem describeEnum_total (h : IsNamed context) : ∃ text, describeEnum context = .ok text := by
  obtain ⟨key, keys, rfl, hKey, hKeys⟩ := h.cases
  obtain ⟨first, hFirst⟩ := typeName_of_isText hKey
  cases keys with
  | nil => exact ⟨_, bind_eq_ok.mpr ⟨first, hFirst, rfl⟩⟩
  | cons owner rest =>
      obtain ⟨second, hSecond⟩ := typeName_of_isText (hKeys owner List.mem_cons_self)
      exact ⟨_, bind_eq_ok.mpr ⟨first, hFirst, bind_eq_ok.mpr ⟨second, hSecond, rfl⟩⟩⟩

/-! ## Walks -/

/-- From a context that gives names, a walk through a schema with texts for keys ends well, and
comes across nodes in such contexts only. -/
def WalkNamed (context : Context) (schema : Schema) : Prop :=
  IsNamed context → schema.hasTextKeys = true →
    (walk context schema).outcome = .ok () ∧
      ∀ n ∈ (walk context schema).items, IsNamed n.context

theorem walkNamed_leaf {schema : Schema}
    (h : walk context schema = .emit ⟨context, schema⟩) : WalkNamed context schema := by
  intro hContext _
  rw [h]
  exact ⟨rfl, List.forall_mem_singleton.mpr hContext⟩

theorem walkNamed_array {items : Schema} {description : Option String}
    (h : ∀ inner, WalkNamed inner items) : WalkNamed context (.array items description) := by
  intro hContext hKeys
  rw [Schema.hasTextKeys] at hKeys
  obtain ⟨inner, hInner, hNamed⟩ := itemsContext_total hContext
  obtain ⟨hEnds, hItems⟩ := h inner hNamed hKeys
  rw [walk, Emission.bind_items _ rfl, Emission.bind_items _ hInner]
  refine ⟨?_, List.forall_mem_cons.mpr ⟨hContext, hItems⟩⟩
  exact Emission.bind_outcome.mpr ⟨(), rfl, Emission.bind_outcome.mpr ⟨inner, hInner, hEnds⟩⟩

theorem walkNamed_object {node : ObjectSchema}
    (h : ∀ property ∈ node.properties,
      WalkNamed (property.1 :: ownerContext context node) property.2) :
    WalkNamed context (.object node) := by
  intro hContext hKeys
  rw [Schema.hasTextKeys_object, Schema.haveTextKeys_iff] at hKeys
  have hEach : ∀ property ∈ node.properties,
      (walk (property.1 :: ownerContext context node) property.2).outcome = .ok () ∧
        ∀ n ∈ (walk (property.1 :: ownerContext context node) property.2).items,
          IsNamed n.context := by
    intro property hProperty
    obtain ⟨hKey, hInside⟩ := hKeys property hProperty
    exact h property hProperty
      (isNamed_cons hKey (isNamed_ownerContext hContext).2) hInside
  have hEnds := fun property hProperty => (hEach property hProperty).1
  rw [walk, Emission.bind_items _ rfl, walkObject_eq fun _ => hContext.1]
  refine ⟨Emission.bind_outcome.mpr ⟨(), rfl, Emission.forAll_ok.mpr hEnds⟩,
    List.forall_mem_cons.mpr ⟨hContext, fun n hn => ?_⟩⟩
  obtain ⟨property, hProperty, hn⟩ := (Emission.mem_forAll hEnds n).mp hn
  exact (hEach property hProperty).2 n hn

theorem walkNamed (context : Context) (schema : Schema) : WalkNamed context schema := by
  induction schema using Schema.induction generalizing context with
  | leaf schema hLeaf => exact walkNamed_leaf (walk_leaf context hLeaf)
  | array items description ih => exact walkNamed_array ih
  | object node ih => exact walkNamed_object fun property hProperty => ih property hProperty _

/-- A contract with texts for keys can be walked through, and all its nodes stand in contexts that
give names. -/
theorem contract_named {contract : Contract} (h : contract.HasTextKeys) :
    contract.nodes.outcome = .ok () ∧ ∀ n ∈ contract.nodes.items, IsNamed n.context := by
  obtain ⟨hMethods, hSchemas⟩ := h
  have hShared : ∀ entry ∈ contract.schemas,
      IsNamed [entry.1] ∧ entry.2.hasTextKeys = true := by
    intro entry hEntry
    obtain ⟨hKey, hInside⟩ := Schema.haveTextKeys_iff.mp hSchemas entry hEntry
    exact ⟨isNamed_cons hKey (List.forall_mem_nil _), hInside⟩
  have hMethod : ∀ method ∈ contract.methods, method.nodes.outcome = .ok () := by
    intro method hMem
    refine method_nodes_ok.mpr ⟨fun param hParam => ?_, fun schema hSchema => ?_⟩
    · exact (walkNamed _ _ (isNamed_paramContext _ _) ((hMethods method hMem).1 param hParam)).1
    · exact (walkNamed _ _ (isNamed_resultContext _) ((hMethods method hMem).2 schema hSchema)).1
  have hEnds : contract.nodes.outcome = .ok () := contract_nodes_ok.mpr
    ⟨hMethod, fun entry hEntry =>
      (walkNamed _ _ (hShared entry hEntry).1 (hShared entry hEntry).2).1⟩
  refine ⟨hEnds, fun n hn => ?_⟩
  rcases (mem_contract_nodes hEnds n).mp hn with ⟨method, hMem, hn⟩ | ⟨entry, hEntry, hn⟩
  · rcases (mem_method_nodes (hMethod method hMem) n).mp hn with
      ⟨param, hParam, hn⟩ | ⟨schema, hResult, hn⟩
    · exact (walkNamed _ _ (isNamed_paramContext _ _) ((hMethods method hMem).1 param hParam)).2 n hn
    · exact (walkNamed _ _ (isNamed_resultContext _)
        ((hMethods method hMem).2 schema hResult)).2 n hn
  · exact (walkNamed _ _ (hShared entry hEntry).1 (hShared entry hEntry).2).2 n hn

/-! ## Types -/

/-- The pointer of the reference that an array holds in the end, or of the reference itself. -/
def Schema.pointer? : Schema → Option String
  | .array items _ => items.pointer?
  | .reference pointer _ => some pointer
  | .primitive _ _ | .object _ | .enumeration _ _ => none

/-- If the schema is a reference in the end, it resolves. -/
def Schema.Resolves (contracts : List Contract) (schema : Schema) : Prop :=
  ∀ pointer, schema.pointer? = some pointer →
    ∃ name, resolveReference contracts pointer = .ok name

/-- The table has a token for every word that it must have. -/
def TypeTable.IsComplete (table : TypeTable) : Prop :=
  ∀ word ∈ TypeTable.words, ∃ token, table.lookup word = some token

variable {contracts : List Contract} {table : TypeTable}

theorem require_total (hTable : table.IsComplete) {word : String}
    (h : word ∈ TypeTable.words) : ∃ token, table.require word = .ok token := by
  obtain ⟨token, hToken⟩ := hTable word h
  exact ⟨token, by rw [TypeTable.require, hToken]⟩

theorem scalar_total (hTable : table.IsComplete) (key : Key) (kind : Kind) :
    ∃ type, table.scalar key kind = .ok type := by
  have hWord : kind.word ∈ TypeTable.words := by cases kind <;> decide
  obtain ⟨token, hToken⟩ := hTable kind.word hWord
  exact ⟨.token token, by rw [TypeTable.scalar, hToken]⟩

theorem deriveType_object_total (contracts : List Contract) (table : TypeTable) {key : Key}
    (node : ObjectSchema) (h : key.isText = true) :
    ∃ type, deriveType contracts table key (.object node) = .ok type := by
  rw [deriveType]
  cases node.name with
  | some own => exact ⟨_, rfl⟩
  | none =>
      obtain ⟨name, hName⟩ := typeName_of_isText h
      exact ⟨.named name, map_eq_ok.mpr ⟨name, hName, rfl⟩⟩

/-- A type can be derived for a schema in a context that gives names if the reference that the
schema is in the end resolves. -/
theorem fieldType_total (hTable : table.IsComplete) {context : Context} {schema : Schema}
    (hContext : IsNamed context) (hResolves : schema.Resolves contracts) :
    ∃ type, fieldType contracts table context schema = .ok type := by
  -- by recursion on the schema: only arrays have a part that a type is derived for
  match schema with
  | .enumeration values description =>
    obtain ⟨name, hName⟩ := enumName_total hContext
    rw [fieldType]
    exact ⟨.named name, map_eq_ok.mpr ⟨name, hName, rfl⟩⟩
  | .array items description =>
    obtain ⟨opening, hOpening⟩ := require_total hTable
      (by decide : TypeTable.listOpening ∈ TypeTable.words)
    obtain ⟨closing, hClosing⟩ := require_total hTable
      (by decide : TypeTable.listClosing ∈ TypeTable.words)
    obtain ⟨inner, hInner, hNamed⟩ := itemsContext_total hContext
    have hItems : items.Resolves contracts := hResolves
    obtain ⟨element, hElement⟩ := fieldType_total hTable hNamed hItems
    rw [fieldType]
    exact ⟨.listOf opening element closing, bind_eq_ok.mpr ⟨_, hOpening, bind_eq_ok.mpr
      ⟨_, hInner, bind_eq_ok.mpr ⟨_, hElement, bind_eq_ok.mpr ⟨_, hClosing, rfl⟩⟩⟩⟩⟩
  | .primitive kind description =>
    obtain ⟨key, keys, rfl, -, -⟩ := hContext.cases
    exact scalar_total hTable key kind
  | .reference pointer description =>
    obtain ⟨key, keys, rfl, -, -⟩ := hContext.cases
    obtain ⟨name, hName⟩ := hResolves pointer rfl
    exact ⟨.named name, map_eq_ok.mpr ⟨name, hName, rfl⟩⟩
  | .object node =>
    obtain ⟨key, keys, rfl, hKey, -⟩ := hContext.cases
    exact deriveType_object_total contracts table node hKey

end CommBindings
