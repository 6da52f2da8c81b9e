import CommBindings.Proofs.Naming
import CommBindings.Proofs.Target.Outline

set_option autoImplicit false

/-! # Where the names of types come from

A type that is derived for a schema is in the end a token of the table, or it has the name of an
enumeration or an object inside the schema, or that of the last segment of a reference
(`fieldType_leaf`). The type of a property does not change where the name of its owner is in Pascal
case already (`fieldType_owner`).
-/

namespace CommBindings

/-- The type that a list holds in the end, or the type itself if it is no list. -/
def TypeExpr.leaf : TypeExpr → TypeExpr
  | .listOf _ element _ => element.leaf
  | .token text => .token text
  | .named name => .named name

/-- The node names a type: it is an enumeration or an object of that name, or a reference whose last
segment has that name. -/
def Node.Names (node : Node) (name : String) : Prop :=
  node.enumName? = some (.ok name) ∨ node.objectName? = some (.ok name) ∨
    ∃ pointer description, node.schema = .reference pointer description ∧
      name = Naming.pascalCase (lastSegment pointer)

variable {contracts : List Contract} {table : TypeTable} {nodes : List Node}

theorem resolveReference_ok {pointer name : String}
    (h : resolveReference contracts pointer = .ok name) :
    name = Naming.pascalCase (lastSegment pointer) := by
  unfold resolveReference at h
  split at h
  · exact (Except.ok.inj h).symm
  · cases h

theorem objectName_own {node : ObjectSchema} {own : String} (context : Context)
    (h : node.name = some own) : objectName context node = .ok (Naming.pascalCase own) := by
  have hKey : objectKey context node = .ok (.text own) := by
    unfold objectKey
    rw [h]
  rw [objectName, hKey]
  rfl

theorem objectName_key {node : ObjectSchema} (key : Key) (keys : Context)
    (h : node.name = none) : objectName (key :: keys) node = key.typeName := by
  have hKey : objectKey (key :: keys) node = .ok key := by
    unfold objectKey
    rw [h]
  rw [objectName, hKey]
  rfl

/-! ## The type of a schema, by its form -/

section

variable {context : Context} {type : TypeExpr} {description : Option String}

theorem fieldType_primitive_ok {kind : Kind}
    (h : fieldType contracts table context (.primitive kind description) = .ok type) :
    ∃ token, table.lookup kind.word = some token ∧ type = .token token := by
  cases context with
  | nil => cases h
  | cons key keys =>
      have hScalar : table.scalar key kind = .ok type := h
      unfold TypeTable.scalar at hScalar
      split at hScalar
      · next token hToken => exact ⟨token, hToken, (Except.ok.inj hScalar).symm⟩
      · obtain ⟨shown, -, hFault⟩ := bind_eq_ok.mp hScalar
        cases hFault

theorem fieldType_array_ok {items : Schema}
    (h : fieldType contracts table context (.array items description) = .ok type) :
    ∃ opening inner element closing, table.require TypeTable.listOpening = .ok opening ∧
      table.require TypeTable.listClosing = .ok closing ∧ itemsContext context = .ok inner ∧
      fieldType contracts table inner items = .ok element ∧
      type = .listOf opening element closing := by
  rw [fieldType] at h
  obtain ⟨opening, hOpening, h⟩ := bind_eq_ok.mp h
  obtain ⟨inner, hInner, h⟩ := bind_eq_ok.mp h
  obtain ⟨element, hElement, h⟩ := bind_eq_ok.mp h
  obtain ⟨closing, hClosing, h⟩ := bind_eq_ok.mp h
  exact ⟨opening, inner, element, closing, hOpening, hClosing, hInner, hElement,
    (Except.ok.inj h).symm⟩

theorem fieldType_enumeration_ok {values : List String}
    (h : fieldType contracts table context (.enumeration values description) = .ok type) :
    ∃ name, enumName context = .ok name ∧ type = .named name := by
  rw [fieldType] at h
  obtain ⟨name, hName, rfl⟩ := map_eq_ok.mp h
  exact ⟨name, hName, rfl⟩

theorem fieldType_reference_ok {pointer : String}
    (h : fieldType contracts table context (.reference pointer description) = .ok type) :
    type = .named (Naming.pascalCase (lastSegment pointer)) := by
  cases context with
  | nil => cases h
  | cons key keys =>
      have hNamed : (resolveReference contracts pointer).map TypeExpr.named = .ok type := h
      obtain ⟨name, hName, rfl⟩ := map_eq_ok.mp hNamed
      rw [resolveReference_ok hName]

theorem fieldType_object_ok {node : ObjectSchema}
    (h : fieldType contracts table context (.object node) = .ok type) :
    ∃ name, objectName context node = .ok name ∧ type = .named name := by
  cases context with
  | nil => cases h
  | cons key keys =>
      have hDerived : deriveType contracts table key (.object node) = .ok type := h
      rw [deriveType] at hDerived
      cases hOwn : node.name with
      | some own =>
          rw [hOwn] at hDerived
          exact ⟨_, objectName_own _ hOwn, (Except.ok.inj hDerived).symm⟩
      | none =>
          rw [hOwn] at hDerived
          obtain ⟨name, hName, rfl⟩ := map_eq_ok.mp hDerived
          exact ⟨name, (objectName_key key keys hOwn).trans hName, rfl⟩

end

/-- The type of a property is the same whether its owner is named as in the contract or in Pascal
case. -/
theorem fieldType_owner (key : Key) (name : String) (rest : Context) (schema : Schema) :
    fieldType contracts table [key, .text (Naming.pascalCase name)] schema =
      fieldType contracts table (key :: .text name :: rest) schema := by
  -- only names of enumerations, also inside arrays, are formed from the owner
  match schema with
  | .enumeration values description =>
    rw [fieldType, fieldType, enumName, enumName]
    simp only [Scalar.typeName, Naming.pascalCase_pascalCase]
  | .array items description =>
    have hItems := fieldType_owner key name rest items
    rw [fieldType, fieldType]
    simp only [itemsContext, bind, Except.bind, hItems]
  | .primitive kind description => rfl
  | .reference pointer description => rfl
  | .object node => rfl

/-- The properties of an object are enclosed by the key that names it. -/
theorem ownerContext_name {context : Context} {node : ObjectSchema} {name : String}
    (h : objectName context node = .ok name) :
    ∃ own rest, ownerContext context node = .text own :: rest ∧
      name = Naming.pascalCase own := by
  obtain ⟨key, hKey, hName⟩ := bind_eq_ok.mp h
  unfold Scalar.typeName at hName
  split at hName
  · next own =>
    cases hName
    unfold objectKey at hKey
    unfold ownerContext
    split at hKey
    · next own' hOwn =>
      cases hKey
      rw [hOwn]
      exact ⟨_, _, rfl, rfl⟩
    · next key keys hOwn =>
      cases hKey
      rw [hOwn]
      exact ⟨_, _, rfl, rfl⟩
    · cases hKey
  · cases hName

end CommBindings
