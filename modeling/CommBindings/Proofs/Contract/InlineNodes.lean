import CommBindings.Proofs.Contract.Typing

set_option autoImplicit false

/-! # Objects and enumerations inside arrays

The nodes of a contract hold with each node what a walk from it comes across, one node after
another, also where the walk through the contract ends with a fault later (`isWhole_contract`). So
the object or the enumeration inside some arrays is come across after them, in the context that
leads to it through the arrays (`walk_core`). The name that this context gives it is the name in the
type of the arrays (`fieldType_core`).
-/

namespace CommBindings

variable {context : Context}

/-! ## Whole parts -/

/-- With each node, the nodes hold all that a walk from it comes across, in one piece, and no
context is empty. -/
def IsWhole (nodes : List Node) : Prop :=
  ∀ n ∈ nodes, n.context ≠ [] ∧ (walk n.context n.schema).items <:+: nodes

theorem isWhole_nil : IsWhole [] := fun _ hn => absurd hn List.not_mem_nil

theorem IsWhole.append {nodes others : List Node} (h : IsWhole nodes) (hOthers : IsWhole others) :
    IsWhole (nodes ++ others) := by
  intro n hn
  rcases List.mem_append.mp hn with hn | hn
  · obtain ⟨hContext, hPart⟩ := h n hn
    exact ⟨hContext, hPart.trans (List.prefix_append _ _).isInfix⟩
  · obtain ⟨hContext, hPart⟩ := hOthers n hn
    exact ⟨hContext, hPart.trans (List.suffix_append _ _).isInfix⟩

theorem isWhole_bind {α β : Type} {e : Emission Node α} {next : α → Emission Node β}
    (h : IsWhole e.items) (hNext : ∀ a, IsWhole (next a).items) : IsWhole (e >>= next).items := by
  cases hOutcome : e.outcome with
  | error fault =>
      rw [Emission.andThen_of_error next hOutcome]
      exact h
  | ok a =>
      rw [Emission.andThen_of_ok next hOutcome]
      exact h.append (hNext a)

theorem isWhole_forAll {α : Type} {members : List α} {part : α → Emission Node Unit}
    (h : ∀ a ∈ members, IsWhole (part a).items) : IsWhole (Emission.forAll members part).items := by
  induction members with
  | nil => exact isWhole_nil
  | cons a rest ih =>
      obtain ⟨hFirst, hRest⟩ := List.forall_mem_cons.mp h
      exact isWhole_bind hFirst fun _ => ih hRest

/-- A root with what a walk comes across inside it. -/
theorem isWhole_root {schema : Schema} {inside : List Node} (hContext : context ≠ [])
    (hWalk : (walk context schema).items = ⟨context, schema⟩ :: inside) (hInside : IsWhole inside) :
    IsWhole (walk context schema).items := by
  intro n hn
  rw [hWalk] at hn
  rcases List.mem_cons.mp hn with rfl | hn
  · exact ⟨hContext, List.infix_refl _⟩
  · rw [hWalk]
    obtain ⟨hInner, hPart⟩ := hInside n hn
    exact ⟨hInner, hPart.trans (List.suffix_cons _ _).isInfix⟩

theorem itemsContext_ne_nil {inner : Context} (hContext : context ≠ [])
    (h : itemsContext context = .ok inner) : inner ≠ [] := by
  unfold itemsContext at h
  split at h
  · obtain ⟨shown, -, hEnd⟩ := bind_eq_ok.mp h
    cases hEnd
    exact List.cons_ne_nil _ _
  · cases h
    exact hContext

theorem isWhole_walk (context : Context) (schema : Schema) :
    context ≠ [] → IsWhole (walk context schema).items := by
  induction schema using Schema.induction generalizing context with
  | leaf schema hLeaf =>
      intro hContext
      exact isWhole_root hContext (by rw [walk_leaf context hLeaf, Emission.items_emit]) isWhole_nil
  | array items description ih =>
      intro hContext
      refine isWhole_root hContext (by rw [walk, Emission.bind_items _ rfl]; rfl) ?_
      cases hInner : itemsContext context with
      | error fault => exact isWhole_nil
      | ok inner => exact ih inner (itemsContext_ne_nil hContext hInner)
  | object node ih =>
      intro hContext
      refine isWhole_root hContext (by rw [walk, Emission.bind_items _ rfl]; rfl) ?_
      rw [walkObject_eq fun _ => hContext]
      exact isWhole_forAll fun property hProperty =>
        ih property hProperty _ (List.cons_ne_nil _ _)

/-- The nodes of a contract hold all that walks from them come across. -/
theorem isWhole_contract (contract : Contract) : IsWhole contract.nodes.items := by
  have hMethod : ∀ method ∈ contract.methods, IsWhole method.nodes.items := by
    intro method _
    rw [Method.nodes]
    refine isWhole_bind (isWhole_forAll fun param _ => isWhole_walk _ _ (List.cons_ne_nil _ _))
      fun _ => ?_
    split
    · exact isWhole_walk _ _ (List.cons_ne_nil _ _)
    · exact isWhole_nil
  rw [Contract.nodes]
  exact isWhole_bind (isWhole_forAll hMethod) fun _ =>
    isWhole_forAll fun entry _ => isWhole_walk _ _ (List.cons_ne_nil _ _)

/-! ## Inside arrays -/

namespace Schema

/-- What a schema holds inside its arrays, or the schema itself if it is no array. -/
def core : Schema → Schema
  | .array items _ => items.core
  | .primitive kind description => .primitive kind description
  | .enumeration values description => .enumeration values description
  | .reference pointer description => .reference pointer description
  | .object node => .object node

/-- How many arrays there are around what a schema holds. -/
def depth : Schema → Nat
  | .array items _ => items.depth + 1
  | _ => 0

end Schema

/-- The context of what a schema holds inside its arrays. -/
def coreContext (context : Context) : Schema → Except Fault Context
  | .array items _ => do
    let inner ← itemsContext context
    coreContext inner items
  | _ => .ok context

/-- The name of the type that is declared for an object or an enumeration. -/
def inlineName (context : Context) : Schema → Except Fault String
  | .object node => objectName context node
  | _ => enumName context

/-- A walk comes across what a schema holds right after the arrays around it. -/
theorem walk_core {context inner : Context} {schema : Schema}
    (h : coreContext context schema = .ok inner) :
    (walk context schema).items[schema.depth]? = some ⟨inner, schema.core⟩ := by
  match schema with
  | .array items description =>
    obtain ⟨next, hNext, hInner⟩ := bind_eq_ok.mp h
    have hItems : (walk context (.array items description)).items =
        ⟨context, .array items description⟩ :: (walk next items).items := by
      rw [walk, Emission.bind_items _ rfl, Emission.bind_items _ hNext]
      rfl
    rw [hItems]
    exact walk_core hInner
  | .primitive kind description =>
    cases h
    rfl
  | .enumeration values description =>
    cases h
    rfl
  | .reference pointer description =>
    cases h
    rfl
  | .object node =>
    cases h
    rw [walk, Emission.bind_items _ rfl]
    rfl

/-- In a walk that ends well the arrays around what a schema holds lead to a context. -/
theorem coreContext_total {context : Context} {schema : Schema}
    (h : (walk context schema).outcome = .ok ()) :
    ∃ inner, coreContext context schema = .ok inner := by
  match schema with
  | .array items description =>
    obtain ⟨next, hNext, hEnds, -⟩ := walk_array h
    obtain ⟨inner, hInner⟩ := coreContext_total hEnds
    exact ⟨inner, bind_eq_ok.mpr ⟨next, hNext, hInner⟩⟩
  | .primitive kind description => exact ⟨context, rfl⟩
  | .enumeration values description => exact ⟨context, rfl⟩
  | .reference pointer description => exact ⟨context, rfl⟩
  | .object node => exact ⟨context, rfl⟩

namespace TypeExpr

/-- A type inside lists. -/
def inLists (opening closing : String) : Nat → TypeExpr → TypeExpr
  | 0, type => type
  | depth + 1, type => .listOf opening (inLists opening closing depth type) closing

theorem text_inLists (opening closing : String) (depth : Nat) (type : TypeExpr) :
    (inLists opening closing depth type).text =
      String.join (List.replicate depth opening) ++ type.text ++
        String.join (List.replicate depth closing) := by
  induction depth with
  | zero => simp [inLists]
  | succ depth ih =>
      -- the closing tokens are counted from the innermost one on
      rw [inLists, text, ih, List.replicate_succ, List.replicate_succ', String.join_cons,
        String.join_append, String.join_cons, String.join_nil, String.append_empty]
      simp only [String.append_assoc]

end TypeExpr

section

variable {contracts : List Contract} {table : TypeTable} {opening closing : String}

theorem fieldType_array (hOpening : table.require TypeTable.listOpening = .ok opening)
    (hClosing : table.require TypeTable.listClosing = .ok closing) (context : Context)
    (items : Schema) (description : Option String) :
    fieldType contracts table context (.array items description) = (do
      let inner ← itemsContext context
      let element ← fieldType contracts table inner items
      pure (.listOf opening element closing)) := by
  rw [fieldType, hOpening, hClosing]
  rfl

/-- The type of a schema in its context names what the schema holds inside its arrays by the
context to which they lead. -/
theorem fieldType_core {context : Context} {schema : Schema}
    (hOpening : table.require TypeTable.listOpening = .ok opening)
    (hClosing : table.require TypeTable.listClosing = .ok closing) (hContext : context ≠ [])
    (hInline : schema.core.isAliased = false) :
    fieldType contracts table context schema = (do
      let inner ← coreContext context schema
      let name ← inlineName inner schema.core
      pure (TypeExpr.inLists opening closing schema.depth (.named name))) := by
  -- by recursion on the schema, through its arrays
  match schema with
  | .array items description =>
    rw [fieldType_array hOpening hClosing, coreContext, bind_assoc]
    cases hInner : itemsContext context with
    | error fault => rfl
    | ok inner =>
        have hInside : items.core.isAliased = false := hInline
        have hItems := fieldType_core hOpening hClosing (itemsContext_ne_nil hContext hInner)
          hInside
        show (fieldType contracts table inner items >>= fun element =>
          pure (TypeExpr.listOf opening element closing)) = _
        rw [hItems]
        simp only [bind_assoc, pure_bind]
        rfl
  | .enumeration values description =>
    rw [fieldType]
    show _ = (do
      let name ← enumName context
      pure (TypeExpr.named name))
    cases enumName context <;> rfl
  | .object node =>
    obtain ⟨key, keys, rfl⟩ := List.exists_cons_of_ne_nil hContext
    show deriveType contracts table key (.object node) = (do
      let name ← objectName (key :: keys) node
      pure (TypeExpr.named name))
    rw [deriveType]
    cases hOwn : node.name with
    | some own =>
        rw [objectName_own _ hOwn]
        rfl
    | none =>
        rw [objectName_key _ _ hOwn]
        cases key.typeName <;> rfl
  | .primitive kind description => cases hInline
  | .reference pointer description => cases hInline

end

/-! ## Properties -/

/-- A walk comes across the properties of an object in the context of their owner. -/
theorem walkObject_named {node : ObjectSchema} {name : String}
    (h : objectName context node = .ok name) :
    walkObject context node = Emission.forAll node.properties fun property =>
      walk (property.1 :: ownerContext context node) property.2 := by
  refine walkObject_eq ?_
  rintro hName rfl
  rw [objectName, objectKey.eq_def, hName] at h
  cases h

/-- The type of a property is the same whether the object is named by its type or as the walk names
it. -/
theorem fieldType_property {contracts : List Contract} {table : TypeTable} {node : ObjectSchema}
    {name : String} (h : objectName context node = .ok name) (property : Key × Schema) :
    fieldType contracts table [property.1, .text name] property.2 =
      fieldType contracts table (property.1 :: ownerContext context node) property.2 := by
  obtain ⟨own, rest, hOwner, rfl⟩ := ownerContext_name h
  rw [hOwner, fieldType_owner]

end CommBindings
