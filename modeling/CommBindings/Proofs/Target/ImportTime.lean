import CommBindings.Proofs.Target.MessageStatements

set_option autoImplicit false

/-! # What names mean when a file is imported

A Python file looks up names while it is imported: those of its head, those of the language, and
some that it declares itself. The names in the contracts share the module and the bodies of the
classes with these. In a file that is rendered, all lookups find what they are meant to find exactly
if the names in the contracts spare those that are looked up after them (`names_meant_iff`). An
attribute of the name `field` spares its own class only if it is the last one
(`field_not_spared`).
-/

namespace CommBindings

/-- An alias, an object or an enumeration is declared under the name. -/
def Comm.Takes (comm : Comm) (name : String) : Prop :=
  (∃ entry ∈ comm.aliases, entry.1.typeName = .ok name) ∨ name ∈ comm.nodeNames

/-- The names in the contracts of a comm spare those that a Python file looks up after them while it
is imported. -/
structure Comm.SparesNames (comm : Comm) : Prop where
  /-- Only the last property of an object can be named like the function for attributes. -/
  properties : ∀ object ∈ comm.objects.items, object.node.isAny = false →
    object.node.properties.Pairwise fun first _ => first.1 ≠ .text "field"
  /-- Only the last parameter of a method can be named so. -/
  params : ∀ method ∈ comm.methodsWithParams, method.params.Pairwise fun first _ =>
    first.name ≠ "field"
  /-- No alias for a list of plain values comes after an alias with the name of lists. -/
  lists : comm.aliases.Pairwise fun first later =>
    first.1.typeName = .ok "List" → ¬ (Python.aliasOf comm later).IsEagerList
  /-- No alias has the name of arbitrary values if an object is declared as such. -/
  aliasedValues : ∀ object ∈ comm.objects.items, object.node.isAny = true →
    ∀ entry ∈ comm.aliases, entry.1.typeName ≠ .ok "JsonData"
  /-- No object has that name if a later one is declared as such. -/
  values : comm.objects.items.Pairwise fun first later =>
    first.name = "JsonData" → later.node.isAny = false
  /-- The name of the comm does not begin with two low lines, if there are requests: these would
  make the name of the enumeration of their methods private to their classes. -/
  isPublic : comm.backendMethods ≠ [] → ¬ ['_', '_'] <+: comm.typeName.toList
  /-- Only the last method of the backend can have the name of the comm. -/
  tags : comm.backendMethods.Pairwise fun first _ => first.stem ≠ comm.typeName
  /-- No two methods of the backend give the same name to their requests. -/
  requests : comm.backendMethods.Pairwise fun first later =>
    first.stem = later.stem → first.name = later.name
  /-- The name for choices is not taken if there are requests to choose from. -/
  choices : comm.backendMethods ≠ [] → ¬ comm.Takes "Union"
  /-- The name for no choice is not taken if the backend has no replies to choose from. -/
  noChoice : comm.backend.isSome = true → (∀ method ∈ comm.backendMethods, method.hasResult = false) →
    ¬ comm.Takes "NoReturn"
  /-- The name of what the handler derives from is not taken if the comm has a backend. -/
  protocols : comm.backend.isSome = true → ¬ comm.Takes "Protocol"

namespace Python

variable {comm : Comm} {hasProtocol : Bool} {before : List Statement} {name : String}

/-! ## The file -/

/-- Under a name that is not coined, only aliases, objects and enumerations are declared. -/
theorem takes_iff {others : List Statement} (hName : name ∈ "Protocol" :: capitalNames)
    (hOthers : ∀ statement ∈ others, statement.DeclaresCoined) :
    name ∈ (typeStatements comm ++ others).map Statement.name ↔ comm.Takes name := by
  have hFilled : ∀ name ∈ "Protocol" :: capitalNames, name ≠ "" := by
    decide
  have hObjects : (statementsIn comm .objects).map Statement.name =
      comm.objects.items.map ObjectDeclaration.name := by
    rw [statementsIn, List.map_map]
    exact List.map_congr_left fun object _ => object_name object
  have hEnums : (statementsIn comm .enums).map Statement.name =
      comm.enums.items.map EnumDeclaration.name := by
    rw [statementsIn, List.map_map]
    rfl
  have hCoined : ∀ statement ∈ statementsIn comm .paramRecords ++ others,
      statement.DeclaresCoined := List.forall_mem_append.mpr ⟨params_declare, hOthers⟩
  rw [typeStatements, List.append_assoc, List.map_append, List.mem_append, or_iff_left
    (not_mem_of_coined (isUncoined_capital hName) hCoined), List.map_append, List.map_append,
    hObjects, hEnums, List.append_assoc, List.mem_append, alias_takes (hFilled name hName)]
  rfl

/-- The statements for the messages to and from the backend, if there is one. -/
def backendStatements (comm : Comm) : List Statement :=
  if comm.backend.isSome then statementsIn comm .backendUnions else []

/-- The statements for the events, if there can be any. -/
def frontendStatements (comm : Comm) : List Statement :=
  if comm.frontend.isSome then statementsIn comm .frontendEvents else []

theorem fileStatements_eq (comm : Comm) :
    fileStatements comm = headerStatements comm.backend.isSome ++ (typeStatements comm ++
      (backendStatements comm ++ (frontendStatements comm ++ statementsIn comm .client))) := by
  rw [fileStatements, Comm.sections, typeStatements, backendStatements, frontendStatements]
  split <;> split <;> simp [statementsIn]

theorem backendStatements_declare :
    ∀ statement ∈ backendStatements comm, statement.DeclaresCoined := by
  rw [backendStatements]
  split
  · exact messages_declare
  · exact List.forall_mem_nil _

theorem frontendStatements_declare :
    ∀ statement ∈ frontendStatements comm, statement.DeclaresCoined := by
  rw [frontendStatements]
  split
  · exact events_declare
  · exact List.forall_mem_nil _

theorem backendStatements_intended (hBefore : ∀ statement ∈ before, statement.Declares)
    (hOthers : ∀ statement ∈ before, statement.origin = .other) :
    Intended (extend (headScope hasProtocol) before) (backendStatements comm) ↔
      (comm.backendMethods ≠ [] → ¬ ['_', '_'] <+: comm.typeName.toList) ∧
      (comm.backendMethods.Pairwise fun first _ => first.stem ≠ comm.typeName) ∧
      (comm.backendMethods.Pairwise fun first later =>
        first.stem = later.stem → first.name = later.name) ∧
      (comm.backendMethods ≠ [] → "Union" ∉ before.map Statement.name) ∧
      (comm.backend.isSome = true → (∀ method ∈ comm.backendMethods, method.hasResult = false) →
        "NoReturn" ∉ before.map Statement.name) := by
  rw [backendStatements]
  split
  · next hSome => rw [messages_intended hBefore hOthers, imp_iff_right hSome]
  · next hNone =>
    have hMethods : comm.backendMethods = [] := by
      cases hBackend : comm.backend with
      | none => rw [Comm.backendMethods, hBackend]; rfl
      | some contract => rw [hBackend] at hNone; exact absurd rfl hNone
    rw [hMethods]
    exact iff_of_true intended_nil ⟨fun hSome => absurd rfl hSome, List.Pairwise.nil,
      List.Pairwise.nil, fun hSome => absurd rfl hSome, fun hSome => absurd hSome hNone⟩

theorem frontendStatements_intended (hBefore : ∀ statement ∈ before, statement.Declares) :
    Intended (extend (headScope hasProtocol) before) (frontendStatements comm) := by
  rw [frontendStatements]
  split
  · exact events_intended hBefore
  · exact intended_nil

end Python

open Python

/-- **Names mean what they are meant to when a file is imported.** In a Python file that is rendered
for a comm, each name that is looked up while the file is imported is bound to what it is meant to
be, exactly if the names in the contracts spare those that are looked up after them. -/
theorem names_meant_iff {comm : Comm} {text : String}
    (h : Target.python.render comm = .ok text) :
    Intended [] (fileStatements comm) ↔ comm.SparesNames := by
  have hTypes : ∀ statement ∈ typeStatements comm, statement.Declares :=
    types_declare (objects_ok h) (enums_ok h)
  have hBackend : ∀ statement ∈ typeStatements comm ++ backendStatements comm,
      statement.Declares :=
    List.forall_mem_append.mpr
      ⟨hTypes, fun statement h => (backendStatements_declare statement h).declares⟩
  have hFrontend : ∀ statement ∈ typeStatements comm ++ backendStatements comm ++
      frontendStatements comm, statement.Declares :=
    List.forall_mem_append.mpr
      ⟨hBackend, fun statement h => (frontendStatements_declare statement h).declares⟩
  have hCoined : ∀ statement ∈ backendStatements comm ++ frontendStatements comm,
      statement.DeclaresCoined :=
    List.forall_mem_append.mpr ⟨backendStatements_declare, frontendStatements_declare⟩
  have hTaken : ∀ name ∈ "Protocol" :: capitalNames,
      (name ∈ (typeStatements comm).map Statement.name ↔ comm.Takes name) := by
    intro name hName
    rw [← takes_iff hName (List.forall_mem_nil _), List.append_nil]
  rw [fileStatements_eq, intended_append, and_iff_right (header_intended _)]
  show Intended (headScope _) _ ↔ _
  rw [intended_append, types_intended (objects_ok h) (enums_ok h), intended_append,
    backendStatements_intended hTypes types_origin, hTaken "Union" (by decide),
    hTaken "NoReturn" (by decide), ← extend_append, intended_append,
    and_iff_right (frontendStatements_intended hBackend), ← extend_append,
    client_intended rfl hFrontend, List.append_assoc, takes_iff (by decide) hCoined]
  constructor
  · rintro ⟨⟨hLists, ⟨hProperties, hAliased, hValues⟩, hFields⟩,
      ⟨hPublic, hTags, hRequests, hUnion, hNone⟩, hClient⟩
    exact
      { properties := hProperties
        params := hFields
        lists := hLists
        aliasedValues := fun object hObject hAny entry hEntry hName =>
          hAliased object hObject hAny ⟨entry, hEntry, hName⟩
        values := hValues
        isPublic := hPublic
        tags := hTags
        requests := hRequests
        choices := hUnion
        noChoice := hNone
        protocols := hClient }
  · intro hSpares
    refine ⟨⟨hSpares.lists, ⟨hSpares.properties, ?_, hSpares.values⟩, hSpares.params⟩,
      ⟨hSpares.isPublic, hSpares.tags, hSpares.requests, hSpares.choices, hSpares.noChoice⟩,
      hSpares.protocols⟩
    rintro object hObject hAny ⟨entry, hEntry, hName⟩
    exact hSpares.aliasedValues object hObject hAny entry hEntry hName

/-- A comm with one shared object that has two properties, and a method that finds such an object by
one of them. -/
def twoProperties (first second : String) : Comm :=
  let mapping (entries : List (String × Value)) : Value :=
    .mapping (entries.map fun entry => (.text entry.1, entry.2)) none
  let property (name : String) : Key × Schema := (.text name, .primitive .string none)
  { name := "shop"
    backend := some
      { direction := .backend
        source := "shop-backend-openrpc.json"
        methods := [⟨"find", "Find an item", none,
          [⟨second, "What to look for", .primitive .string none, true⟩],
          some (.reference "#/components/schemas/item" none)⟩]
        schemas := [(.text "item", .object
          ⟨none, some "An item", [property first, property second], [], false⟩)]
        document := [(.text "components", mapping [("schemas", mapping [("item", mapping [])])])] }
    frontend := none
    hasContract := rfl }

theorem settled_twoProperties : (twoProperties "label" "field").Settled := by
  have hChecked : (twoProperties "label" "field").Checked :=
    checked_of_validate (by decide : validate _ = .ok [])
  have hKeys : ∀ contract ∈ (twoProperties "label" "field").contracts, contract.HasTextKeys := by
    refine List.forall_mem_singleton.mpr ⟨List.forall_mem_singleton.mpr ⟨?_, ?_⟩, by decide⟩
    · exact List.forall_mem_singleton.mpr rfl
    · rintro schema ⟨⟩
      rfl
  exact settled_of_checked hChecked hKeys (isAcyclic_of_pointer? (by decide))

theorem spares_fieldLast :
    ∃ text, Target.python.render (twoProperties "label" "field") = .ok text ∧
      Intended [] (fileStatements (twoProperties "label" "field")) := by
  obtain ⟨text, hRender⟩ := render_of_settled settled_twoProperties .python
  have hFree : ∀ name ∈ ["Union", "NoReturn", "Protocol"],
      ¬ (twoProperties "label" "field").Takes name := by
    have hNodes : ∀ name ∈ ["Union", "NoReturn", "Protocol"],
        name ∉ (twoProperties "label" "field").nodeNames := by
      decide +kernel
    rintro name hName (⟨entry, hEntry, -⟩ | hNode)
    · cases hEntry
    · exact hNodes name hName hNode
  have hSpares : (twoProperties "label" "field").SparesNames :=
    { properties := by decide +kernel
      params := by decide +kernel
      lists := List.Pairwise.nil
      aliasedValues := fun object _ _ entry hEntry => by cases hEntry
      values := by decide +kernel
      isPublic := by decide +kernel
      tags := by decide +kernel
      requests := by decide +kernel
      choices := fun _ => hFree "Union" (by decide)
      noChoice := fun _ _ => hFree "NoReturn" (by decide)
      protocols := fun _ => hFree "Protocol" (by decide) }
  exact ⟨text, hRender, (names_meant_iff hRender).mpr hSpares⟩

/-- A property of the name `field` takes the place of the function that the next property calls. -/
theorem field_not_spared :
    let comm := twoProperties "field" "label"
    validate comm = .ok [] ∧
      (comm.objects.items.flatMap fun object => object.node.properties.map fun property =>
        (fieldOf comm object property).attribute?) =
        [some ("    field: Optional[str] = field(default=None, " ++
            "metadata=\x7b\"description\": \"field\"\x7d)\n\n"),
          some ("    label: Optional[str] = field(default=None, " ++
            "metadata=\x7b\"description\": \"label\"\x7d)\n\n")] ∧
      ∃ evaluation ∈ evaluations [] (fileStatements comm),
        evaluation.use = ⟨"field", .header⟩ ∧ lookUp evaluation.scope "field" = .attribute := by
  refine ⟨?_, ?_, ?_⟩
  · decide +kernel
  · decide +kernel
  · decide +kernel

end CommBindings
