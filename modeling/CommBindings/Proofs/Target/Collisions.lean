import CommBindings.Proofs.Contract.Sameness
import CommBindings.Proofs.Target.Rendering

set_option autoImplicit false

/-! # Objects that share a name

Validation and declaration go through the same nodes, each with a record of its own: the validator
keeps the first object with each name, and the outline keeps the names alone. Both come to the same
object for each name, and so the warnings of a valid comm tell exactly which objects are dropped
although they differ from the one that is declared (`warnings_exact`).
-/

namespace CommBindings

/-- The nodes of the contracts, one contract after another, each with the source that it is from. -/
def sourcedNodes (contracts : List Contract) : List (String × Node) :=
  contracts.flatMap fun contract => contract.nodes.items.map fun node => (contract.source, node)

/-- The first of some nodes that is an object with the name. -/
def firstObject (nodes : List (String × Node)) (name : String) : Option (String × Node) :=
  nodes.find? fun sourced => bearsName Node.objectName? name sourced.2

/-- What is to be said of a node among others: if it is an object and the first one with its name is
another one, not the same, there is a warning. -/
def Comm.warningAmong (comm : Comm) (nodes : List (String × Node)) (sourced : String × Node) :
    Option String :=
  match sourced.2.objectName? with
  | some (.ok name) =>
    match firstObject nodes name with
    | some first =>
      if first.2.schema.sameAs sourced.2.schema then none
      else some (collisionWarning comm.name name sourced.1 first.1)
    | none => none
  | _ => none

variable {comm : Comm}

/-! ## What the validator remembers -/

/-- The validator has kept the first object with each name. -/
def Remembers (seen : List FirstObject) (done : List (String × Node)) : Prop :=
  ∀ name, (seen.find? (·.name = name)).map (fun first => (first.source, Schema.object first.node)) =
    (firstObject done name).map fun sourced => (sourced.1, sourced.2.schema)

theorem remembers_nil : Remembers [] [] := fun _ => rfl

theorem object?_eq_some {node : Node} {object : ObjectSchema} :
    node.object? = some object ↔ node.schema = .object object := by
  unfold Node.object?
  split
  · next other hOther => rw [hOther, Option.some.injEq, Schema.object.injEq]
  · next hOther => exact ⟨nofun, fun hObject => absurd hObject (hOther object)⟩

theorem objectName?_of_object {node : Node} {object : ObjectSchema}
    (h : node.object? = some object) :
    node.objectName? = some (objectName node.context object) := by
  rw [Node.objectName?, h, Option.map_some]

theorem firstObject_append (nodes others : List (String × Node)) (name : String) :
    firstObject (nodes ++ others) name = (firstObject nodes name).or (firstObject others name) :=
  List.find?_append

theorem firstObject_eq_none_iff {nodes : List (String × Node)} {name : String} :
    firstObject nodes name = none ↔
      ∀ sourced ∈ nodes, sourced.2.objectName? ≠ some (.ok name) := by
  rw [firstObject, List.find?_eq_none]
  exact forall₂_congr fun sourced _ => not_congr bearsName_iff

theorem firstObject_cons {sourced : String × Node} {name : String}
    (h : sourced.2.objectName? = some (.ok name)) (rest : List (String × Node)) :
    firstObject (sourced :: rest) name = some sourced :=
  List.find?_cons_of_pos (bearsName_iff.mpr h)

theorem warningAmong_of_first {nodes : List (String × Node)} {sourced first : String × Node}
    {name : String} (hName : sourced.2.objectName? = some (.ok name))
    (hFirst : firstObject nodes name = some first) :
    comm.warningAmong nodes sourced =
      if first.2.schema.sameAs sourced.2.schema then none
      else some (collisionWarning comm.name name sourced.1 first.1) := by
  rw [Comm.warningAmong, hName]
  simp only [hFirst]

/-- A node that brings no new name leaves what is remembered as it was. -/
theorem Remembers.skip {seen : List FirstObject} {done : List (String × Node)}
    {sourced : String × Node} (h : Remembers seen done)
    (hOld : ∀ name, sourced.2.objectName? = some (.ok name) → firstObject done name ≠ none) :
    Remembers seen (done ++ [sourced]) := by
  intro name
  have hSame : firstObject (done ++ [sourced]) name = firstObject done name := by
    rw [firstObject_append]
    cases hFirst : firstObject done name with
    | some first => rw [Option.some_or]
    | none =>
        rw [Option.none_or, firstObject_eq_none_iff, List.forall_mem_singleton]
        exact fun hName => hOld name hName hFirst
  rw [h name, hSame]

theorem Remembers.missing {seen : List FirstObject} {done : List (String × Node)} {name : String}
    (h : Remembers seen done) (hNew : seen.find? (·.name = name) = none) :
    firstObject done name = none := by
  have hBoth := h name
  rw [hNew] at hBoth
  exact Option.map_eq_none_iff.mp hBoth.symm

theorem Remembers.add {seen : List FirstObject} {done : List (String × Node)} {source name : String}
    {node : Node} {object : ObjectSchema} (h : Remembers seen done)
    (hObject : node.schema = .object object) (hName : node.objectName? = some (.ok name))
    (hNew : seen.find? (·.name = name) = none) :
    Remembers (seen ++ [⟨name, source, object⟩]) (done ++ [(source, node)]) := by
  intro other
  rw [List.find?_append, firstObject_append]
  by_cases hSame : name = other
  · -- the name is new on both sides
    subst hSame
    have hFound : [(⟨name, source, object⟩ : FirstObject)].find? (·.name = name) =
        some ⟨name, source, object⟩ := List.find?_cons_of_pos (decide_eq_true rfl)
    rw [hNew, h.missing hNew, hFound, firstObject_cons hName, Option.none_or, Option.none_or,
      Option.map_some, Option.map_some, hObject]
  · have hNone : firstObject [(source, node)] other = none := by
      rw [firstObject_eq_none_iff, List.forall_mem_singleton, hName]
      exact fun hOther => hSame (Except.ok.inj (Option.some.inj hOther))
    have hNotFound : [(⟨name, source, object⟩ : FirstObject)].find? (·.name = other) = none :=
      List.find?_eq_none.mpr (List.forall_mem_singleton.mpr (by simpa using hSame))
    rw [hNone, hNotFound, Option.or_none, Option.or_none, h other]

/-! ## Steps and runs of the validator -/

theorem validateNode_step {source : String} {seen : List FirstObject} {node : Node}
    {result : List FirstObject × List String} {done : List (String × Node)}
    (h : validateNode comm source seen node = .ok result) (hSeen : Remembers seen done)
    (hOrderly : node.schema.Orderly) (rest : List (String × Node)) :
    Remembers result.1 (done ++ [(source, node)]) ∧
      result.2 =
        (comm.warningAmong (done ++ (source, node) :: rest) (source, node)).toList := by
  unfold validateNode at h
  split at h
  · cases h
  · split at h
    · -- no object: there is nothing to say
      next hNone =>
      cases h
      have hNoName : node.objectName? = none := by rw [Node.objectName?, hNone, Option.map_none]
      refine ⟨hSeen.skip fun name hName => ?_, ?_⟩
      · rw [hNoName] at hName
        cases hName
      · rw [Comm.warningAmong, hNoName]
        rfl
    · next object hObject =>
      obtain ⟨name, hName, h⟩ := bind_eq_ok.mp h
      have hNamed : node.objectName? = some (.ok name) := by
        rw [objectName?_of_object hObject, hName]
      have hSchema := object?_eq_some.mp hObject
      split at h
      · -- the first object with its name is the same as itself
        next hNew =>
        cases h
        have hFirst : firstObject (done ++ (source, node) :: rest) name = some (source, node) := by
          rw [firstObject_append, hSeen.missing hNew, Option.none_or, firstObject_cons hNamed]
        have hSelf : node.schema.sameAs node.schema = true :=
          (Schema.sameAs_iff hOrderly hOrderly).mpr (.refl hOrderly)
        refine ⟨hSeen.add hSchema hNamed hNew, ?_⟩
        rw [warningAmong_of_first hNamed hFirst, if_pos hSelf]
        rfl
      · next first hFound =>
        have hBoth := hSeen name
        rw [hFound, Option.map_some] at hBoth
        obtain ⟨⟨firstSource, firstNode⟩, hDone, hPair⟩ := Option.map_eq_some_iff.mp hBoth.symm
        obtain ⟨rfl, hFirstSchema⟩ := Prod.mk.inj hPair
        have hFirst : firstObject (done ++ (source, node) :: rest) name =
            some (first.source, firstNode) := by
          rw [firstObject_append, hDone, Option.some_or]
        have hKept : Remembers seen (done ++ [(source, node)]) := by
          refine hSeen.skip fun other hOther => ?_
          rw [hNamed, Option.some.injEq, Except.ok.injEq] at hOther
          rw [← hOther, hDone]
          exact Option.some_ne_none _
        have hCheck : firstNode.schema.sameAs node.schema = first.node.sameAs object := by
          simp only at hFirstSchema
          rw [hFirstSchema, hSchema, Schema.sameAs]
        rw [warningAmong_of_first hNamed hFirst, hCheck]
        split at h
        · next hSame =>
          cases h
          rw [if_pos hSame]
          exact ⟨hKept, rfl⟩
        · next hOther =>
          cases h
          rw [if_neg hOther]
          exact ⟨hKept, rfl⟩

theorem validateNodes_run {source : String} {seen : List FirstObject} {nodes : List Node}
    {result : List FirstObject × List String} {done : List (String × Node)}
    (h : validateNodes comm source seen nodes = .ok result) (hSeen : Remembers seen done)
    (hOrderly : ∀ node ∈ nodes, node.schema.Orderly) (rest : List (String × Node)) :
    Remembers result.1 (done ++ nodes.map fun node => (source, node)) ∧
      result.2 = (nodes.map fun node => (source, node)).filterMap
        (comm.warningAmong (done ++ (nodes.map fun node => (source, node)) ++ rest)) := by
  induction nodes generalizing seen result done with
  | nil =>
      cases h
      rw [List.map_nil, List.append_nil]
      exact ⟨hSeen, rfl⟩
  | cons node others ih =>
      obtain ⟨hFirst, hOthers⟩ := List.forall_mem_cons.mp hOrderly
      rw [validateNodes] at h
      obtain ⟨⟨seen', warnings⟩, hStep, h⟩ := bind_eq_ok.mp h
      obtain ⟨⟨seen'', more⟩, hRun, h⟩ := bind_eq_ok.mp h
      cases h
      -- the nodes up to here are done, and all nodes are the same as before
      obtain ⟨hSeen', hWarning⟩ := validateNode_step hStep hSeen hFirst
        ((others.map fun node => (source, node)) ++ rest)
      obtain ⟨hSeen'', hMore⟩ := ih hRun hSeen' hOthers
      rw [List.append_assoc, List.singleton_append] at hSeen''
      rw [List.append_assoc, List.append_assoc, List.singleton_append] at hMore
      refine ⟨hSeen'', ?_⟩
      rw [List.map_cons, List.filterMap_cons]
      simp only at hWarning hMore
      rw [hWarning, hMore, List.append_assoc, List.cons_append]
      split
      · next hNone =>
        rw [hNone]
        rfl
      · next warning hSome =>
        rw [hSome]
        rfl

theorem validateContracts_run {seen : List FirstObject} {contracts : List Contract}
    {warnings : List String} {done : List (String × Node)}
    (h : validateContracts comm seen contracts = .ok warnings) (hSeen : Remembers seen done)
    (hOrderly : ∀ contract ∈ contracts, ∀ node ∈ contract.nodes.items, node.schema.Orderly) :
    warnings = (sourcedNodes contracts).filterMap
      (comm.warningAmong (done ++ sourcedNodes contracts)) := by
  induction contracts generalizing seen warnings done with
  | nil =>
      cases h
      rfl
  | cons contract rest ih =>
      obtain ⟨hFirst, hRest⟩ := List.forall_mem_cons.mp hOrderly
      rw [validateContracts] at h
      obtain ⟨⟨seen', first⟩, hRun, h⟩ := bind_eq_ok.mp h
      obtain ⟨⟨⟩, -, h⟩ := bind_eq_ok.mp h
      obtain ⟨others, hOthers, h⟩ := bind_eq_ok.mp h
      cases h
      obtain ⟨hSeen', hWarnings⟩ := validateNodes_run hRun hSeen hFirst (sourcedNodes rest)
      have hMore := ih hOthers hSeen' hRest
      simp only at hWarnings
      have hAll : sourcedNodes (contract :: rest) =
          (contract.nodes.items.map fun node => (contract.source, node)) ++ sourcedNodes rest :=
        List.flatMap_cons
      rw [hAll, List.filterMap_append, ← List.append_assoc, ← hWarnings, ← hMore]

/-! ## What is declared -/

theorem map_snd_sourcedNodes (contracts : List Contract) :
    (sourcedNodes contracts).map Prod.snd = allNodes contracts := by
  rw [sourcedNodes, allNodes, List.map_flatMap]
  refine List.flatMap_congr fun contract _ => ?_
  rw [List.map_map]
  exact List.map_id _

/-- An object of a comm and the declaration that stands for it: the only one under its name, with the
object of the first node that has the name. -/
structure Comm.Keeps (comm : Comm) (sourced : String × Node) (object : ObjectSchema) (name : String)
    (first : String × Node) (declared : ObjectDeclaration) : Prop where
  named : objectName sourced.2.context object = .ok name
  isFirst : firstObject (sourcedNodes comm.contracts) name = some first
  kept : first.2.object? = some declared.node
  once : comm.objects.items.filter (fun other => other.name = name) = [declared]

/-- What is said of an object: nothing if it is the same as the declared one. Else it is not the first
with its name, and there is a warning. -/
def Comm.Tells (comm : Comm) (sourced : String × Node) (object : ObjectSchema) (name : String)
    (first : String × Node) (declared : ObjectDeclaration) : Prop :=
  (Schema.Same (.object declared.node) (.object object) ∧
      comm.warningAmong (sourcedNodes comm.contracts) sourced = none) ∨
    (¬ Schema.Same (.object declared.node) (.object object) ∧ sourced ≠ first ∧
      comm.warningAmong (sourcedNodes comm.contracts) sourced =
        some (collisionWarning comm.name name sourced.1 first.1))

theorem objects_first (h : comm.objects.outcome = .ok ()) {sourced : String × Node}
    (hNode : sourced ∈ sourcedNodes comm.contracts) {object : ObjectSchema}
    (hObject : sourced.2.object? = some object) :
    ∃ name first declared, comm.Keeps sourced object name first declared := by
  have hDeclares := (objects_declares h).2
  have hMem : sourced.2 ∈ allNodes comm.contracts := by
    rw [← map_snd_sourcedNodes]
    exact List.mem_map_of_mem hNode
  obtain ⟨name, hName, hDeclared⟩ :=
    hDeclares.named sourced.2 hMem _ (objectName?_of_object hObject)
  have hDeclared := hDeclared.resolve_left List.not_mem_nil
  obtain ⟨declared, hDeclaredMem, rfl⟩ := List.mem_map.mp hDeclared
  obtain ⟨node, hFind, hDeclaration⟩ := hDeclares.first declared hDeclaredMem
  rw [← map_snd_sourcedNodes, List.find?_map] at hFind
  obtain ⟨first, hFirst, rfl⟩ := Option.map_eq_some_iff.mp hFind
  have hKept : first.2.object? = some declared.node :=
    object?_eq_some.mpr (declareObject_ok hDeclaration).2.1
  exact ⟨declared.name, first, declared,
    ⟨hName, hFirst, hKept, hDeclares.filter_eq hDeclaredMem⟩⟩

/-- Among orderly nodes the warnings tell which objects are not the same as the declared ones. -/
theorem Comm.Keeps.tells {sourced first : String × Node} {object : ObjectSchema} {name : String}
    {declared : ObjectDeclaration} (h : comm.Keeps sourced object name first declared)
    (hOrderly : ∀ other ∈ sourcedNodes comm.contracts, other.2.schema.Orderly)
    (hNode : sourced ∈ sourcedNodes comm.contracts) (hObject : sourced.2.object? = some object) :
    comm.Tells sourced object name first declared := by
  have hName : sourced.2.objectName? = some (.ok name) := by
    rw [objectName?_of_object hObject, h.named]
  have hOwn := hOrderly sourced hNode
  have hKept := hOrderly first (List.mem_of_find?_eq_some h.isFirst)
  rw [object?_eq_some.mp hObject] at hOwn
  rw [object?_eq_some.mp h.kept] at hKept
  have hCheck := Schema.sameAs_iff hKept hOwn
  have hWarning : comm.warningAmong (sourcedNodes comm.contracts) sourced = _ :=
    warningAmong_of_first hName h.isFirst
  rw [object?_eq_some.mp hObject, object?_eq_some.mp h.kept] at hWarning
  by_cases hSame : (Schema.object declared.node).sameAs (.object object) = true
  · rw [if_pos hSame] at hWarning
    exact Or.inl ⟨hCheck.mp hSame, hWarning⟩
  · rw [if_neg hSame] at hWarning
    refine Or.inr ⟨fun hOther => hSame (hCheck.mpr hOther), ?_, hWarning⟩
    -- the first object is the same as itself
    rintro rfl
    have hSelf : object = declared.node := Option.some.inj (hObject.symm.trans h.kept)
    rw [hSelf] at hSame hCheck
    exact hSame (hCheck.mpr (.refl hKept))

theorem mem_sourcedNodes {contracts : List Contract} {sourced : String × Node} :
    sourced ∈ sourcedNodes contracts ↔
      ∃ contract ∈ contracts, contract.source = sourced.1 ∧ sourced.2 ∈ contract.nodes.items := by
  rw [sourcedNodes, List.mem_flatMap]
  refine exists_congr fun contract => and_congr_right fun _ => ?_
  rw [List.mem_map]
  constructor
  · rintro ⟨node, hNode, rfl⟩
    exact ⟨rfl, hNode⟩
  · rintro ⟨hSource, hNode⟩
    exact ⟨sourced.2, hNode, Prod.ext hSource rfl⟩

/-- **The warnings are the dropped objects.** Let the contracts of a comm be read from documents whose
mappings have texts for keys, each once. If the comm is valid, then its objects can be declared, one
for each name: that of the first node that has the name. The warnings are those for the single nodes,
in their order. An object that is the same as the declared one with its name gets none, one that is
not the same gets one, and no other node gets any. So if there are no warnings, every object is the
same as the one that is declared under its name. -/
theorem warnings_exact {comm : Comm} {warnings : List String}
    (hRead : ∀ contract ∈ comm.contracts, ∃ direction source document,
      Contract.read direction source document = .ok contract ∧
        (Value.mapping document none).hasNamedEntries = true)
    (hValid : validate comm = .ok warnings) :
    comm.objects.outcome = .ok () ∧
      warnings = (sourcedNodes comm.contracts).filterMap
        (comm.warningAmong (sourcedNodes comm.contracts)) ∧
      (∀ sourced ∈ sourcedNodes comm.contracts, ∀ object, sourced.2.object? = some object →
        ∃ name first declared, comm.Keeps sourced object name first declared ∧
          comm.Tells sourced object name first declared) ∧
      (∀ sourced, sourced.2.object? = none →
        comm.warningAmong (sourcedNodes comm.contracts) sourced = none) ∧
      (warnings = [] → ∀ sourced ∈ sourcedNodes comm.contracts, ∀ object,
        sourced.2.object? = some object →
          ∃ name first declared, comm.Keeps sourced object name first declared ∧
            Schema.Same (.object declared.node) (.object object)) := by
  have hChecked := checked_of_validate hValid
  have hKeys : ∀ contract ∈ comm.contracts, contract.HasTextKeys := by
    intro contract hContract
    obtain ⟨direction, source, document, hRead, hNamed⟩ := hRead contract hContract
    exact hasTextKeys_of_readContract hRead (hasTextKeys_of_hasNamedEntries hNamed)
  have hOrderly : ∀ contract ∈ comm.contracts, ∀ node ∈ contract.nodes.items,
      node.schema.Orderly := by
    intro contract hContract
    obtain ⟨direction, source, document, hRead, hNamed⟩ := hRead contract hContract
    exact nodes_inherit Schema.inherited_orderly (orderly_of_readContract hRead hNamed)
      (hChecked.ends contract hContract)
  have hObjects : comm.objects.outcome = .ok () := objects_total hChecked hKeys
  have hWarnings : warnings = (sourcedNodes comm.contracts).filterMap
      (comm.warningAmong (sourcedNodes comm.contracts)) :=
    validateContracts_run hValid remembers_nil hOrderly
  have hTells : ∀ sourced ∈ sourcedNodes comm.contracts, ∀ object,
      sourced.2.object? = some object →
        ∃ name first declared, comm.Keeps sourced object name first declared ∧
          comm.Tells sourced object name first declared := by
    intro sourced hSourced object hObject
    obtain ⟨name, first, declared, hKeeps⟩ := objects_first hObjects hSourced hObject
    refine ⟨name, first, declared, hKeeps, hKeeps.tells (fun other hOther => ?_) hSourced hObject⟩
    obtain ⟨contract, hContract, -, hNode⟩ := mem_sourcedNodes.mp hOther
    exact hOrderly contract hContract other.2 hNode
  refine ⟨hObjects, hWarnings, hTells, ?_, ?_⟩
  · intro sourced hNone
    rw [Comm.warningAmong, Node.objectName?, hNone, Option.map_none]
  · intro hEmpty sourced hSourced object hObject
    obtain ⟨name, first, declared, hKeeps, hSame⟩ := hTells sourced hSourced object hObject
    refine ⟨name, first, declared, hKeeps, ?_⟩
    rcases hSame with ⟨hSame, -⟩ | ⟨-, -, hWarning⟩
    · exact hSame
    · -- a warning about this object would be among the warnings
      have hAmong : collisionWarning comm.name name sourced.1 first.1 ∈ warnings := by
        rw [hWarnings]
        exact List.mem_filterMap.mpr ⟨sourced, hSourced, hWarning⟩
      rw [hEmpty] at hAmong
      exact absurd hAmong List.not_mem_nil

/-- A result that is an object with the name `thing`. -/
def thingResult (description : String) : Value :=
  let mapping (entries : List (String × Value)) : Value :=
    .mapping (entries.map fun entry => (.text entry.1, entry.2)) none
  mapping [("schema", mapping [("type", .text "object"), ("name", .text "thing"),
    ("description", .text description), ("additionalProperties", .scalar (.bool true))])]

/-- A document with two methods, each of which has its own idea of a thing. -/
def thingDocument : Mapping :=
  let method (name description : String) : Value :=
    .mapping [(.text "name", .text name), (.text "summary", .text "Ask for a thing"),
      (.text "result", thingResult description)] none
  [(.text "methods", .list [method "get" "A thing", method "put" "Another thing"] none)]

/-- The object that is read for a thing. -/
def thingObject (description : String) : ObjectSchema :=
  ⟨some "thing", some description, [], Schema.sortedTexts [], true⟩

/-- The contract in the document. -/
def thingContract : Contract where
  direction := .backend
  source := "shop-backend-openrpc.json"
  methods :=
    [⟨"get", "Ask for a thing", none, [], some (.object (thingObject "A thing"))⟩,
      ⟨"put", "Ask for a thing", none, [], some (.object (thingObject "Another thing"))⟩]
  schemas := []
  document := thingDocument

/-- The comm with that contract. -/
def thingComm : Comm := ⟨"shop", some thingContract, none, rfl⟩

theorem read_thing (source : Option String) (location : Key) {description : String}
    (hDescription : Text.isBlankText description.toList = false) :
    Schema.read source location (.mapping [(.text "type", .text "object"),
      (.text "name", .text "thing"), (.text "description", .text description),
      (.text "additionalProperties", .scalar (.bool true))] none) =
      .ok (.object (thingObject description)) := by
  have hProse : Mapping.prose? [(.text "type", .text "object"), (.text "name", .text "thing"),
      (.text "description", .text description),
      (.text "additionalProperties", .scalar (.bool true))] "description" = some description := by
    show (if Text.isBlankText description.toList then none else some description) = _
    rw [hDescription, if_neg Bool.false_ne_true]
  rw [Schema.read]
  refine bind_eq_ok.mpr ⟨[], by rw [Schema.readProperties], ?_⟩
  refine bind_eq_ok.mpr ⟨[], rfl, ?_⟩
  rw [hProse]
  rfl

theorem read_thingDocument :
    Contract.read .backend "shop-backend-openrpc.json" thingDocument = .ok thingContract := by
  have hResult : ∀ method description, Text.isBlankText description.toList = false →
      Method.readResult "shop-backend-openrpc.json" method (some (thingResult description)) =
        .ok (some (.object (thingObject description))) := fun method description hDescription =>
    map_eq_ok.mpr ⟨_, read_thing _ _ hDescription, rfl⟩
  have hGet := hResult "get" "A thing" (by decide)
  have hPut := hResult "put" "Another thing" (by decide)
  refine bind_eq_ok.mpr ⟨thingContract.methods, mapM_eq_ok.mpr (.cons ?_ (.cons ?_ .nil)), rfl⟩
  · exact bind_eq_ok.mpr ⟨[], rfl, bind_eq_ok.mpr ⟨_, hGet, rfl⟩⟩
  · exact bind_eq_ok.mpr ⟨[], rfl, bind_eq_ok.mpr ⟨_, hPut, rfl⟩⟩

theorem warnings_twoThings :
    validate thingComm = .ok [collisionWarning "shop" "Thing" thingContract.source
      thingContract.source] ∧
    ∃ name first declared, thingComm.Keeps
      (thingContract.source, ⟨resultContext "put", .object (thingObject "Another thing")⟩)
      (thingObject "Another thing") name first declared ∧
        ¬ Schema.Same (.object declared.node) (.object (thingObject "Another thing")) := by
  have hRead : ∀ contract ∈ thingComm.contracts, ∃ direction source document,
      Contract.read direction source document = .ok contract ∧
        (Value.mapping document none).hasNamedEntries = true :=
    List.forall_mem_singleton.mpr ⟨_, _, _, read_thingDocument, by decide⟩
  have hValid : validate thingComm = .ok [collisionWarning "shop" "Thing" thingContract.source
      thingContract.source] := by decide
  obtain ⟨-, hWarnings, hTells, -, -⟩ := warnings_exact hRead hValid
  refine ⟨hValid, ?_⟩
  obtain ⟨name, first, declared, hKeeps, hSame⟩ := hTells _
    (List.mem_cons_of_mem _ List.mem_cons_self) (thingObject "Another thing") rfl
  refine ⟨name, first, declared, hKeeps, ?_⟩
  rcases hSame with ⟨-, hNone⟩ | ⟨hOther, -⟩
  · -- without a warning about the second thing there would be none at all
    have hFirst : thingComm.warningAmong (sourcedNodes thingComm.contracts)
        (thingContract.source, ⟨resultContext "get", .object (thingObject "A thing")⟩) = none := by
      decide +kernel
    have hEmpty : (sourcedNodes thingComm.contracts).filterMap
        (thingComm.warningAmong (sourcedNodes thingComm.contracts)) = [] :=
      List.filterMap_eq_nil_iff.mpr
        (List.forall_mem_cons.mpr ⟨hFirst, List.forall_mem_singleton.mpr hNone⟩)
    rw [hEmpty] at hWarnings
    cases hWarnings
  · exact hOther

end CommBindings
