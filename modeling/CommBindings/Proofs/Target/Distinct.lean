import CommBindings.Contract.Validation
import CommBindings.Proofs.Target.Declarations
import CommBindings.Proofs.Text.Ending

set_option autoImplicit false

/-! # When no name is declared twice

Of the names that a file declares, those of objects are distinct, and so are those of enumerations,
as each is declared where it occurs first. The names that are coined for parameters, messages and
the client are a stem with an ending, and a name tells both (`coined_name_injective`). What remains
are conditions on the names in the contracts, and they are exactly what it takes
(`declared_nodup_iff`).
-/

namespace CommBindings

/-! ## Coined names -/

/-- The endings of the names that are coined. -/
inductive Ending where
  | params
  | request
  | reply
  | event
  | handler
  | client
  deriving DecidableEq

/-- The text of an ending. -/
def Ending.text : Ending → String
  | params => "Params"
  | request => "Request"
  | reply => "Reply"
  | event => "Event"
  | handler => "Handler"
  | client => "Comm"

/-- A name that is coined from a stem. -/
structure Coined where
  stem : String
  ending : Ending

/-- The coined name. -/
def Coined.name (coined : Coined) : String := coined.stem ++ coined.ending.text

/-- A coined name tells its stem and its ending. -/
theorem coined_name_injective : Function.Injective Coined.name := by
  rintro ⟨stem, ending⟩ ⟨stem', ending'⟩ h
  simp only [Coined.name] at h
  have hLong : ∀ e : Ending, 3 ≤ e.text.toList.length := by
    intro e
    cases e <;> decide
  have hEnding : ending = ending' := by
    -- no two endings have the same last three characters
    have hLast := congrArg lastThree h
    rw [lastThree_append _ _ (hLong ending), lastThree_append _ _ (hLong ending')] at hLast
    revert hLast
    cases ending <;> cases ending' <;> decide
  subst hEnding
  have hStem : stem = stem' := by
    have hList := congrArg String.toList h
    rw [String.toList_append, String.toList_append] at hList
    exact String.toList_inj.mp (List.append_cancel_right hList)
  rw [hStem]

/-- The stem that a method gives to names. -/
def Method.stem (method : Method) : String := Naming.pascalCase method.name

/-- The name that is coined from that of a method. -/
def Method.coin (ending : Ending) (method : Method) : Coined := ⟨method.stem, ending⟩

/-- The stems of those of the names that have an ending. -/
def stemsOf (ending : Ending) : List Coined → List String
  | [] => []
  | coined :: rest =>
    if coined.ending = ending then coined.stem :: stemsOf ending rest else stemsOf ending rest

theorem mem_stemsOf {ending : Ending} {names : List Coined} {stem : String} :
    stem ∈ stemsOf ending names ↔ ⟨stem, ending⟩ ∈ names := by
  induction names with
  | nil =>
      rw [stemsOf]
      exact ⟨fun h => absurd h List.not_mem_nil, fun h => absurd h List.not_mem_nil⟩
  | cons coined rest ih =>
      rw [stemsOf, List.mem_cons]
      by_cases hEnding : coined.ending = ending
      · rw [if_pos hEnding, List.mem_cons, ih]
        have hFirst : stem = coined.stem ↔ Coined.mk stem ending = coined := by
          subst hEnding
          constructor
          · rintro rfl
            rfl
          · intro h
            rw [← h]
        rw [hFirst]
      · rw [if_neg hEnding, ih]
        constructor
        · exact Or.inr
        · rintro (h | h)
          · exact absurd (congrArg Coined.ending h).symm hEnding
          · exact h

/-- Coined names are distinct if for each ending the stems are. -/
theorem nodup_iff_stemsOf (names : List Coined) :
    names.Nodup ↔ ∀ ending, (stemsOf ending names).Nodup := by
  induction names with
  | nil => exact ⟨fun _ _ => List.nodup_nil, fun _ => List.nodup_nil⟩
  | cons coined rest ih =>
      rw [List.nodup_cons, ih]
      constructor
      · rintro ⟨hNew, hRest⟩ ending
        rw [stemsOf]
        split
        · next hEnding =>
          rw [List.nodup_cons, mem_stemsOf, ← hEnding]
          exact ⟨hNew, hEnding ▸ hRest coined.ending⟩
        · exact hRest ending
      · intro hAll
        constructor
        · have hOwn := hAll coined.ending
          rw [stemsOf, if_pos rfl, List.nodup_cons, mem_stemsOf] at hOwn
          exact hOwn.1
        · intro ending
          have hEnding := hAll ending
          rw [stemsOf] at hEnding
          split at hEnding
          · exact (List.nodup_cons.mp hEnding).2
          · exact hEnding

theorem stemsOf_append (ending : Ending) (names others : List Coined) :
    stemsOf ending (names ++ others) = stemsOf ending names ++ stemsOf ending others := by
  induction names with
  | nil => rfl
  | cons coined rest ih =>
      rw [List.cons_append, stemsOf, stemsOf, ih]
      split <;> rfl

theorem stemsOf_coin (ending other : Ending) (methods : List Method) :
    stemsOf ending (methods.map (Method.coin other)) =
      if other = ending then methods.map Method.stem else [] := by
  induction methods with
  | nil =>
      split <;> rfl
  | cons method rest ih =>
      rw [List.map_cons, stemsOf, ih, Method.coin]
      split <;> rfl

/-! ## The coined names of a file -/

/-- The names of the types of requests and replies. -/
def Comm.unionNames (comm : Comm) : List Coined :=
  [⟨comm.typeName ++ "Rpc", .request⟩, ⟨comm.typeName ++ "Rpc", .reply⟩]

/-- The names that a section for messages or clients declares. -/
def Target.messagesIn (target : Target) (comm : Comm) (part : Section) : List Coined :=
  match target, part with
  | .typeScript, .backendUnions => comm.unionNames
  | .typeScript, .frontendEvents =>
    comm.frontendMethods.map (Method.coin .event) ++ [⟨comm.typeName, .event⟩]
  | .typeScript, .client => [⟨"Positron" ++ comm.typeName, .client⟩]
  | .rust, .backendUnions => comm.unionNames
  | .python, .backendUnions =>
    ⟨comm.typeName, .request⟩ :: comm.backendMethods.map (Method.coin .request) ++
      (comm.backendMethods.filter Method.hasResult).map (Method.coin .reply) ++ comm.unionNames
  | _, .frontendEvents => [⟨comm.typeName, .event⟩]
  | _, .client => if comm.backend.isSome then [⟨comm.typeName, .handler⟩] else []
  | _, _ => []

/-- The sections for messages and clients. -/
def Comm.messageSections (comm : Comm) : List Section :=
  (if comm.backend.isSome then [.backendUnions] else []) ++
    (if comm.frontend.isSome then [.frontendEvents] else []) ++ [.client]

/-- All coined names in a file: those of parameters, messages and clients. -/
def Target.coined (target : Target) (comm : Comm) : List Coined :=
  comm.methodsWithParams.map (Method.coin .params) ++
    comm.messageSections.flatMap (target.messagesIn comm)

/-- The names of the objects and the enumerations. -/
def Comm.nodeNames (comm : Comm) : List String :=
  comm.objects.items.map ObjectDeclaration.name ++ comm.enums.items.map EnumDeclaration.name

theorem unions_declared (comm : Comm) :
    comm.unionNames.map (fun coined => (.ok coined.name : Except Fault String)) =
      [.ok (comm.typeName ++ "RpcRequest"), .ok (comm.typeName ++ "RpcReply")] := by
  have hRequest : (Coined.mk (comm.typeName ++ "Rpc") .request).name =
      comm.typeName ++ "RpcRequest" := by
    rw [Coined.name, Ending.text, String.append_assoc]
    rfl
  have hReply : (Coined.mk (comm.typeName ++ "Rpc") .reply).name =
      comm.typeName ++ "RpcReply" := by
    rw [Coined.name, Ending.text, String.append_assoc]
    rfl
  rw [Comm.unionNames, List.map_cons, List.map_singleton, hRequest, hReply]

theorem Python.replies_declared (comm : Comm) :
    ((Python.messages comm).replies.map fun reply => (.ok reply.name : Except Fault String)) =
      ((comm.backendMethods.filter Method.hasResult).map (Method.coin .reply)).map
        fun coined => .ok coined.name := by
  show ((comm.backendMethods.filterMap fun method =>
    method.reply?.map (Python.replyOf comm method)).map _) = _
  induction comm.backendMethods with
  | nil => rfl
  | cons method rest ih =>
      cases hReply : method.reply? with
      | none =>
          have hNone : ¬ method.hasResult = true := by
            rw [Method.hasResult, hReply]
            exact Bool.false_ne_true
          rw [List.filterMap_cons_none (by rw [hReply]; rfl), List.filter_cons_of_neg hNone, ih]
      | some schema =>
          have hSome : method.hasResult = true := by
            rw [Method.hasResult, hReply]
            rfl
          rw [List.filterMap_cons_some (by rw [hReply]; rfl), List.filter_cons_of_pos hSome,
            List.map_cons, List.map_cons, List.map_cons, ih]
          rfl

/-- A section for messages or clients declares the names that are coined for it. -/
theorem messages_declared (target : Target) {comm : Comm} {part : Section}
    (hPart : part ∈ comm.messageSections) :
    target.declaredIn comm part =
      (target.messagesIn comm part).map fun coined => .ok coined.name := by
  have hKind : part = .backendUnions ∨ part = .frontendEvents ∨ part = .client := by
    rcases List.mem_append.mp hPart with hPart | hPart
    · rcases List.mem_append.mp hPart with hPart | hPart
      · split at hPart
        · exact Or.inl (List.mem_singleton.mp hPart)
        · exact absurd hPart List.not_mem_nil
      · split at hPart
        · exact Or.inr (Or.inl (List.mem_singleton.mp hPart))
        · exact absurd hPart List.not_mem_nil
    · exact Or.inr (Or.inr (List.mem_singleton.mp hPart))
  rcases hKind with rfl | rfl | rfl
  · cases target with
    | typeScript => exact (unions_declared comm).symm
    | rust => exact (unions_declared comm).symm
    | python =>
        rw [Target.messagesIn, List.map_append, List.map_append, unions_declared,
          ← Python.replies_declared, List.map_cons, List.map_map]
        show _ :: _ ++ _ ++ _ = _
        rw [Python.messages, List.map_map]
        rfl
  · cases target with
    | typeScript =>
        rw [Target.messagesIn, List.map_append, List.map_map]
        rfl
    | rust => rfl
    | python => rfl
  · cases target with
    | typeScript => rfl
    | rust =>
        show (if comm.backend.isSome then _ else _) = List.map _ (if comm.backend.isSome then _ else _)
        split <;> rfl
    | python =>
        show (if comm.backend.isSome then _ else _) = List.map _ (if comm.backend.isSome then _ else _)
        split <;> rfl

/-- The names in a file: those of aliases, of objects and enumerations, and the coined ones. -/
theorem declared_eq (target : Target) (comm : Comm) :
    target.declared comm = comm.aliases.map (fun entry => entry.1.typeName) ++
      (comm.nodeNames ++ (target.coined comm).map Coined.name).map .ok := by
  have hSections : comm.sections =
      [.header, .aliases, .objects, .enums, .paramRecords] ++ comm.messageSections := by
    rw [Comm.sections, Comm.messageSections]
    simp only [List.append_assoc]
  have hMessages : comm.messageSections.flatMap (target.declaredIn comm) =
      (comm.messageSections.flatMap (target.messagesIn comm)).map fun coined => .ok coined.name := by
    rw [List.map_flatMap]
    exact List.flatMap_congr fun part hPart => messages_declared target hPart
  have hHeader : target.declaredIn comm .header = [] := by
    cases target <;> rfl
  -- the aliases keep their place in front, as their names may be faults
  rw [Target.declared, hSections, List.flatMap_append, hMessages]
  simp only [List.flatMap_cons, List.flatMap_nil, hHeader, declaredIn_aliases, declaredIn_objects,
    declaredIn_enums, declaredIn_paramRecords, Target.coined, Comm.nodeNames, List.map_append,
    List.map_map, List.append_assoc, List.nil_append, List.append_nil]
  rfl

/-! ## When coined names are distinct -/

/-- The stems of the types that are declared for each message of one direction, with those of the
types for all messages that have the same ending. -/
def Target.messageStems (target : Target) (comm : Comm) : List String :=
  match target with
  | .typeScript => comm.frontendMethods.map Method.stem ++ [comm.typeName]
  | .rust => []
  | .python => comm.typeName :: comm.backendMethods.map Method.stem ++ [comm.typeName ++ "Rpc"]

theorem rpc_ne (name : String) : name ≠ name ++ "Rpc" := by
  intro h
  have hLength := congrArg (fun s => s.toList.length) h
  simp only [String.toList_append, List.length_append] at hLength
  have hRpc : "Rpc".toList.length = 3 := by
    decide
  omega

theorem flatMap_messageSections (comm : Comm) (f : Section → List Coined) :
    comm.messageSections.flatMap f =
      (if comm.backend.isSome then f .backendUnions else []) ++
        (if comm.frontend.isSome then f .frontendEvents else []) ++ f .client := by
  rw [Comm.messageSections, List.flatMap_append, List.flatMap_append]
  split <;> split <;> simp

theorem stemsOf_coined (target : Target) (comm : Comm) (ending : Ending) :
    stemsOf ending (target.coined comm) =
      (if .params = ending then comm.methodsWithParams.map Method.stem else []) ++
        ((if comm.backend.isSome then stemsOf ending (target.messagesIn comm .backendUnions)
          else []) ++
        (if comm.frontend.isSome then stemsOf ending (target.messagesIn comm .frontendEvents)
          else []) ++
        stemsOf ending (target.messagesIn comm .client)) := by
  have hIf : ∀ (b : Bool) (names : List Coined), stemsOf ending (if b then names else []) =
      if b then stemsOf ending names else [] := by
    intro b names
    cases b <;> rfl
  rw [Target.coined, stemsOf_append, stemsOf_coin, flatMap_messageSections, stemsOf_append,
    stemsOf_append, hIf, hIf]

theorem TypeScript.stemsOf_coined (comm : Comm) (ending : Ending) :
    stemsOf ending (Target.typeScript.coined comm) =
      match ending with
      | .params => comm.methodsWithParams.map Method.stem
      | .event => if comm.frontend.isSome then Target.typeScript.messageStems comm else []
      | .request | .reply => if comm.backend.isSome then [comm.typeName ++ "Rpc"] else []
      | .handler => []
      | .client => ["Positron" ++ comm.typeName] := by
  rw [CommBindings.stemsOf_coined]
  -- each section gives stems to some of the endings only
  cases ending <;>
    simp [Target.messagesIn, Target.messageStems, Comm.unionNames, stemsOf, stemsOf_append,
      stemsOf_coin]

theorem Rust.stemsOf_coined (comm : Comm) (ending : Ending) :
    stemsOf ending (Target.rust.coined comm) =
      match ending with
      | .params => comm.methodsWithParams.map Method.stem
      | .event => if comm.frontend.isSome then [comm.typeName] else []
      | .request | .reply => if comm.backend.isSome then [comm.typeName ++ "Rpc"] else []
      | .handler => if comm.backend.isSome then [comm.typeName] else []
      | .client => [] := by
  rw [CommBindings.stemsOf_coined]
  cases hBackend : comm.backend <;> cases ending <;>
    simp [Target.messagesIn, Comm.unionNames, stemsOf, hBackend]

theorem Python.stemsOf_coined (comm : Comm) (ending : Ending) :
    stemsOf ending (Target.python.coined comm) =
      match ending with
      | .params => comm.methodsWithParams.map Method.stem
      | .event => if comm.frontend.isSome then [comm.typeName] else []
      | .request => if comm.backend.isSome then Target.python.messageStems comm else []
      | .reply =>
        if comm.backend.isSome then
          (comm.backendMethods.filter Method.hasResult).map Method.stem ++ [comm.typeName ++ "Rpc"]
        else []
      | .handler => if comm.backend.isSome then [comm.typeName] else []
      | .client => [] := by
  rw [CommBindings.stemsOf_coined]
  cases hBackend : comm.backend <;> cases ending <;>
    simp [Target.messagesIn, Target.messageStems, Comm.unionNames, stemsOf, stemsOf_append,
      stemsOf_coin, hBackend]

theorem nodup_ite {names : List String} {b : Bool} (h : names.Nodup) :
    (if b then names else []).Nodup := by
  split
  · exact h
  · exact List.nodup_nil

theorem TypeScript.coined_nodup (comm : Comm) :
    (Target.typeScript.coined comm).Nodup ↔ (comm.methodsWithParams.map Method.stem).Nodup ∧
      (Target.typeScript.messageStems comm).Nodup := by
  rw [nodup_iff_stemsOf]
  simp only [TypeScript.stemsOf_coined]
  constructor
  · intro hAll
    refine ⟨hAll .params, ?_⟩
    have hEvents := hAll .event
    cases hFrontend : comm.frontend with
    | none =>
        -- without a frontend there is nothing that the name of the comm could clash with
        rw [Target.messageStems, Comm.frontendMethods, hFrontend]
        exact List.nodup_singleton _
    | some contract =>
        rw [hFrontend] at hEvents
        exact hEvents
  · rintro ⟨hRecords, hMessages⟩ ending
    cases ending with
    | params => exact hRecords
    | event => exact nodup_ite hMessages
    | request => exact nodup_ite (List.nodup_singleton _)
    | reply => exact nodup_ite (List.nodup_singleton _)
    | handler => exact List.nodup_nil
    | client => exact List.nodup_singleton _

theorem Rust.coined_nodup (comm : Comm) :
    (Target.rust.coined comm).Nodup ↔ (comm.methodsWithParams.map Method.stem).Nodup := by
  rw [nodup_iff_stemsOf]
  simp only [Rust.stemsOf_coined]
  constructor
  · exact fun hAll => hAll .params
  · intro hRecords ending
    cases ending with
    | params => exact hRecords
    | event => exact nodup_ite (List.nodup_singleton _)
    | request => exact nodup_ite (List.nodup_singleton _)
    | reply => exact nodup_ite (List.nodup_singleton _)
    | handler => exact nodup_ite (List.nodup_singleton _)
    | client => exact List.nodup_nil

theorem Python.coined_nodup (comm : Comm) :
    (Target.python.coined comm).Nodup ↔ (comm.methodsWithParams.map Method.stem).Nodup ∧
      (Target.python.messageStems comm).Nodup := by
  rw [nodup_iff_stemsOf]
  simp only [Python.stemsOf_coined]
  constructor
  · intro hAll
    refine ⟨hAll .params, ?_⟩
    have hRequests := hAll .request
    cases hBackend : comm.backend with
    | none =>
        rw [Target.messageStems, Comm.backendMethods, hBackend]
        show [comm.typeName, comm.typeName ++ "Rpc"].Nodup
        rw [List.nodup_cons, List.mem_singleton]
        exact ⟨rpc_ne _, List.nodup_singleton _⟩
    | some contract =>
        rw [hBackend] at hRequests
        exact hRequests
  · rintro ⟨hRecords, hMessages⟩ ending
    cases ending with
    | params => exact hRecords
    | event => exact nodup_ite (List.nodup_singleton _)
    | request => exact nodup_ite hMessages
    | reply =>
        -- the methods with a result are some of those that have a request
        have hSome : ((comm.backendMethods.filter Method.hasResult).map Method.stem).Sublist
            (comm.backendMethods.map Method.stem) := List.filter_sublist.map _
        exact nodup_ite ((List.nodup_cons.mp hMessages).2.sublist (hSome.append_right _))
    | handler => exact nodup_ite (List.nodup_singleton _)
    | client => exact List.nodup_nil

/-- Coined names are distinct if the methods with parameters have distinct names, and so do the
methods with types for single messages. -/
theorem coined_nodup (target : Target) (comm : Comm) :
    (target.coined comm).Nodup ↔
      (comm.methodsWithParams.map Method.stem).Nodup ∧ (target.messageStems comm).Nodup := by
  cases target with
  | typeScript => exact TypeScript.coined_nodup comm
  | rust => exact (Rust.coined_nodup comm).trans (and_iff_left List.nodup_nil).symm
  | python => exact Python.coined_nodup comm

/-! ## When all names are distinct -/

/-- The names in the contracts of a comm lead to distinct names of types. -/
structure Target.NamesApart (target : Target) (comm : Comm) : Prop where
  /-- Shared schemas with an alias have distinct names, in both contracts together. -/
  aliases : (comm.aliases.map fun entry => entry.1.typeName).Nodup
  /-- No alias has the name of another declaration. -/
  aliases_others : ∀ entry ∈ comm.aliases,
    ∀ name ∈ comm.nodeNames ++ (target.coined comm).map Coined.name, entry.1.typeName ≠ .ok name
  /-- No object has the name of an enumeration. -/
  objects_enums : ∀ object ∈ comm.objects.items, ∀ declared ∈ comm.enums.items,
    object.name ≠ declared.name
  /-- No object or enumeration has a name that is coined for something else. -/
  nodes_coined : ∀ name ∈ comm.nodeNames, ∀ coined ∈ target.coined comm, name ≠ coined.name
  /-- The methods with parameters have distinct names, in both contracts together. -/
  records : (comm.methodsWithParams.map Method.stem).Nodup
  /-- The methods with a type for their messages have distinct names, which are not taken. -/
  messages : (target.messageStems comm).Nodup

theorem nodeNames_nodup {target : Target} {comm : Comm} {text : String}
    (h : target.render comm = .ok text) :
    comm.nodeNames.Nodup ↔ ∀ object ∈ comm.objects.items, ∀ declared ∈ comm.enums.items,
      object.name ≠ declared.name := by
  have hObjects := (objects_declares (objects_ok h)).2.nodup
  have hEnums := (enums_declares (enums_ok h)).nodup
  rw [Comm.nodeNames, List.nodup_append]
  constructor
  · rintro ⟨-, -, hApart⟩ object hObject declared hDeclared
    exact hApart _ (List.mem_map_of_mem hObject) _ (List.mem_map_of_mem hDeclared)
  · intro hApart
    refine ⟨hObjects, hEnums, ?_⟩
    intro name hName other hOther
    obtain ⟨object, hObject, rfl⟩ := List.mem_map.mp hName
    obtain ⟨declared, hDeclared, rfl⟩ := List.mem_map.mp hOther
    exact hApart object hObject declared hDeclared

/-- **No name is declared twice.** In a file that is rendered for a comm, the declared names are
pairwise distinct exactly if the names in the contracts are apart. -/
theorem declared_nodup_iff {target : Target} {comm : Comm} {text : String}
    (h : target.render comm = .ok text) :
    (target.declared comm).Nodup ↔ target.NamesApart comm := by
  have hOk : Function.Injective (Except.ok : String → Except Fault String) := by
    intro name name' hSame
    exact Except.ok.inj hSame
  rw [declared_eq, List.nodup_append, List.nodup_map_iff hOk, List.nodup_append,
    List.nodup_map_iff coined_name_injective, nodeNames_nodup h, coined_nodup]
  constructor
  · rintro ⟨hAliases, ⟨hNodes, ⟨hRecords, hMessages⟩, hCoined⟩, hOthers⟩
    refine ⟨hAliases, fun entry hEntry name hName => ?_, hNodes, fun name hName coined hMem => ?_,
      hRecords, hMessages⟩
    · exact hOthers _ (List.mem_map_of_mem hEntry) _ (List.mem_map_of_mem hName)
    · exact hCoined name hName _ (List.mem_map_of_mem hMem)
  · rintro ⟨hAliases, hOthers, hNodes, hCoined, hRecords, hMessages⟩
    refine ⟨hAliases, ⟨hNodes, ⟨hRecords, hMessages⟩, fun name hName other hMem => ?_⟩,
      fun first hFirst other hMem => ?_⟩
    · obtain ⟨coined, hCoin, rfl⟩ := List.mem_map.mp hMem
      exact hCoined name hName coined hCoin
    · obtain ⟨entry, hEntry, rfl⟩ := List.mem_map.mp hFirst
      obtain ⟨name, hName, rfl⟩ := List.mem_map.mp hMem
      exact hOthers entry hEntry name hName

/-- A contract that shares a text under a key, with one method that has it as its result. -/
def sharesText (direction : Direction) (source method key : String) : Contract :=
  let shared : Value := .mapping [(.text key, .mapping [] none)] none
  { direction
    source
    methods := [⟨method, "About " ++ key, none, [],
      some (.reference ("#/components/schemas/" ++ key) none)⟩]
    schemas := [(.text key, .primitive .string none)]
    document := [(.text "components", .mapping [(.text "schemas", shared)] none)] }

/-- A comm of two contracts that each share a text. -/
def sharedTexts (backendKey frontendKey : String) : Comm where
  name := "shop"
  backend := some (sharesText .backend "shop-backend-openrpc.json" "find" backendKey)
  frontend := some (sharesText .frontend "shop-frontend-openrpc.json" "found" frontendKey)
  hasContract := rfl

theorem sharedTexts_namesApart :
    ∃ text, Target.python.render (sharedTexts "item_id" "item") = .ok text ∧
      Target.python.NamesApart (sharedTexts "item_id" "item") := by
  cases hRender : Target.python.render (sharedTexts "item_id" "item") with
  | error fault =>
      have hOk : (Target.python.render (sharedTexts "item_id" "item")).isOk = true := by
        decide +kernel
      rw [hRender] at hOk
      cases hOk
  | ok text =>
      refine ⟨text, rfl, (declared_nodup_iff hRender).mp ?_⟩
      decide +kernel

/-- Two contracts that share a text under one key. -/
theorem itemId_twice :
    validate (sharedTexts "item_id" "item_id") = .ok [] ∧
      ∀ target : Target, (target.render (sharedTexts "item_id" "item_id")).isOk = true ∧
        ¬ (target.declared (sharedTexts "item_id" "item_id")).Nodup := by
  constructor
  · decide +kernel
  · intro target
    cases target with
    | typeScript => decide +kernel
    | rust => decide +kernel
    | python => decide +kernel

end CommBindings
