import CommBindings.Proofs.MeetingNames
import CommBindings.Proofs.Target.Agreement
import CommBindings.Proofs.Target.Messages

set_option autoImplicit false

/-! # The entries of declarations

Records, enumerations, message types and parameter lists have an entry for each of some names in the
contracts, with an identifier that is made from the name. Contracts keep their names apart, but nothing
keeps the identifiers apart: those of two entries are the same exactly if the names meet in the way in
which the identifiers are made (`entries_toldApart`).
-/

namespace CommBindings

open Naming

/-- Each of the names has an identifier, in order, and two identifiers are the same exactly if the
names meet. -/
structure ToldApart (Meet : String → String → Prop) (names identifiers : List String) : Prop where
  each : identifiers.length = names.length
  apart : ∀ first ∈ names.zip identifiers, ∀ second ∈ names.zip identifiers,
    first.2 = second.2 ↔ Meet first.1 second.1

theorem own_of_mem_zip {identifier : String → String} {names : List String} {entry : String × String}
    (h : entry ∈ names.zip (names.map identifier)) : entry.2 = identifier entry.1 := by
  induction names with
  | nil => exact absurd h List.not_mem_nil
  | cons name rest ih =>
      rw [List.map_cons, List.zip_cons_cons] at h
      rcases List.mem_cons.mp h with rfl | h
      · rfl
      · exact ih h

theorem toldApart_map {Meet : String → String → Prop} {identifier : String → String}
    (h : ∀ {a b}, identifier a = identifier b ↔ Meet a b) (names : List String) :
    ToldApart Meet names (names.map identifier) where
  each := List.length_map _
  apart := by
    intro first hFirst second hSecond
    rw [own_of_mem_zip hFirst, own_of_mem_zip hSecond]
    exact h

theorem toldApart_of_eq {Meet : String → String → Prop} {identifier : String → String}
    (h : ∀ {a b}, identifier a = identifier b ↔ Meet a b) {names identifiers : List String}
    (hNames : identifiers = names.map identifier) : ToldApart Meet names identifiers := by
  rw [hNames]
  exact toldApart_map h names

/-- An ending that all names in Pascal case have does not keep them apart. -/
theorem ended_eq_iff (ending : String) {a b : String} :
    pascalCase a ++ ending = pascalCase b ++ ending ↔ PascalMeet a b :=
  (append_right_injective ending).eq_iff.trans pascalCase_eq_iff

/-- The names of methods that have a message of a kind. -/
def Comm.methodNames (comm : Comm) (kind : MessageKind) : List String :=
  (comm.methodsWith kind).map Method.name

/-- The names of entries that are made one by one. -/
theorem names_entries {α β : Type} {entry : α → β} {nameOf : β → String} {own : α → String}
    (identifier : String → String) (h : ∀ a, nameOf (entry a) = identifier (own a)) (as : List α) :
    (as.map entry).map nameOf = (as.map own).map identifier := by
  rw [List.map_map, List.map_map]
  exact List.map_congr_left fun a _ => h a

/-- The replies of methods are made from those that have a result. -/
theorem names_replies {ρ : Type} {nameOf : ρ → String} {reply : Method → Schema → ρ}
    (identifier : String → String)
    (h : ∀ method result, nameOf (reply method result) = identifier method.name)
    (methods : List Method) :
    (methods.filterMap fun method => method.reply?.map (reply method)).map nameOf =
      ((methods.filter Method.hasResult).map Method.name).map identifier := by
  induction methods with
  | nil => rfl
  | cons method rest ih =>
      rw [List.filterMap_cons, List.filter_cons, Method.hasResult]
      cases method.reply? with
      | none => exact ih
      | some result =>
          rw [Option.map_some, Option.isSome_some, if_pos rfl, List.map_cons, List.map_cons,
            List.map_cons, h, ih]

/-- What is formed for properties whose keys are texts. -/
theorem map_of_keys {α β : Type} {properties : List (Key × α)} {names : List String}
    (hNames : properties.map Prod.fst = names.map .text) {part : Key × α → β} {result : String → β}
    (h : ∀ name value, part (.text name, value) = result name) :
    properties.map part = names.map result := by
  -- along the properties, each with the name that its key spells
  induction properties generalizing names with
  | nil =>
      rw [List.map_nil] at hNames
      rw [List.map_eq_nil_iff.mp hNames.symm]
      rfl
  | cons property rest ih =>
      cases names with
      | nil => cases hNames
      | cons name others =>
          obtain ⟨key, value⟩ := property
          obtain ⟨hKey, hRest⟩ := List.cons.inj hNames
          obtain rfl : key = .text name := hKey
          rw [List.map_cons, List.map_cons, h, ih hRest]

/-! ## Rust -/

namespace Rust

/-- The identifiers of the fields, as far as they can be formed. -/
def Struct.identifiers (struct : Struct) : List (Except Fault String) :=
  struct.fields.map fun field => field.name.map FieldName.identifier

variable {comm : Comm}

theorem identifiers_objectOf {object : ObjectDeclaration} {struct : Struct} {names : List String}
    (hStruct : objectOf comm object = .record struct)
    (hNames : object.node.properties.map Prod.fst = names.map .text) :
    struct.identifiers = (names.map rustField).map .ok := by
  unfold objectOf at hStruct
  split at hStruct
  · cases hStruct
  · cases hStruct
    rw [Struct.identifiers, List.map_map, List.map_map]
    exact map_of_keys hNames fun _ _ => rfl

theorem identifiers_paramsOf (method : Method) : (paramsOf comm method).identifiers =
    ((method.params.map Param.name).map rustField).map .ok := by
  rw [List.map_map, List.map_map]
  exact List.map_map.trans (List.map_congr_left fun _ _ => rfl)

/-- How the entries of the declarations in Rust are told apart. -/
structure EntriesApart (comm : Comm) : Prop where
  objects : ∀ object ∈ comm.objects.items, ∀ struct names, objectOf comm object = .record struct →
    object.node.properties.map Prod.fst = names.map .text →
      ∃ identifiers : List String, struct.identifiers = identifiers.map .ok ∧
        ToldApart RustFieldsMeet names identifiers
  params : ∀ method ∈ comm.methodsWithParams, ∃ identifiers : List String,
    (paramsOf comm method).identifiers = identifiers.map .ok ∧
      ToldApart RustFieldsMeet (method.params.map Param.name) identifiers
  enums : ∀ declared ∈ comm.enums.items,
    ToldApart MembersMeet declared.values ((enumOf declared).variants.map Variant.name)
  requests : ToldApart PascalMeet (comm.methodNames .request)
    ((requests comm).messages.map Message.name)
  replies : ToldApart PascalMeet (comm.methodNames .reply) ((replies comm).replies.map Reply.name)
  events : ToldApart PascalMeet (comm.methodNames .event) ((events comm).messages.map Message.name)

theorem names_variants (declared : EnumDeclaration) :
    (enumOf declared).variants.map Variant.name = declared.values.map enumMember :=
  List.map_map.trans (List.map_congr_left fun _ _ => rfl)

theorem names_requestVariants (comm : Comm) : (requests comm).messages.map Message.name =
    (comm.methodNames .request).map pascalCase :=
  names_entries pascalCase (fun _ => by rfl) comm.backendMethods

theorem names_replyVariants (comm : Comm) : (replies comm).replies.map Reply.name =
    (comm.methodNames .reply).map fun name => pascalCase name ++ "Reply" :=
  names_replies (fun name => pascalCase name ++ "Reply") (fun _ _ => by rfl) comm.backendMethods

theorem names_eventVariants (comm : Comm) : (events comm).messages.map Message.name =
    (comm.methodNames .event).map pascalCase :=
  names_entries pascalCase (fun _ => by rfl) comm.frontendMethods

theorem entriesApart (comm : Comm) : EntriesApart comm where
  objects := by
    intro object _ struct names hStruct hNames
    exact ⟨_, identifiers_objectOf hStruct hNames, toldApart_map rustField_eq_iff names⟩
  params := by
    intro method _
    exact ⟨_, identifiers_paramsOf method, toldApart_map rustField_eq_iff _⟩
  enums := fun declared _ => toldApart_of_eq enumMember_eq_iff (names_variants declared)
  requests := toldApart_of_eq pascalCase_eq_iff (names_requestVariants comm)
  replies := toldApart_of_eq (ended_eq_iff "Reply") (names_replyVariants comm)
  events := toldApart_of_eq pascalCase_eq_iff (names_eventVariants comm)

end Rust

/-! ## Python -/

namespace Python

/-- The identifiers of the attributes, as far as they can be formed. -/
def Record.identifiers (record : Record) : List (Except Fault String) :=
  record.fields.map fun field => field.name.map FieldName.identifier

variable {comm : Comm}

theorem identifiers_objectOf {object : ObjectDeclaration} {record : Record} {names : List String}
    (hRecord : objectOf comm object = .dataClass record)
    (hNames : object.node.properties.map Prod.fst = names.map .text) :
    record.identifiers = (names.map pythonField).map .ok := by
  unfold objectOf at hRecord
  split at hRecord
  · cases hRecord
  · cases hRecord
    rw [Record.identifiers, List.map_map, List.map_map]
    exact map_of_keys hNames fun _ _ => rfl

theorem identifiers_paramsOf (method : Method) : (paramsOf comm method).identifiers =
    ((method.params.map Param.name).map pythonField).map .ok := by
  rw [List.map_map, List.map_map]
  exact List.map_map.trans (List.map_congr_left fun _ _ => rfl)

/-- How the entries of the declarations in Python are told apart. -/
structure EntriesApart (comm : Comm) : Prop where
  objects : ∀ object ∈ comm.objects.items, ∀ record names, objectOf comm object = .dataClass record →
    object.node.properties.map Prod.fst = names.map .text →
      ∃ identifiers : List String, record.identifiers = identifiers.map .ok ∧
        ToldApart PythonFieldsMeet names identifiers
  params : ∀ method ∈ comm.methodsWithParams, ∃ identifiers : List String,
    (paramsOf comm method).identifiers = identifiers.map .ok ∧
      ToldApart PythonFieldsMeet (method.params.map Param.name) identifiers
  enums : ∀ declared ∈ comm.enums.items,
    ToldApart MembersMeet declared.values ((enumOf declared).members.map Member.name)
  tags : ToldApart PascalMeet (comm.methodNames .request)
    ((messages comm).tags.members.map Member.name)
  requests : ToldApart PascalMeet (comm.methodNames .request) (messages comm).requestChoice.members
  replies : ToldApart PascalMeet (comm.methodNames .reply) (messages comm).replyChoice.members
  events : ToldApart PascalMeet (comm.methodNames .event)
    ((eventNames comm).members.map Member.name)

theorem names_enumMembers (declared : EnumDeclaration) :
    (enumOf declared).members.map Member.name = declared.values.map enumMember :=
  List.map_map.trans (List.map_congr_left fun _ _ => rfl)

theorem names_tags (comm : Comm) : (messages comm).tags.members.map Member.name =
    (comm.methodNames .request).map pascalCase :=
  names_entries pascalCase (fun _ => by rfl) comm.backendMethods

theorem names_events (comm : Comm) : (eventNames comm).members.map Member.name =
    (comm.methodNames .event).map pascalCase :=
  names_entries pascalCase (fun _ => by rfl) comm.frontendMethods

theorem names_requestChoice (comm : Comm) : (messages comm).requestChoice.members =
    (comm.methodNames .request).map fun name => pascalCase name ++ "Request" := by
  rw [Comm.methodNames, List.map_map]
  exact List.map_congr_left fun _ _ => rfl

theorem names_replyChoice (comm : Comm) : (messages comm).replyChoice.members =
    (comm.methodNames .reply).map fun name => pascalCase name ++ "Reply" := by
  rw [Comm.methodNames, List.map_map]
  exact List.map_congr_left fun _ _ => rfl

theorem entriesApart (comm : Comm) : EntriesApart comm where
  objects := by
    intro object _ record names hRecord hNames
    exact ⟨_, identifiers_objectOf hRecord hNames, toldApart_map pythonField_eq_iff names⟩
  params := by
    intro method _
    exact ⟨_, identifiers_paramsOf method, toldApart_map pythonField_eq_iff _⟩
  enums := fun declared _ => toldApart_of_eq enumMember_eq_iff (names_enumMembers declared)
  tags := toldApart_of_eq pascalCase_eq_iff (names_tags comm)
  requests := toldApart_of_eq (ended_eq_iff "Request") (names_requestChoice comm)
  replies := toldApart_of_eq (ended_eq_iff "Reply") (names_replyChoice comm)
  events := toldApart_of_eq pascalCase_eq_iff (names_events comm)

end Python

/-! ## TypeScript -/

namespace TypeScript

variable {comm : Comm}

theorem names_parameters (method : Method) (params : List Param) :
    (parametersOf comm method params).map Parameter.name =
      (params.map Param.name).map camelCase := by
  induction params with
  | nil => rfl
  | cons param rest ih => rw [parametersOf, List.map_cons, List.map_cons, List.map_cons, ih]

/-- How the entries of the declarations in TypeScript are told apart. Requests and replies bear the names
of their methods as they are. -/
structure EntriesApart (comm : Comm) : Prop where
  enums : ∀ declared ∈ comm.enums.items,
    ToldApart MembersMeet declared.values ((enumOf declared).members.map Member.name)
  requests : ToldApart Eq (comm.methodNames .request) ((unions comm).requests.map Request.method)
  replies : ToldApart Eq (comm.methodNames .reply) ((unions comm).replies.map Reply.method)
  events : ToldApart PascalMeet (comm.methodNames .event)
    ((eventNames comm).members.map Member.name)
  arguments : ∀ method ∈ comm.backendMethods,
    ToldApart CamelMeet (method.params.map Param.name)
      ((callOf comm method).parameters.map Parameter.name) ∧
    ToldApart CamelMeet (method.params.map Param.name) (callOf comm method).arguments

theorem names_enumMembers (declared : EnumDeclaration) :
    (enumOf declared).members.map Member.name = declared.values.map enumMember :=
  List.map_map.trans (List.map_congr_left fun _ _ => rfl)

theorem names_events (comm : Comm) : (eventNames comm).members.map Member.name =
    (comm.methodNames .event).map pascalCase :=
  names_entries pascalCase (fun _ => by rfl) comm.frontendMethods

theorem names_requests (comm : Comm) :
    (unions comm).requests.map Request.method = (comm.methodNames .request).map id :=
  names_entries id (fun _ => by rfl) comm.backendMethods

theorem names_unionReplies (comm : Comm) :
    (unions comm).replies.map Reply.method = (comm.methodNames .reply).map id :=
  names_entries id (fun _ => by rfl) (comm.methodsWith .reply)

theorem names_arguments (method : Method) :
    (callOf comm method).arguments = (method.params.map Param.name).map camelCase := by
  rw [List.map_map]
  exact List.map_congr_left fun _ _ => rfl

theorem entriesApart (comm : Comm) : EntriesApart comm where
  enums := fun declared _ => toldApart_of_eq enumMember_eq_iff (names_enumMembers declared)
  requests := toldApart_of_eq Iff.rfl (names_requests comm)
  replies := toldApart_of_eq Iff.rfl (names_unionReplies comm)
  events := toldApart_of_eq pascalCase_eq_iff (names_events comm)
  arguments := by
    intro method _
    exact ⟨toldApart_of_eq camelCase_eq_iff (names_parameters method method.params),
      toldApart_of_eq camelCase_eq_iff (names_arguments method)⟩

end TypeScript

/-- **Entries are told apart by names that do not meet.** In each declaration of each target, there is
an identifier for each name, and two of them are the same exactly if the names meet in the way in which
the identifiers are made. -/
theorem entries_toldApart (comm : Comm) :
    TypeScript.EntriesApart comm ∧ Rust.EntriesApart comm ∧ Python.EntriesApart comm :=
  ⟨TypeScript.entriesApart comm, Rust.entriesApart comm, Python.entriesApart comm⟩

/-- A method whose parameters and values meet, each in a way of its own. -/
def getItem : Method where
  name := "get_item"
  summary := "Get an item"
  description := none
  params := [⟨"item-id", "Its number", .primitive .integer none, true⟩,
    ⟨"item_id", "Its number", .primitive .integer none, true⟩,
    ⟨"itemId", "Its number", .primitive .integer none, true⟩,
    ⟨"mode", "Its mode", .enumeration ["on", "On"] none, true⟩]
  result := none

/-- A comm with the method and another one that meets it. -/
def itemComm : Comm where
  name := "shop"
  backend := some
    { direction := .backend
      source := "shop-backend-openrpc.json"
      methods := [getItem, ⟨"getItem", "Get it", none, [], none⟩]
      schemas := []
      document := [] }
  frontend := none
  hasContract := rfl

/-- Names that meet are accepted without a warning: the comm has different names throughout, and in
each declaration two of them have one identifier. -/
theorem itemComm_notApart :
    validate itemComm = .ok [] ∧
      (getItem.params.map Param.name).Nodup ∧ (itemComm.methodNames .request).Nodup ∧
      (Rust.paramsOf itemComm getItem).identifiers =
        [.ok "item_id", .ok "item_id", .ok "itemId", .ok "mode"] ∧
      (Python.paramsOf itemComm getItem).identifiers =
        [.ok "item_id", .ok "item_id", .ok "itemId", .ok "mode"] ∧
      (TypeScript.callOf itemComm getItem).arguments = ["item-id", "itemId", "itemId", "mode"] ∧
      (Rust.requests itemComm).messages.map Rust.Message.name = ["GetItem", "GetItem"] ∧
      ∀ target : Target, (target.declarationsIn itemComm .enums).map Declaration.signature =
        [.ok (.enumeration "GetItemMode" [("On", "on"), ("On", "On")])] := by
  refine ⟨by decide +kernel, by decide, by decide, ?_, ?_, by decide, by decide +kernel, ?_⟩
  · decide +kernel
  · decide +kernel
  · intro target
    cases target <;> decide +kernel

end CommBindings
