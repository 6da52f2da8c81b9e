import CommBindings.Proofs.Target.Outline
import CommBindings.Target.Basic

set_option autoImplicit false

/-! # The names and the types in a file

Each section of a file declares some types and uses types in its declarations. Both are read off
the declarations that are printed. In a file that is rendered, all sections could be printed, and so
all objects and enumerations could be declared (`objects_ok`, `enums_ok`).
-/

namespace CommBindings

/-- A type that is used by its name. -/
def usedName (name : String) : Except Fault TypeExpr := .ok (.named name)

namespace TypeScript

/-- The types of the properties. -/
def Interface.types (interface : Interface) : List Derived := interface.fields.map Field.type

/-- The name that is declared for an object. -/
def ObjectType.name : ObjectType → Except Fault String
  | record interface => .ok interface.name
  | any declared => declared.name

/-- The types in the declaration of an object. -/
def ObjectType.types : ObjectType → List Derived
  | record interface => interface.types
  | any declared => [declared.type]

/-- The types in the two unions. One without variants has no values. -/
def Unions.types (unions : Unions) : List Derived :=
  (if unions.requests.isEmpty then [.ok (.token "never")]
    else unions.requests.flatMap fun request => request.params.toList.map usedName) ++
  if unions.replies.isEmpty then [.ok (.token "never")] else unions.replies.map Reply.result

/-- The types in the client class. -/
def Client.types (client : Client) : List Derived :=
  (client.calls.flatMap fun call => call.parameters.map Parameter.type ++ [call.result]) ++
    client.events.map fun event => usedName event.type

variable (comm : Comm)

/-- The names of the types that a section declares. -/
def declaredIn : Section → List (Except Fault String)
  | .header => []
  | .aliases => comm.aliases.map fun entry => (aliasOf comm entry).name
  | .objects => comm.objects.items.map fun object => (objectOf comm object).name
  | .enums => comm.enums.items.map fun declared => .ok (enumOf declared).name
  | .paramRecords => comm.methodsWithParams.map fun method => .ok (paramsOf comm method).name
  | .backendUnions => [.ok (unions comm).requestName, .ok (unions comm).replyName]
  | .frontendEvents =>
    (comm.frontendMethods.map fun method => .ok (eventOf comm method).name) ++
      [.ok (eventNames comm).name]
  | .client => [.ok (client comm).name]

/-- The types that the declarations of a section use. -/
def typesIn : Section → List Derived
  | .header => []
  | .aliases => comm.aliases.map fun entry => (aliasOf comm entry).type
  | .objects => comm.objects.items.flatMap fun object => (objectOf comm object).types
  | .enums => []
  | .paramRecords => comm.methodsWithParams.flatMap fun method => (paramsOf comm method).types
  | .backendUnions => (unions comm).types
  | .frontendEvents => comm.frontendMethods.flatMap fun method => (eventOf comm method).types
  | .client => (client comm).types

end TypeScript

namespace Rust

/-- The types of the fields. -/
def Struct.types (struct : Struct) : List Derived := struct.fields.map Field.type

/-- The name that is declared for an object. -/
def ObjectType.name : ObjectType → Except Fault String
  | record struct => .ok struct.name
  | any declared => declared.name

/-- The types in the declaration of an object. -/
def ObjectType.types : ObjectType → List Derived
  | record struct => struct.types
  | any declared => [declared.type]

/-- The types that messages carry. -/
def Messages.types (messages : Messages) : List Derived :=
  messages.messages.flatMap fun message => message.payload.toList.map usedName

/-- The types in the handler trait. -/
def Trait.types (handlerTrait : Trait) : List Derived :=
  handlerTrait.handlers.flatMap fun handler =>
    handler.params.toList.map usedName ++ [handler.result]

/-- The types in the head of the function that hands requests to their handlers. -/
def Dispatch.types (dispatch : Dispatch) : List Derived :=
  [usedName dispatch.handlerTrait, usedName dispatch.requestType, usedName dispatch.replyType]

variable (comm : Comm)

/-- The names of the types that a section declares. -/
def declaredIn : Section → List (Except Fault String)
  | .header => []
  | .aliases => comm.aliases.map fun entry => (aliasOf comm entry).name
  | .objects => comm.objects.items.map fun object => (objectOf comm object).name
  | .enums => comm.enums.items.map fun declared => .ok (enumOf declared).name
  | .paramRecords => comm.methodsWithParams.map fun method => .ok (paramsOf comm method).name
  | .backendUnions => [.ok (requests comm).name, .ok (replies comm).name]
  | .frontendEvents => [.ok (events comm).name]
  | .client => if comm.backend.isSome then [.ok (handler comm).name] else []

/-- The types that the declarations of a section use. -/
def typesIn : Section → List Derived
  | .header => []
  | .aliases => comm.aliases.map fun entry => (aliasOf comm entry).type
  | .objects => comm.objects.items.flatMap fun object => (objectOf comm object).types
  | .enums => []
  | .paramRecords => comm.methodsWithParams.flatMap fun method => (paramsOf comm method).types
  | .backendUnions => (requests comm).types ++ (replies comm).replies.map Reply.payload
  | .frontendEvents => (events comm).types
  | .client => if comm.backend.isSome then (handler comm).types ++ (dispatch comm).types else []

end Rust

namespace Python

/-- The types of the attributes. -/
def Record.types (record : Record) : List Derived := record.fields.map Field.type

/-- The name that is declared for an object. -/
def ObjectType.name : ObjectType → Except Fault String
  | dataClass record => .ok record.name
  | any declared => declared.name

/-- The types in the declaration of an object. -/
def ObjectType.types : ObjectType → List Derived
  | dataClass record => record.types
  | any declared => [declared.type]

/-- The types of the attributes of a request. -/
def Request.types (request : Request) : List Derived :=
  request.params.toList.map Field.type ++ [usedName request.tagEnum]

/-- The types in a choice of classes. One without classes has no values. -/
def Choice.types (choice : Choice) : List Derived :=
  if choice.members.isEmpty then [.ok (.token "NoReturn")] else choice.members.map usedName

/-- The types in the messages to and from the backend. -/
def Messages.types (messages : Messages) : List Derived :=
  messages.requests.flatMap Request.types ++
    (messages.replies.map fun reply => reply.result.type) ++
    messages.requestChoice.types ++ messages.replyChoice.types

/-- The types in the handler protocol. -/
def Protocol.types (protocol : Protocol) : List Derived :=
  protocol.handlers.flatMap fun handler => handler.params.toList.map usedName ++ [handler.result]

/-- The types in the head of the function that hands requests to their handlers. -/
def Dispatch.types (dispatch : Dispatch) : List Derived :=
  [usedName dispatch.handlerType, usedName dispatch.requestType, usedName dispatch.replyType]

variable (comm : Comm)

/-- The names of the types that a section declares. -/
def declaredIn : Section → List (Except Fault String)
  | .header => []
  | .aliases => comm.aliases.map fun entry => (aliasOf comm entry).name
  | .objects => comm.objects.items.map fun object => (objectOf comm object).name
  | .enums => comm.enums.items.map fun declared => .ok (enumOf declared).name
  | .paramRecords => comm.methodsWithParams.map fun method => .ok (paramsOf comm method).name
  | .backendUnions =>
    .ok (messages comm).tags.name ::
      ((messages comm).requests.map fun request => .ok request.name) ++
      ((messages comm).replies.map fun reply => .ok reply.name) ++
      [.ok (messages comm).requestChoice.name, .ok (messages comm).replyChoice.name]
  | .frontendEvents => [.ok (eventNames comm).name]
  | .client => if comm.backend.isSome then [.ok (handler comm).name] else []

/-- The types that the declarations of a section use. -/
def typesIn : Section → List Derived
  | .header => []
  | .aliases => comm.aliases.map fun entry => (aliasOf comm entry).type
  | .objects => comm.objects.items.flatMap fun object => (objectOf comm object).types
  | .enums => []
  | .paramRecords => comm.methodsWithParams.flatMap fun method => (paramsOf comm method).types
  | .backendUnions => (messages comm).types
  | .frontendEvents => []
  | .client =>
    if comm.backend.isSome then
      (handler comm).types ++ (dispatch comm).types ++ [usedName (parseRequest comm).requestType]
    else []

end Python

namespace Target

/-- The names of the types that a section of a file declares. -/
def declaredIn (target : Target) (comm : Comm) : Section → List (Except Fault String) :=
  match target with
  | typeScript => TypeScript.declaredIn comm
  | rust => Rust.declaredIn comm
  | python => Python.declaredIn comm

/-- The types that the declarations in a section of a file use. -/
def typesIn (target : Target) (comm : Comm) : Section → List (Except Fault TypeExpr) :=
  match target with
  | typeScript => TypeScript.typesIn comm
  | rust => Rust.typesIn comm
  | python => Python.typesIn comm

/-- The names of all types that a file declares, in their order. -/
def declared (target : Target) (comm : Comm) : List (Except Fault String) :=
  comm.sections.flatMap (target.declaredIn comm)

/-- All types that a file uses, in their order. -/
def types (target : Target) (comm : Comm) : List (Except Fault TypeExpr) :=
  comm.sections.flatMap (target.typesIn comm)

end Target

/-! ## In a file that is rendered -/

variable {target : Target} {comm : Comm} {text : String}

theorem section_ok (h : target.render comm = .ok text) {part : Section}
    (hPart : part ∈ comm.sections) : (target.printSection comm part).outcome = .ok () := by
  obtain ⟨fragments, hPrint, -⟩ := map_eq_ok.mp h
  exact Emission.forAll_ok.mp (Emission.toItems_ok.mp hPrint).1 part hPart

theorem mem_sections {part : Section}
    (h : part ∈ [Section.header, .aliases, .objects, .enums, .paramRecords]) :
    part ∈ comm.sections := by
  rw [Comm.sections, List.append_assoc, List.append_assoc]
  exact List.mem_append_left _ h

theorem client_mem_sections (comm : Comm) : Section.client ∈ comm.sections :=
  List.mem_append_right _ List.mem_cons_self

theorem objects_ok (h : target.render comm = .ok text) : comm.objects.outcome = .ok () := by
  have hSection := section_ok h (mem_sections (by decide : Section.objects ∈ _))
  cases target with
  | typeScript => exact (Emission.flatMap_ok.mp hSection).2
  | rust => exact (Emission.flatMap_ok.mp hSection).2
  | python => exact (Emission.flatMap_ok.mp hSection).2

theorem enums_ok (h : target.render comm = .ok text) : comm.enums.outcome = .ok () := by
  have hSection := section_ok h (mem_sections (by decide : Section.enums ∈ _))
  cases target with
  | typeScript => exact (Emission.flatMap_ok.mp hSection).2
  | rust => exact (Emission.flatMap_ok.mp hSection).2
  | python => exact (Emission.flatMap_ok.mp hSection).2

/-! ## What all targets declare -/

theorem declaredIn_aliases (target : Target) (comm : Comm) :
    target.declaredIn comm .aliases = comm.aliases.map fun entry => entry.1.typeName := by
  cases target <;> rfl

theorem declaredIn_objects (target : Target) (comm : Comm) :
    target.declaredIn comm .objects =
      comm.objects.items.map fun object => .ok object.name := by
  have hTypeScript : ∀ object, (TypeScript.objectOf comm object).name = .ok object.name := by
    intro object
    unfold TypeScript.objectOf
    split <;> rfl
  have hRust : ∀ object, (Rust.objectOf comm object).name = .ok object.name := by
    intro object
    unfold Rust.objectOf
    split <;> rfl
  have hPython : ∀ object, (Python.objectOf comm object).name = .ok object.name := by
    intro object
    unfold Python.objectOf
    split <;> rfl
  cases target with
  | typeScript => exact List.map_congr_left fun object _ => hTypeScript object
  | rust => exact List.map_congr_left fun object _ => hRust object
  | python => exact List.map_congr_left fun object _ => hPython object

theorem declaredIn_enums (target : Target) (comm : Comm) :
    target.declaredIn comm .enums =
      comm.enums.items.map fun declared => .ok declared.name := by
  cases target <;> rfl

theorem declaredIn_paramRecords (target : Target) (comm : Comm) :
    target.declaredIn comm .paramRecords =
      comm.methodsWithParams.map fun method => .ok (Naming.paramsName method.name) := by
  cases target <;> rfl

end CommBindings
