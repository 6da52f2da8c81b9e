import CommBindings.Contract.Typing
import CommBindings.Emission
import CommBindings.Text.Brace
import CommBindings.Text.Comment
import CommBindings.Text.Quoted

set_option autoImplicit false

/-! # TypeScript declarations

The declarations that make up a TypeScript binding, and their text. A name or a type that could
not be formed is kept as its fault; the text ends where such a part would stand.
-/

namespace CommBindings.TypeScript

open CommBindings.Text

/-- A type, or why there is none. -/
abbrev Derived := Except Fault TypeExpr

/-- A documented property of an interface. -/
structure Field where
  doc : String
  key : Key
  isOptional : Bool
  type : Derived

/-- An exported interface. -/
structure Interface where
  doc : String
  name : String
  fields : List Field

/-- An exported name for a type. -/
structure Alias where
  doc : Option String
  name : Except Fault String
  type : Derived

/-- A member of an enumeration and the text that it stands for. -/
structure Member where
  name : String
  value : String

/-- An exported enumeration. -/
structure Enumeration where
  doc : String
  name : String
  members : List Member

/-- The declaration of an object: an interface, or a name for arbitrary values. -/
inductive ObjectType where
  | record (interface : Interface)
  | any (declared : Alias)

/-- One kind of request, with the type of its parameters if it has any. -/
structure Request where
  method : String
  params : Option String

/-- One kind of reply. -/
structure Reply where
  method : String
  result : Derived

/-- The two unions of the messages to and from the backend. -/
structure Unions where
  requestDoc : String
  requestName : String
  requests : List Request
  replyDoc : String
  replyName : String
  replies : List Reply

/-- How a parameter may be left out: not at all, by passing fewer arguments, or by passing
`undefined` because a later parameter must be passed. -/
inductive Presence where
  | required
  | optional
  | orUndefined
  deriving Repr, DecidableEq

/-- A parameter of a client method. -/
structure Parameter where
  name : String
  presence : Presence
  type : Derived

/-- What is said of a client method. -/
structure MethodDoc where
  summary : String
  description : Option String
  params : List (String × String)
  returns : Option String

/-- A client method that sends a request. -/
structure Call where
  doc : MethodDoc
  name : String
  parameters : List Parameter
  result : Derived
  method : String
  wireNames : List String
  arguments : List String

/-- A client member that announces an event. -/
structure EventSource where
  doc : String
  name : String
  type : String
  method : String
  wireNames : List String

/-- The client class. -/
structure Client where
  doc : String
  name : String
  calls : List Call
  events : List EventSource

/-- A block comment at an indent. -/
def docComment (indent text : String) : String :=
  indent ++ "/**\n" ++ comment (indent ++ " * ") text ++ indent ++ " */\n"

/-- The start of a line that exports a declaration of some sort. -/
def exported (sort name : String) : String := "export " ++ sort ++ " " ++ name

/-- Texts between brackets. -/
def bracketed (texts : List String) : String := "[" ++ ", ".intercalate texts ++ "]"

/-- The text of a property. -/
def Field.print (field : Field) : Emission String Unit := do
  .emit (docComment "\t" field.doc)
  let key ← Emission.require field.key.label
  let type ← Emission.require field.type
  .emit ("\t" ++ key ++ (if field.isOptional then "?" else "") ++ ": " ++ type.text ++ ";\n\n")

/-- The text of an interface. -/
def Interface.print (interface : Interface) : Emission String Unit := do
  .emit (docComment "" interface.doc)
  .emit (exported "interface" interface.name ++ blockStart)
  Emission.forAll interface.fields Field.print
  .emit (closeBrace ++ "\n\n")

/-- The text of a name for a type. -/
def Alias.print (declared : Alias) : Emission String Unit := do
  match declared.doc with
  | some doc => .emit (docComment "" doc)
  | none => .result ()
  let name ← Emission.require declared.name
  let type ← Emission.require declared.type
  .emit (exported "type" name ++ " = " ++ type.text ++ ";\n\n")

/-- The text of a member of an enumeration. -/
def Member.text (member : Member) : String :=
  "\t" ++ member.name ++ " = " ++ Quoted.single member.value

/-- The text of an enumeration. -/
def Enumeration.print (enumeration : Enumeration) : Emission String Unit := do
  .emit (docComment "" enumeration.doc)
  .emit (exported "enum" enumeration.name ++ blockStart)
  .emit (",\n".intercalate (enumeration.members.map Member.text))
  .emit ("\n" ++ closeBrace ++ "\n\n")

/-- The text of the declaration of an object. -/
def ObjectType.print : ObjectType → Emission String Unit
  | record interface => interface.print
  | any declared => declared.print

/-- The text of a kind of request. -/
def Request.text (request : Request) : String :=
  let method := "method: " ++ Quoted.single request.method
  let params := (request.params.map fun type => "; params: " ++ type).getD ""
  "\t| " ++ braced (method ++ params)

/-- The text of a kind of reply. -/
def Reply.text (reply : Reply) : Except Fault String := do
  let result ← reply.result
  pure ("\t| " ++ braced ("method: " ++ Quoted.single reply.method ++ "; result: " ++ result.text))

/-- The text of a union, which has no values if it has no variants. -/
def printUnion (doc name : String) (variants : List String) : Emission String Unit := do
  .emit (docComment "" doc)
  .emit (exported "type" name ++ " =\n")
  .emit (if variants.isEmpty then "\tnever" else "\n".intercalate variants)
  .emit ";\n\n"

/-- The text of the unions of messages. The types of all replies are formed before the reply union
is begun. -/
def Unions.print (unions : Unions) : Emission String Unit := do
  printUnion unions.requestDoc unions.requestName (unions.requests.map Request.text)
  let replies ← Emission.require (unions.replies.mapM Reply.text)
  printUnion unions.replyDoc unions.replyName replies

/-- The text of a parameter. -/
def Parameter.text (parameter : Parameter) : Except Fault String := do
  let type ← parameter.type
  match parameter.presence with
  | .required => pure (parameter.name ++ ": " ++ type.text)
  | .optional => pure (parameter.name ++ "?: " ++ type.text)
  | .orUndefined => pure (parameter.name ++ ": " ++ type.text ++ " | undefined")

/-- The leader of the lines in the comment of a client member. -/
def memberLeader : String := "\t * "

/-- The text of the comment of a client method: its parts are separated by empty lines. -/
def MethodDoc.text (doc : MethodDoc) : String :=
  let separator := "\t *\n"
  let description := match doc.description with
    | some text => separator ++ comment memberLeader text
    | none => ""
  let params :=
    if doc.params.isEmpty then ""
    else separator ++ String.join (doc.params.map fun param =>
      comment memberLeader ("@param " ++ param.1 ++ " " ++ param.2))
  let returns := match doc.returns with
    | some text => separator ++ comment memberLeader ("@returns " ++ text)
    | none => ""
  "\t/**\n" ++ comment memberLeader doc.summary ++ description ++ params ++ returns ++ "\t */\n"

/-- The text of a client method. -/
def Call.print (call : Call) : Emission String Unit := do
  .emit call.doc.text
  let parameters ← Emission.require (call.parameters.mapM Parameter.text)
  let result ← Emission.require call.result
  .emit ("\t" ++ call.name ++ "(" ++ ", ".intercalate parameters ++ "): Promise<" ++ result.text ++
    ">" ++ blockStart)
  .emit ("\t\treturn super.performRpc(" ++ Quoted.single call.method ++ ", " ++
    bracketed (call.wireNames.map Quoted.single) ++ ", " ++ bracketed call.arguments ++ ");\n")
  .emit ("\t" ++ closeBrace ++ "\n\n")

/-- The statement that sets up an event. -/
def EventSource.setup (source : EventSource) : String :=
  "\t\tthis." ++ source.name ++ " = super.createEventEmitter(" ++ Quoted.single source.method ++
    ", " ++ bracketed (source.wireNames.map Quoted.single) ++ ");\n"

/-- The declaration of an event member. -/
def EventSource.member (source : EventSource) : String :=
  docComment "\t" source.doc ++ "\t" ++ source.name ++ ": Event<" ++ source.type ++ ">;\n\n"

/-- The text of the client class. -/
def Client.print (client : Client) : Emission String Unit := do
  .emit (docComment "" client.doc)
  .emit (exported "class" client.name ++ " extends PositronBaseComm" ++ blockStart)
  .emit ("\tconstructor(instance: IRuntimeClientInstance<any, any>)" ++ blockStart)
  .emit "\t\tsuper(instance);\n"
  .emitAll (client.events.map EventSource.setup)
  .emit ("\t" ++ closeBrace ++ "\n\n")
  Emission.forAll client.calls Call.print
  .emitAll (client.events.map EventSource.member)
  .emit (closeBrace ++ "\n\n")

/-- An import of one name. -/
def importLine (name module : String) : String :=
  "import " ++ braced name ++ " from '" ++ module ++ "';\n"

/-- The head of a file: where it comes from, and what it imports. -/
def printHeader (provenance : String) (hasEvents : Bool) : String :=
  "//\n// AUTO-GENERATED from " ++ provenance ++ "; do not edit.\n//\n\n" ++
    (if hasEvents then importLine "Event" "vs/base/common/event" else "") ++
    importLine "PositronBaseComm"
      "vs/workbench/services/languageRuntime/common/positronBaseComm" ++
    importLine "IRuntimeClientInstance"
      "vs/workbench/services/languageRuntime/common/languageRuntimeClientInstance" ++ "\n"

end CommBindings.TypeScript
