import CommBindings.Contract.Typing
import CommBindings.Emission
import CommBindings.Text.Brace
import CommBindings.Text.Comment
import CommBindings.Text.Quoted

set_option autoImplicit false

/-! # Python declarations

The declarations that make up a Python binding, and their text. A name or a type that could not be
formed is kept as its fault; the text ends where such a part would stand.
-/

namespace CommBindings.Python

open CommBindings.Text

/-- A type, or why there is none. -/
abbrev Derived := Except Fault TypeExpr

/-- How a value that came over the wire is turned back into what it was: by its class, or each item
of a list on its own. -/
inductive Revival where
  | construct (className : String)
  | each (item : Revival)
  deriving Repr, DecidableEq

/-- An attribute as it is written, and its name on the wire if that is another one. -/
structure FieldName where
  identifier : String
  wireName : Option String
  deriving Repr, DecidableEq

/-- An attribute of a data class. -/
structure Field where
  type : Derived
  name : Except Fault FieldName
  description : String
  isOptional : Bool
  revival : Except Fault (Option Revival)

/-- A data class. `revivalDoc` is said of the method that revives its attributes. -/
structure Record where
  name : String
  doc : String
  fields : List Field
  revivalDoc : String

/-- A name for a type; the type is quoted if it is declared further down. -/
structure Alias where
  doc : Option String
  type : Derived
  isForward : Bool
  name : Except Fault String

/-- The declaration of an object: a data class, or a name for arbitrary values. -/
inductive ObjectType where
  | dataClass (record : Record)
  | any (declared : Alias)

/-- A member of an enumeration and the text that it stands for. -/
structure Member where
  doc : Option String
  name : String
  value : String

/-- An enumeration of texts. -/
structure Enumeration where
  name : String
  doc : String
  members : List Member

/-- A data class for a request. -/
structure Request where
  name : String
  doc : String
  params : Option Field
  paramsClass : String
  tagEnum : String
  tag : String
  wireName : String

/-- A data class for a reply. -/
structure Reply where
  name : String
  doc : String
  result : Field

/-- A name for a choice of classes. -/
structure Choice where
  name : String
  members : List String

/-- The messages to and from the backend. -/
structure Messages where
  tags : Enumeration
  requests : List Request
  replies : List Reply
  requestChoice : Choice
  replyChoice : Choice

/-- A method of the handler protocol. -/
structure Handler where
  name : String
  doc : String
  params : Option String
  result : Derived

/-- The handler protocol. -/
structure Protocol where
  name : String
  doc : String
  handlers : List Handler

/-- A branch that hands a request to its handler, and builds the reply if there is one. -/
structure DispatchArm where
  request : String
  handler : String
  hasParams : Bool
  reply : Option String

/-- The function that hands requests to their handlers. -/
structure Dispatch where
  name : String
  comm : String
  handlerType : String
  requestType : String
  replyType : String
  arms : List DispatchArm

/-- A branch that builds the request for a method. -/
structure ParseArm where
  tag : String
  request : String
  hasParams : Bool

/-- The function that builds a request from a message. -/
structure ParseRequest where
  name : String
  comm : String
  requestType : String
  tagEnum : String
  arms : List ParseArm

/-- One level of indentation. -/
def indent : String := "    "

/-- Two levels of indentation. -/
def indent2 : String := indent ++ indent

/-- Three levels of indentation. -/
def indent3 : String := indent2 ++ indent

/-- One character inside a documentation text. -/
def docChar (c : Char) : List Char :=
  if c = '\\' then ['\\', '\\'] else if c = '"' then ['\\', '"'] else [c]

/-- The quotes around a documentation text. -/
def docQuotes : String := "\"\"\""

/-- A documentation text: on one line if it fits, and else on lines between its quotes. -/
def docstring (indent text : String) : String :=
  match wrap commentWidth (String.ofList (text.toList.flatMap docChar)) with
  | [line] => indent ++ docQuotes ++ line ++ docQuotes ++ "\n"
  | lines =>
    indent ++ docQuotes ++ "\n" ++ String.join (lines.map (commentLine indent)) ++
      indent ++ docQuotes ++ "\n"

/-- A dictionary that is written on one line. -/
def inlineDict (entries : String) : String := openBrace ++ entries ++ closeBrace

/-- The declaration of an attribute. -/
def attributeText (name : FieldName) (type description : String) (isOptional : Bool) : String :=
  let wireName := (name.wireName.map fun wire => ", \"wire_name\": " ++ Quoted.plain wire).getD ""
  let metadata := inlineDict ("\"description\": " ++ Quoted.plain description ++ wireName)
  if isOptional then
    indent ++ name.identifier ++ ": Optional[" ++ type ++ "] = field(default=None, metadata=" ++
      metadata ++ ")\n\n"
  else indent ++ name.identifier ++ ": " ++ type ++ " = field(metadata=" ++ metadata ++ ")\n\n"

/-- The expression that revives a value. -/
def Revival.text (value : String) : Revival → String
  | construct className => "_revive(" ++ className ++ ", " ++ value ++ ")"
  | each item => "[" ++ item.text "item" ++ " for item in " ++ value ++ "]"

/-- The statement that revives an attribute, guarded if the attribute may be absent. -/
def revivalStatement (identifier : String) (isOptional : Bool) (revival : Revival) : String :=
  let place := "self." ++ identifier
  let assignment := place ++ " = " ++ revival.text place ++ "\n"
  if isOptional then
    indent2 ++ "if " ++ place ++ " is not None:\n" ++ indent3 ++ assignment
  else indent2 ++ assignment

/-- The method that revives attributes, if there is one to revive. -/
def postInit (doc : String) (statements : List String) : String :=
  if statements.isEmpty then ""
  else
    indent ++ "def __post_init__(self):\n" ++ docstring indent2 doc ++ String.join statements ++ "\n"

/-- The text of an attribute. The result is the statement that revives it, if there is one. -/
def Field.print (field : Field) : Emission String (List String) := do
  let type ← Emission.require field.type
  let name ← Emission.require field.name
  .emit (attributeText name type.text field.description field.isOptional)
  let revival ← Emission.require field.revival
  .result (revival.toList.map (revivalStatement name.identifier field.isOptional))

/-- The text of attributes. The result is the statements that revive them. -/
def printFields : List Field → Emission String (List String)
  | [] => .result []
  | field :: rest => do
    let statement ← field.print
    let statements ← printFields rest
    .result (statement ++ statements)

/-- The head of a data class. -/
def recordStart (name doc : String) : String :=
  "@dataclass(kw_only=True)\nclass " ++ name ++ ":\n" ++ docstring indent doc ++ "\n"

/-- The text of a data class. -/
def Record.print (record : Record) : Emission String Unit := do
  .emit (recordStart record.name record.doc)
  let statements ← printFields record.fields
  .emit (postInit record.revivalDoc statements)
  .emit "\n"

/-- The text of a name for a type. -/
def Alias.print (declared : Alias) : Emission String Unit := do
  match declared.doc with
  | some doc => .emit (comment "# " doc)
  | none => .result ()
  let type ← Emission.require declared.type
  let name ← Emission.require declared.name
  .emit (name ++ " = " ++ (if declared.isForward then Quoted.plain type.text else type.text) ++
    "\n\n\n")

/-- The text of the declaration of an object. -/
def ObjectType.print : ObjectType → Emission String Unit
  | dataClass record => record.print
  | any declared => declared.print

/-- The text of a member of an enumeration. -/
def Member.text (member : Member) : String :=
  (member.doc.map (comment (indent ++ "# "))).getD "" ++
    indent ++ member.name ++ " = " ++ Quoted.plain member.value ++ "\n\n"

/-- The head of an enumeration. -/
def enumStart (name doc : String) : String :=
  "@enum.unique\nclass " ++ name ++ "(str, enum.Enum):\n" ++ docstring indent doc ++ "\n"

/-- The text of an enumeration. -/
def Enumeration.text (enumeration : Enumeration) : String :=
  enumStart enumeration.name enumeration.doc ++
    String.join (enumeration.members.map Member.text) ++ "\n"

/-- The text of an enumeration that may have no members. -/
def Enumeration.textOrPass (enumeration : Enumeration) : String :=
  enumStart enumeration.name enumeration.doc ++
    (if enumeration.members.isEmpty then indent ++ "pass\n"
      else String.join (enumeration.members.map Member.text)) ++ "\n"

/-- The text of a data class for a request. -/
def Request.print (request : Request) : Emission String Unit := do
  .emit (recordStart request.name request.doc)
  let statements ← printFields request.params.toList
  .emit (indent ++ "method: " ++ request.tagEnum ++ " = field(default=" ++ request.tagEnum ++ "." ++
    request.tag ++ ", metadata=" ++
    inlineDict ("\"description\": " ++
      Quoted.plain ("The JSON-RPC method name (" ++ request.wireName ++ ")")) ++ ")\n\n")
  .emit (indent ++ "jsonrpc: str = field(default=\"2.0\", metadata=" ++
    inlineDict "\"description\": \"The JSON-RPC version specifier\"" ++ ")\n\n")
  .emit (postInit "Revive RPC parameters after initialization" statements)
  .emit "\n"

/-- The text of a data class for a reply. -/
def Reply.print (reply : Reply) : Emission String Unit := do
  .emit (recordStart reply.name reply.doc)
  let _ ← reply.result.print
  .emit "\n"

/-- The text of a name for a choice of classes. -/
def Choice.text (choice : Choice) : String :=
  if choice.members.isEmpty then choice.name ++ " = NoReturn\n\n\n"
  else
    choice.name ++ " = Union[\n" ++
      String.join (choice.members.map fun member => indent ++ member ++ ",\n") ++ "]\n\n\n"

/-- The text of the messages to and from the backend. -/
def Messages.print (messages : Messages) : Emission String Unit := do
  .emit messages.tags.textOrPass
  Emission.forAll messages.requests Request.print
  Emission.forAll messages.replies Reply.print
  .emit messages.requestChoice.text
  .emit messages.replyChoice.text

/-- The text of a method of the handler protocol. -/
def Handler.print (handler : Handler) : Emission String Unit := do
  let result ← Emission.require handler.result
  let params := (handler.params.map fun type => ", params: " ++ type).getD ""
  .emit (indent ++ "def " ++ handler.name ++ "(self" ++ params ++ ") -> " ++ result.text ++ ":\n")
  .emit (docstring indent2 handler.doc)
  .emit (indent2 ++ "...\n\n")

/-- The text of the handler protocol. -/
def Protocol.print (protocol : Protocol) : Emission String Unit := do
  .emit ("class " ++ protocol.name ++ "(Protocol):\n" ++ docstring indent protocol.doc ++ "\n")
  Emission.forAll protocol.handlers Handler.print
  .emit "\n"

/-- The text of a branch that hands a request to its handler. -/
def DispatchArm.text (arm : DispatchArm) : String :=
  let call := "handler." ++ arm.handler ++ "(" ++ (if arm.hasParams then "request.params" else "") ++
    ")"
  indent ++ "if isinstance(request, " ++ arm.request ++ "):\n" ++
    (match arm.reply with
      | some reply => indent2 ++ "return " ++ reply ++ "(result=" ++ call ++ ")\n"
      | none => indent2 ++ call ++ "\n" ++ indent2 ++ "return None\n")

/-- The statement that ends a function whose input fits no branch. -/
def raiseUnknown (what name : String) : String :=
  indent ++ "raise ValueError(f\"Unknown " ++ what ++ ": " ++ openBrace ++ name ++ "!r" ++
    closeBrace ++ "\")\n"

/-- The text of the function that hands requests to their handlers. -/
def Dispatch.text (dispatch : Dispatch) : String :=
  "def " ++ dispatch.name ++ "(\n" ++ indent ++ "handler: " ++ dispatch.handlerType ++
    ", request: " ++ dispatch.requestType ++ "\n) -> Optional[" ++ dispatch.replyType ++ "]:\n" ++
    docstring indent ("Route a " ++ dispatch.comm ++ " request to the handler method named by " ++
      "its wire method, returning the reply for methods that have a result.") ++
    String.join (dispatch.arms.map DispatchArm.text) ++
    raiseUnknown (dispatch.comm ++ " request") "request"

/-- The text of a branch that builds the request for a method. -/
def ParseArm.text (tagEnum : String) (arm : ParseArm) : String :=
  indent ++ "if method == " ++ tagEnum ++ "." ++ arm.tag ++ ":\n" ++
    indent2 ++ "return " ++ arm.request ++ "(" ++
    (if arm.hasParams then "params=data.get(\"params\")" else "") ++ ")\n"

/-- The text of the function that builds a request from a message. -/
def ParseRequest.text (function : ParseRequest) : String :=
  "def " ++ function.name ++ "(data: Dict[str, JsonData]) -> " ++ function.requestType ++ ":\n" ++
    docstring indent ("Build the typed request for a JSON-RPC message sent to the " ++
      function.comm ++ " comm.") ++
    indent ++ "method = data.get(\"method\")\n" ++
    String.join (function.arms.map (ParseArm.text function.tagEnum)) ++
    raiseUnknown (function.comm ++ " request method") "method"

/-- The helper that every file has: it builds a class from a dictionary whose keys are names on the
wire, and an enumeration member from its text. -/
def reviveHelper : String :=
  "def _revive(cls, value):\n" ++
    indent ++ docQuotes ++
    "Build \x60\x60cls\x60\x60 from its wire form, passing typed values through." ++ docQuotes ++
    "\n" ++
    indent ++ "if isinstance(value, dict):\n" ++
    indent2 ++ "names = " ++
    inlineDict "f.metadata.get(\"wire_name\", f.name): f.name for f in fields(cls)" ++ "\n" ++
    indent2 ++ "return cls(**" ++
    inlineDict "names.get(key, key): item for key, item in value.items()" ++ ")\n" ++
    indent ++ "if isinstance(value, str) and issubclass(cls, enum.Enum):\n" ++
    indent2 ++ "return cls(value)\n" ++
    indent ++ "return value\n"

/-- The head of a file: where it comes from, what it imports, and the helper. -/
def printHeader (provenance : String) (hasProtocol : Bool) : String :=
  "#\n# AUTO-GENERATED from " ++ provenance ++ "; do not edit.\n#\n\n" ++
    "from __future__ import annotations\n\nimport enum\n" ++
    "from dataclasses import dataclass, field, fields\n" ++
    "from typing import Dict, List, NoReturn, Optional, Union\n" ++
    (if hasProtocol then "from typing import Protocol\n" else "") ++
    "\nJsonData = Union[Dict[str, \"JsonData\"], List[\"JsonData\"], str, int, float, bool, None]\n" ++
    "\n\n" ++ reviveHelper ++ "\n\n"

end CommBindings.Python
