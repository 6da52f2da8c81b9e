import CommBindings.Contract.Typing
import CommBindings.Emission
import CommBindings.Text.Brace
import CommBindings.Text.Comment
import CommBindings.Text.Quoted

set_option autoImplicit false

/-! # Rust declarations

The declarations that make up a Rust binding, and their text. A name or a type that could not be
formed is kept as its fault; the text ends where such a part would stand.
-/

namespace CommBindings.Rust

open CommBindings.Text

/-- A type, or why there is none. -/
abbrev Derived := Except Fault TypeExpr

/-- A field as it is written, and its name on the wire if that is another one. -/
structure FieldName where
  identifier : String
  rename : Option String
  deriving Repr, DecidableEq

/-- A public field. -/
structure Field where
  doc : Option String
  type : Derived
  name : Except Fault FieldName
  isOptional : Bool

/-- A public struct. -/
structure Struct where
  doc : String
  name : String
  fields : List Field

/-- A public name for a type. -/
structure Alias where
  doc : Option String
  name : Except Fault String
  type : Derived

/-- The declaration of an object: a struct, or a name for arbitrary values. -/
inductive ObjectType where
  | record (struct : Struct)
  | any (declared : Alias)

/-- A variant of an enumeration and the text that it stands for. -/
structure Variant where
  name : String
  rename : String

/-- A public enumeration of texts. -/
structure Enumeration where
  doc : String
  name : String
  variants : List Variant

/-- What is said of a method. -/
structure MethodDoc where
  summary : String
  description : Option String

/-- A variant for a message, with the type of its parameters if it has any. -/
structure Message where
  doc : MethodDoc
  rename : String
  name : String
  payload : Option String

/-- A variant for a reply. -/
structure Reply where
  doc : Option String
  name : String
  payload : Derived

/-- The messages of one direction, tagged by their method. -/
structure Messages where
  doc : String
  name : String
  messages : List Message

/-- The replies, tagged by their method. -/
structure Replies where
  doc : String
  name : String
  replies : List Reply

/-- An arm that tells the method of an event. -/
structure MethodArm where
  event : String
  hasPayload : Bool
  method : String

/-- The function that tells the method of an event. -/
structure MethodOf where
  type : String
  arms : List MethodArm

/-- A method of the handler trait; without a result it returns the unit. -/
structure Handler where
  doc : MethodDoc
  name : String
  params : Option String
  result : Derived

/-- The handler trait. -/
structure Trait where
  doc : String
  name : String
  handlers : List Handler

/-- An arm that hands a request to its handler, and builds the reply if there is one. -/
structure DispatchArm where
  request : String
  hasParams : Bool
  handler : String
  reply : Option String

/-- The function that hands requests to their handlers. -/
structure Dispatch where
  doc : String
  name : String
  handlerTrait : String
  requestType : String
  replyType : String
  arms : List DispatchArm

/-- The attribute of every declared type. -/
def derives : String := "#[derive(Debug, Clone, Serialize, Deserialize, PartialEq)]\n"

/-- An attribute that sets a name on the wire. -/
def renameAttribute (name : String) : String := "\t#[serde(rename = " ++ Quoted.plain name ++ ")]\n"

/-- The start of a block that declares a public item of some sort. -/
def publicBlock (sort name : String) : String := "pub " ++ sort ++ " " ++ name ++ blockStart

/-- The end of an outermost block. -/
def blockEnd : String := closeBrace ++ "\n\n"

/-- Documentation behind slashes. -/
def docComment (indent text : String) : String := comment (indent ++ "/// ") text

/-- Documentation in a block, on one line whatever its length. -/
def docBlock (text : String) : String := "/**\n * " ++ text ++ "\n */\n"

/-- The text of a field. -/
def Field.text (field : Field) : Except Fault String := do
  let type ← field.type
  let name ← field.name
  let doc := (field.doc.map (docComment "\t")).getD ""
  let rename := (name.rename.map renameAttribute).getD ""
  let declaration :=
    if field.isOptional then
      "\t#[serde(default, skip_serializing_if = \"Option::is_none\")]\n" ++
        "\tpub " ++ name.identifier ++ ": Option<" ++ type.text ++ ">,\n"
    else "\tpub " ++ name.identifier ++ ": " ++ type.text ++ ",\n"
  pure (doc ++ rename ++ declaration)

/-- The text of a struct. All fields are formed before the first is written. -/
def Struct.print (struct : Struct) : Emission String Unit := do
  .emit (docComment "" struct.doc)
  .emit derives
  .emit (publicBlock "struct" struct.name)
  let fields ← Emission.require (struct.fields.mapM Field.text)
  .emit ("\n".intercalate fields)
  .emit blockEnd

/-- The text of a name for a type. -/
def Alias.print (declared : Alias) : Emission String Unit := do
  match declared.doc with
  | some doc => .emit (docComment "" doc)
  | none => .result ()
  let name ← Emission.require declared.name
  let type ← Emission.require declared.type
  .emit ("pub type " ++ name ++ " = " ++ type.text ++ ";\n\n")

/-- The text of the declaration of an object. -/
def ObjectType.print : ObjectType → Emission String Unit
  | record struct => struct.print
  | any declared => declared.print

/-- The text of a variant. -/
def Variant.text (variant : Variant) : String :=
  renameAttribute variant.rename ++ "\t" ++ variant.name ++ ",\n"

/-- The text of an enumeration. -/
def Enumeration.print (enumeration : Enumeration) : Emission String Unit := do
  .emit (docComment "" enumeration.doc)
  .emit derives
  .emit (publicBlock "enum" enumeration.name)
  .emit ("\n".intercalate (enumeration.variants.map Variant.text))
  .emit blockEnd

/-- The text of the documentation of a method. -/
def MethodDoc.text (doc : MethodDoc) : String :=
  docComment "\t" doc.summary ++
    (match doc.description with
      | some text => "\t///\n" ++ docComment "\t" text
      | none => "")

/-- The text of a variant for a message. -/
def Message.text (message : Message) : String :=
  let payload := (message.payload.map fun type => "(" ++ type ++ ")").getD ""
  message.doc.text ++ renameAttribute message.rename ++ "\t" ++ message.name ++ payload ++ ",\n\n"

/-- The start of an enumeration of messages. -/
def taggedStart (doc content name : String) : String :=
  docBlock doc ++ derives ++
    "#[serde(tag = \"method\", content = \"" ++ content ++ "\")]\n" ++ publicBlock "enum" name

/-- The text of the messages of one direction. -/
def Messages.print (messages : Messages) : Emission String Unit := do
  .emit (taggedStart messages.doc "params" messages.name)
  .emitAll (messages.messages.map Message.text)
  .emit blockEnd

/-- The text of a variant for a reply. -/
def Reply.print (reply : Reply) : Emission String Unit := do
  match reply.doc with
  | some doc => .emit (docComment "\t" doc)
  | none => .result ()
  let payload ← Emission.require reply.payload
  .emit ("\t" ++ reply.name ++ "(" ++ payload.text ++ "),\n\n")

/-- The text of the replies. -/
def Replies.print (replies : Replies) : Emission String Unit := do
  .emit (taggedStart replies.doc "result" replies.name)
  Emission.forAll replies.replies Reply.print
  .emit blockEnd

/-- The text of an arm that tells the method of an event. -/
def MethodArm.text (type : String) (arm : MethodArm) : String :=
  "\t\t\t" ++ type ++ "::" ++ arm.event ++ (if arm.hasPayload then "(_)" else "") ++ " => " ++
    Quoted.plain arm.method ++ ",\n"

/-- The text of the function that tells the method of an event. -/
def MethodOf.text (function : MethodOf) : String :=
  "impl " ++ function.type ++ blockStart ++ "\t/// The wire method name of the event.\n" ++
    "\tpub fn method(&self) -> &'static str" ++ blockStart ++ "\t\tmatch self" ++ blockStart ++
    String.join (function.arms.map (MethodArm.text function.type)) ++
    "\t\t" ++ closeBrace ++ "\n\t" ++ closeBrace ++ "\n" ++ blockEnd

/-- The text of a method of the handler trait. -/
def Handler.print (handler : Handler) : Emission String Unit := do
  .emit handler.doc.text
  let result ← Emission.require handler.result
  let params := (handler.params.map fun type => ", params: " ++ type).getD ""
  .emit ("\tfn " ++ handler.name ++ "(&mut self" ++ params ++ ") -> Result<" ++ result.text ++
    ", Self::Error>;\n\n")

/-- The text of the handler trait. -/
def Trait.print (handlerTrait : Trait) : Emission String Unit := do
  .emit (docComment "" handlerTrait.doc)
  .emit (publicBlock "trait" handlerTrait.name)
  .emit "\ttype Error;\n\n"
  Emission.forAll handlerTrait.handlers Handler.print
  .emit blockEnd

/-- The text of an arm that hands a request to its handler. -/
def DispatchArm.text (requestType replyType : String) (arm : DispatchArm) : String :=
  let pattern := requestType ++ "::" ++ arm.request ++ (if arm.hasParams then "(params)" else "")
  let call := "handler." ++ arm.handler ++ (if arm.hasParams then "(params)?" else "()?")
  match arm.reply with
  | some reply =>
    "\t\t" ++ pattern ++ " => Ok(Some(" ++ replyType ++ "::" ++ reply ++ "(" ++ call ++ "))),\n"
  | none =>
    "\t\t" ++ pattern ++ " =>" ++ blockStart ++ "\t\t\t" ++ call ++ ";\n\t\t\tOk(None)\n\t\t" ++
      closeBrace ++ ",\n"

/-- The text of the function that hands requests to their handlers. -/
def Dispatch.text (dispatch : Dispatch) : String :=
  docComment "" dispatch.doc ++
    "pub fn " ++ dispatch.name ++ "<H: " ++ dispatch.handlerTrait ++ ">(\n" ++
    "\thandler: &mut H,\n" ++ "\trequest: " ++ dispatch.requestType ++ ",\n" ++
    ") -> Result<Option<" ++ dispatch.replyType ++ ">, H::Error>" ++ blockStart ++
    "\tmatch request" ++ blockStart ++
    String.join (dispatch.arms.map (DispatchArm.text dispatch.requestType dispatch.replyType)) ++
    "\t" ++ closeBrace ++ "\n" ++ blockEnd

/-- The head of a file: where it comes from, and what it uses. -/
def printHeader (provenance : String) : String :=
  "//\n// AUTO-GENERATED from " ++ provenance ++ "; do not edit.\n//\n\n" ++
    "use serde::Deserialize;\nuse serde::Serialize;\n\n"

end CommBindings.Rust
