import CommBindings.Target.Outline
import CommBindings.Target.RustModule

set_option autoImplicit false

/-! # The Rust binding of a comm

The kernel side in Rust: serializable types for everything that is sent, and a trait with a method
for each request, together with the function that hands requests to it.
-/

namespace CommBindings.Rust

/-- The tokens of Rust. -/
def table : TypeTable := [
  ("boolean", "bool"), ("integer", "i64"), ("number", "f64"), ("string", "String"),
  ("null", "()"), ("array-begin", "Vec<"), ("array-end", ">"), ("object", "serde_json::Value")]

/-- The type of arbitrary values. -/
def anyType : Derived := (table.require TypeTable.anyObject).map .token

/-- The name by which a field is known on the wire if nothing else is said: that of a raw
identifier is the word without its mark. -/
def serializedName (identifier : String) : String :=
  if identifier.startsWith "r#" then (identifier.drop 2).toString else identifier

/-- The field for a name: renamed if it could not be written as it is. -/
def fieldName (name : String) : FieldName :=
  let identifier := Naming.rustField name
  ⟨identifier, if serializedName identifier = name then none else some name⟩

/-- The field for a key. -/
def keyFieldName (key : Key) : Except Fault FieldName :=
  match key with
  | .text name => .ok (fieldName name)
  | other => .error (.unnameable other)

variable (comm : Comm)

/-- The type of a schema in its context. -/
def typeOf (context : Context) (schema : Schema) : Derived :=
  fieldType comm.contracts table context schema

/-- The name for a shared schema. -/
def aliasOf (entry : Key × Schema) : Alias where
  doc := entry.2.description
  name := entry.1.typeName
  type := typeOf comm [entry.1] entry.2

/-- The field for a property of an object. -/
def fieldOf (object : ObjectDeclaration) (property : Key × Schema) : Field where
  doc := property.2.description
  type := typeOf comm [property.1, .text object.name] property.2
  name := keyFieldName property.1
  isOptional := !object.node.isRequired property.1

/-- The declaration of an object. -/
def objectOf (object : ObjectDeclaration) : ObjectType :=
  if object.node.isAny then .any ⟨some object.description, .ok object.name, anyType⟩
  else
    .record ⟨object.description, object.name, object.node.properties.map (fieldOf comm object)⟩

/-- The declaration of an enumeration. -/
def enumOf (declared : EnumDeclaration) : Enumeration where
  doc := declared.description
  name := declared.name
  variants := declared.values.map fun value => ⟨Naming.enumMember value, value⟩

/-- The struct of the parameters of a method. -/
def paramsOf (method : Method) : Struct where
  doc := "Parameters for the " ++ Naming.pascalCase method.name ++ " method."
  name := Naming.paramsName method.name
  fields := method.params.map fun param =>
    { doc := some param.description
      type := typeOf comm (paramContext method.name param.name) param.schema
      name := .ok (fieldName param.name)
      isOptional := !param.isRequired }

/-- The type of the parameters of a method, if it has any. -/
def payloadOf (method : Method) : Option String :=
  if method.hasParams then some (Naming.paramsName method.name) else none

/-- The variant for the message of a method. -/
def messageOf (method : Method) : Message where
  doc := ⟨method.summary, method.description⟩
  rename := method.name
  name := Naming.pascalCase method.name
  payload := payloadOf method

/-- The name of the type of requests. -/
def requestType : String := comm.typeName ++ "RpcRequest"

/-- The name of the type of replies. -/
def replyType : String := comm.typeName ++ "RpcReply"

/-- The name of the type of events. -/
def eventType : String := comm.typeName ++ "Event"

/-- The name of the handler trait. -/
def handlerTrait : String := comm.typeName ++ "Handler"

/-- The name of the variant for the reply of a method. -/
def replyName (method : Method) : String := Naming.pascalCase method.name ++ "Reply"

/-- The requests. -/
def requests : Messages where
  doc := "RPC request types for the " ++ comm.name ++ " comm"
  name := requestType comm
  messages := comm.backendMethods.map messageOf

/-- The replies of the methods that have a result. -/
def replies : Replies where
  doc := "RPC reply types for the " ++ comm.name ++ " comm"
  name := replyType comm
  replies := comm.backendMethods.filterMap fun method =>
    method.reply?.map fun schema =>
      ⟨schema.description, replyName method, typeOf comm (resultContext method.name) schema⟩

/-- The events. -/
def events : Messages where
  doc := "Front-end events for the " ++ comm.name ++ " comm"
  name := eventType comm
  messages := comm.frontendMethods.map messageOf

/-- The function that tells the method of an event. -/
def eventMethod : MethodOf where
  type := eventType comm
  arms := comm.frontendMethods.map fun method =>
    ⟨Naming.pascalCase method.name, method.hasParams, method.name⟩

/-- The type of what a method returns. -/
def resultOf (method : Method) : Derived :=
  match method.reply? with
  | some schema => typeOf comm (resultContext method.name) schema
  | none => .ok (.token "()")

/-- The handler trait. -/
def handler : Trait where
  doc := "Handler for RPC requests sent to the " ++ comm.name ++ " comm"
  name := handlerTrait comm
  handlers := comm.backendMethods.map fun method =>
    ⟨⟨method.summary, method.description⟩, method.name, payloadOf method, resultOf comm method⟩

/-- The function that hands requests to the handler. -/
def dispatch : Dispatch where
  doc := "Routes a " ++ comm.name ++ " request to the handler method named by its wire method, " ++
    "returning the reply for methods that have a result."
  name := "dispatch_" ++ Naming.moduleName comm.name ++ "_request"
  handlerTrait := handlerTrait comm
  requestType := requestType comm
  replyType := replyType comm
  arms := comm.backendMethods.map fun method =>
    ⟨Naming.pascalCase method.name, method.hasParams, method.name,
      if method.hasResult then some (replyName method) else none⟩

/-- The text of a section. -/
def printSection : Section → Emission String Unit
  | .header => .emit (printHeader comm.provenance)
  | .aliases => Emission.forAll comm.aliases fun entry => (aliasOf comm entry).print
  | .objects => comm.objects.flatMap fun object => (objectOf comm object).print
  | .enums => comm.enums.flatMap fun declared => (enumOf declared).print
  | .paramRecords =>
    Emission.forAll comm.methodsWithParams fun method => (paramsOf comm method).print
  | .backendUnions => do
    (requests comm).print
    (replies comm).print
  | .frontendEvents => do
    (events comm).print
    .emit (eventMethod comm).text
  | .client =>
    if comm.backend.isSome then do
      (handler comm).print
      .emit (dispatch comm).text
    else .result ()

/-- The name of the file. -/
def fileName : String := Naming.moduleName comm.name ++ "_comm.rs"

end CommBindings.Rust
