import CommBindings.Target.Outline
import CommBindings.Target.PythonModule

set_option autoImplicit false

/-! # The Python binding of a comm

The kernel side in Python: data classes and enumerations for everything that is sent, a protocol
with a method for each request, and the functions that build a request from a message and hand it
to a handler. A data class revives those of its attributes that hold declared types.
-/

namespace CommBindings.Python

/-- The tokens of Python. -/
def table : TypeTable := [
  ("boolean", "bool"), ("integer", "int"), ("number", "float"), ("string", "str"),
  ("null", "None"), ("array-begin", "List["), ("array-end", "]"), ("object", "JsonData")]

/-- The type of arbitrary values. -/
def anyType : Derived := (table.require TypeTable.anyObject).map .token

/-- The attribute for a name: the wire name is kept beside it if it could not be written as it
is. -/
def fieldName (name : String) : FieldName :=
  let identifier := Naming.pythonField name
  ⟨identifier, if identifier = name then none else some name⟩

/-- The attribute for a key. -/
def keyFieldName (key : Key) : Except Fault FieldName :=
  match key with
  | .text name => .ok (fieldName name)
  | other => .error (.unnameable other)

/-- Whether a name for the schema is a name for a class that is declared further down. -/
def isForward : Schema → Bool
  | .array items _ => isForward items
  | .primitive _ _ => false
  | _ => true

/-- The pointer to a shared schema. -/
def componentPointer (key : String) : String := "#/components/schemas/" ++ key

variable (comm : Comm)

/-- The type of a schema in its context. -/
def typeOf (context : Context) (schema : Schema) : Derived :=
  fieldType comm.contracts table context schema

/-- The shared schema that a pointer names. -/
def component? (pointer : String) : Option Schema :=
  let key := lastSegment pointer
  if pointer = componentPointer key then
    comm.contracts.findSome? fun contract => lookupEntry contract.schemas (.text key)
  else none

/-- How values of a schema are revived, if they need to be. A reference is followed through shared
schemas that are no classes; `hops` bounds the number of references that are followed. -/
def revivalWithin (hops : Nat) (context : Context) (schema : Schema) :
    Except Fault (Option Revival) :=
  match schema with
  | .enumeration _ _ => (enumName context).map fun name => some (.construct name)
  | .object node =>
    if node.isAny then .ok none
    else (objectName context node).map fun name => some (.construct name)
  | .array items _ => do
    let inner ← itemsContext context
    let revival ← revivalWithin hops inner items
    pure (revival.map .each)
  | .reference pointer _ =>
    match component? comm pointer with
    | none => .ok none
    | some target =>
      let byName := (resolveReference comm.contracts pointer).map fun name =>
        some (Revival.construct name)
      match target with
      | .object node => if node.isAny then .ok none else byName
      | .enumeration _ _ => byName
      | other =>
        match hops with
        | 0 => .error .endlessAlias
        | hops + 1 => revivalWithin hops [.text (lastSegment pointer)] other
  | .primitive _ _ => .ok none
termination_by (hops, sizeOf schema)

/-- How values of a schema are revived. A chain of references that is longer than there are shared
schemas leads back to itself. -/
def revivalOf (context : Context) (schema : Schema) : Except Fault (Option Revival) :=
  revivalWithin comm (comm.contracts.flatMap Contract.schemas).length context schema

/-- The name for a shared schema. -/
def aliasOf (entry : Key × Schema) : Alias where
  doc := entry.2.description
  type := typeOf comm [entry.1] entry.2
  isForward := isForward entry.2
  name := entry.1.typeName

/-- What is said of the method that revives the attributes of a record. -/
def recordRevivalDoc : String := "Revive nested values after initialization"

/-- The attribute for a property of an object. -/
def fieldOf (object : ObjectDeclaration) (property : Key × Schema) : Field :=
  let context : Context := [property.1, .text object.name]
  { type := typeOf comm context property.2
    name := keyFieldName property.1
    description := property.2.description.getD (property.1.display?.getD "")
    isOptional := !object.node.isRequired property.1
    revival := revivalOf comm context property.2 }

/-- The declaration of an object. -/
def objectOf (object : ObjectDeclaration) : ObjectType :=
  if object.node.isAny then .any ⟨some object.description, anyType, false, .ok object.name⟩
  else
    .dataClass ⟨object.name, object.description, object.node.properties.map (fieldOf comm object),
      recordRevivalDoc⟩

/-- The declaration of an enumeration. -/
def enumOf (declared : EnumDeclaration) : Enumeration where
  name := declared.name
  doc := declared.description
  members := declared.values.map fun value => ⟨none, Naming.enumMember value, value⟩

/-- The attribute for a parameter. -/
def paramField (method : Method) (param : Param) : Field :=
  let context := paramContext method.name param.name
  { type := typeOf comm context param.schema
    name := .ok (fieldName param.name)
    description := param.description
    isOptional := !param.isRequired
    revival := revivalOf comm context param.schema }

/-- The data class of the parameters of a method. -/
def paramsOf (method : Method) : Record where
  name := Naming.paramsName method.name
  doc := method.summary
  fields := method.params.map (paramField comm method)
  revivalDoc := recordRevivalDoc

/-- The type of what a method returns. -/
def resultOf (method : Method) : Derived :=
  match method.reply? with
  | some schema => typeOf comm (resultContext method.name) schema
  | none => .ok (.token "None")

/-- The name of the enumeration of the requests' methods. -/
def tagEnum : String := comm.typeName ++ "Request"

/-- The name of the choice of requests. -/
def requestType : String := comm.typeName ++ "RpcRequest"

/-- The name of the choice of replies. -/
def replyType : String := comm.typeName ++ "RpcReply"

/-- The name of the handler protocol. -/
def handlerType : String := comm.typeName ++ "Handler"

/-- The name of the data class for a request. -/
def requestName (method : Method) : String := Naming.pascalCase method.name ++ "Request"

/-- The name of the data class for a reply. -/
def replyName (method : Method) : String := Naming.pascalCase method.name ++ "Reply"

/-- The members that stand for methods, each under a comment. -/
def methodMembers (methods : List Method) : List Member :=
  methods.map fun method => ⟨some method.summary, Naming.pascalCase method.name, method.name⟩

/-- The attribute of a request that holds its parameters, if it has any. -/
def paramsField (method : Method) : Option Field :=
  if method.hasParams then
    some
      { type := .ok (.named (Naming.paramsName method.name))
        name := .ok (fieldName "params")
        description := "Parameters to the " ++ Naming.pascalCase method.name ++ " method"
        isOptional := false
        revival := .ok (some (.construct (Naming.paramsName method.name))) }
  else none

/-- The data class for a request. -/
def requestOf (method : Method) : Request where
  name := requestName method
  doc := method.summary
  params := paramsField method
  paramsClass := Naming.paramsName method.name
  tagEnum := tagEnum comm
  tag := Naming.pascalCase method.name
  wireName := method.name

/-- The data class for the reply of a method with the given result. -/
def replyOf (method : Method) (result : Schema) : Reply where
  name := replyName method
  doc := "Reply to the " ++ Naming.pascalCase method.name ++ " request"
  result :=
    { type := typeOf comm (resultContext method.name) result
      name := .ok (fieldName "result")
      description := result.description.getD ("Result of the " ++ method.name ++ " method")
      isOptional := false
      revival := .ok none }

/-- The messages to and from the backend. -/
def messages : Messages where
  tags :=
    { name := tagEnum comm
      doc := "An enumeration of all the possible requests for " ++ comm.name
      members := methodMembers comm.backendMethods }
  requests := comm.backendMethods.map (requestOf comm)
  replies := comm.backendMethods.filterMap fun method => method.reply?.map (replyOf comm method)
  requestChoice := ⟨requestType comm, comm.backendMethods.map requestName⟩
  replyChoice := ⟨replyType comm, (comm.backendMethods.filter Method.hasResult).map replyName⟩

/-- The enumeration of the events. -/
def eventNames : Enumeration where
  name := comm.typeName ++ "Event"
  doc := "An enumeration of all the possible events for " ++ comm.name
  members := methodMembers comm.frontendMethods

/-- The handler protocol. -/
def handler : Protocol where
  name := handlerType comm
  doc := "Handler for RPC requests sent to the " ++ comm.name ++ " comm"
  handlers := comm.backendMethods.map fun method =>
    { name := Naming.pythonField method.name
      doc := method.summary
      params := if method.hasParams then some (Naming.paramsName method.name) else none
      result := resultOf comm method }

/-- The function that hands requests to the handler. -/
def dispatch : Dispatch where
  name := "dispatch_" ++ Naming.moduleName comm.name ++ "_request"
  comm := comm.name
  handlerType := handlerType comm
  requestType := requestType comm
  replyType := replyType comm
  arms := comm.backendMethods.map fun method =>
    { request := requestName method
      handler := Naming.pythonField method.name
      hasParams := method.hasParams
      reply := if method.hasResult then some (replyName method) else none }

/-- The function that builds a request from a message. -/
def parseRequest : ParseRequest where
  name := "parse_" ++ Naming.moduleName comm.name ++ "_request"
  comm := comm.name
  requestType := requestType comm
  tagEnum := tagEnum comm
  arms := comm.backendMethods.map fun method =>
    ⟨Naming.pascalCase method.name, requestName method, method.hasParams⟩

/-- The text of a section. -/
def printSection : Section → Emission String Unit
  | .header => .emit (printHeader comm.provenance comm.backend.isSome)
  | .aliases => Emission.forAll comm.aliases fun entry => (aliasOf comm entry).print
  | .objects => comm.objects.flatMap fun object => (objectOf comm object).print
  | .enums => comm.enums.flatMap fun declared => .emit (enumOf declared).text
  | .paramRecords =>
    Emission.forAll comm.methodsWithParams fun method => (paramsOf comm method).print
  | .backendUnions => (messages comm).print
  | .frontendEvents => .emit (eventNames comm).textOrPass
  | .client =>
    if comm.backend.isSome then do
      (handler comm).print
      .emit (dispatch comm).text
      .emit "\n\n"
      .emit (parseRequest comm).text
    else .result ()

/-- The name of the file. -/
def fileName : String := Naming.moduleName comm.name ++ "_comm.py"

end CommBindings.Python
