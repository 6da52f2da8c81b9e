import CommBindings.Target.Outline
import CommBindings.Target.TypeScriptModule

set_option autoImplicit false

/-! # The TypeScript binding of a comm

The frontend side: interfaces and enumerations for everything that is sent, and a client class with
a method for each request and a member for each event.
-/

namespace CommBindings.TypeScript

/-- The tokens of TypeScript. -/
def table : TypeTable := [
  ("boolean", "boolean"), ("integer", "number"), ("number", "number"), ("string", "string"),
  ("null", "null"), ("array-begin", "Array<"), ("array-end", ">"), ("object", "unknown")]

/-- The type of arbitrary values. -/
def anyType : Derived := (table.require TypeTable.anyObject).map .token

variable (comm : Comm)

/-- The type of a schema in its context. -/
def typeOf (context : Context) (schema : Schema) : Derived :=
  fieldType comm.contracts table context schema

/-- The name for a shared schema. -/
def aliasOf (entry : Key × Schema) : Alias where
  doc := entry.2.description
  name := entry.1.typeName
  type := typeOf comm [entry.1] entry.2

/-- The property of an object. -/
def fieldOf (object : ObjectDeclaration) (property : Key × Schema) : Field where
  doc := property.2.description.getD (property.1.display?.getD "")
  key := property.1
  isOptional := !object.node.isRequired property.1
  type := typeOf comm [property.1, .text object.name] property.2

/-- The declaration of an object. -/
def objectOf (object : ObjectDeclaration) : ObjectType :=
  if object.node.isAny then .any ⟨some object.description, .ok object.name, anyType⟩
  else
    .record ⟨object.description, object.name, object.node.properties.map (fieldOf comm object)⟩

/-- The declaration of an enumeration. -/
def enumOf (declared : EnumDeclaration) : Enumeration where
  doc := declared.description
  name := declared.name
  members := declared.values.map fun value => ⟨Naming.enumMember value, value⟩

/-- The type of a parameter. -/
def paramType (method : Method) (param : Param) : Derived :=
  typeOf comm (paramContext method.name param.name) param.schema

/-- The properties for the parameters of a method. -/
def paramFields (method : Method) : List Field :=
  method.params.map fun param =>
    ⟨param.description, .text param.name, !param.isRequired, paramType comm method param⟩

/-- The interface of the parameters of a method. -/
def paramsOf (method : Method) : Interface where
  doc := "Parameters for the " ++ Naming.pascalCase method.name ++ " method."
  name := Naming.paramsName method.name
  fields := paramFields comm method

/-- The type of what a method returns. -/
def resultOf (method : Method) : Derived :=
  match method.reply? with
  | some schema => typeOf comm (resultContext method.name) schema
  | none => .ok (.token "void")

/-- The messages to and from the backend. -/
def unions : Unions where
  requestDoc := "RPC request types for the " ++ comm.name ++ " comm"
  requestName := comm.typeName ++ "RpcRequest"
  requests := comm.backendMethods.map fun method =>
    ⟨method.name, if method.hasParams then some (Naming.paramsName method.name) else none⟩
  replyDoc := "RPC reply types for the " ++ comm.name ++ " comm"
  replyName := comm.typeName ++ "RpcReply"
  replies := (comm.backendMethods.filter Method.hasResult).map fun method =>
    ⟨method.name, resultOf comm method⟩

/-- The interface of what an event carries. -/
def eventOf (method : Method) : Interface where
  doc := "Event: " ++ method.summary
  name := Naming.pascalCase method.name ++ "Event"
  fields := paramFields comm method

/-- The enumeration of the events. -/
def eventNames : Enumeration where
  doc := "Front-end events for the " ++ comm.name ++ " comm"
  name := comm.typeName ++ "Event"
  members := comm.frontendMethods.map fun method => ⟨Naming.pascalCase method.name, method.name⟩

/-- The parameters of a client method. One that may be left out is only marked so where no later
one is required. -/
def parametersOf (method : Method) : List Param → List Parameter
  | [] => []
  | param :: rest =>
    let presence : Presence :=
      if param.isRequired then .required
      else if rest.any Param.isRequired then .orUndefined
      else .optional
    ⟨Naming.camelCase param.name, presence, paramType comm method param⟩ ::
      parametersOf method rest

/-- The client method for a request. -/
def callOf (method : Method) : Call where
  doc :=
    { summary := method.summary
      description := method.description
      params := method.params.map fun param =>
        (Naming.camelCase param.name, param.description)
      returns := method.reply?.bind Schema.description }
  name := Naming.camelCase method.name
  parameters := parametersOf comm method method.params
  result := resultOf comm method
  method := method.name
  wireNames := method.params.map Param.name
  arguments := method.params.map fun param => Naming.camelCase param.name

/-- The client member for an event. -/
def eventSourceOf (method : Method) : EventSource where
  doc := method.summary
  name := "onDid" ++ Naming.pascalCase method.name
  type := Naming.pascalCase method.name ++ "Event"
  method := method.name
  wireNames := method.params.map Param.name

/-- The client class. -/
def client : Client where
  doc := "Client for the " ++ comm.name ++ " comm"
  name := "Positron" ++ comm.typeName ++ "Comm"
  calls := comm.backendMethods.map (callOf comm)
  events := comm.frontendMethods.map eventSourceOf

/-- The text of a section. -/
def printSection : Section → Emission String Unit
  | .header => .emit (printHeader comm.provenance comm.frontend.isSome)
  | .aliases => Emission.forAll comm.aliases fun entry => (aliasOf comm entry).print
  | .objects => comm.objects.flatMap fun object => (objectOf comm object).print
  | .enums => comm.enums.flatMap fun declared => (enumOf declared).print
  | .paramRecords =>
    Emission.forAll comm.methodsWithParams fun method => (paramsOf comm method).print
  | .backendUnions => (unions comm).print
  | .frontendEvents => do
    Emission.forAll comm.frontendMethods fun method => (eventOf comm method).print
    (eventNames comm).print
  | .client => (client comm).print

/-- The name of the file. -/
def fileName : String := "positron" ++ comm.typeName ++ "Comm.ts"

end CommBindings.TypeScript
