import CommBindings.Contract.Traversal

set_option autoImplicit false

/-! # The outline of a generated file

All targets declare the same things in the same order: aliases for shared schemas, objects,
enumerations, and the parameters of methods; then come the messages of the two directions and the
client. An object or an enumeration is declared where its name occurs first.
-/

namespace CommBindings

/-- The sections of a generated file, in their order. -/
inductive Section where
  | header
  | aliases
  | objects
  | enums
  | paramRecords
  | backendUnions
  | frontendEvents
  | client
  deriving Repr, DecidableEq

/-- An object to be declared. -/
structure ObjectDeclaration where
  name : String
  description : String
  node : ObjectSchema

/-- An enumeration to be declared. -/
structure EnumDeclaration where
  name : String
  description : String
  values : List String

/-- Declares nodes under their names, each name once. `seen` are the names declared before; the
result is the names declared in the end. A node without a name is no concern here. -/
def declareFirst {δ : Type} (nameOf : Node → Option (Except Fault String))
    (declaration : Node → String → Except Fault δ) (seen : List String) :
    List Node → Emission δ (List String)
  | [] => .result seen
  | node :: rest =>
    match nameOf node with
    | none => declareFirst nameOf declaration seen rest
    | some named => do
      let name ← Emission.require named
      if seen.contains name then declareFirst nameOf declaration seen rest
      else do
        let declared ← Emission.require (declaration node name)
        .emit declared
        declareFirst nameOf declaration (name :: seen) rest

/-- Declares the nodes of contracts, one contract after another. -/
def declareAll {δ : Type} (nameOf : Node → Option (Except Fault String))
    (declaration : Node → String → Except Fault δ) (seen : List String) :
    List Contract → Emission δ Unit
  | [] => .result ()
  | contract :: rest => do
    let seen ← declareFirst nameOf declaration seen contract.nodes.items
    Emission.require contract.nodes.outcome
    declareAll nameOf declaration seen rest

/-- The name of the type for the object at a node, if there is an object. -/
def Node.objectName? (node : Node) : Option (Except Fault String) :=
  node.object?.map (objectName node.context)

/-- The name of the type for the enumeration at a node, if there is an enumeration. -/
def Node.enumName? (node : Node) : Option (Except Fault String) :=
  node.values?.map fun _ => enumName node.context

/-- The declaration of the object at a node. -/
def Node.declareObject (node : Node) (name : String) : Except Fault ObjectDeclaration :=
  match node.schema with
  | .object object => do
    let description ← describeObject node.context object
    pure ⟨name, description, object⟩
  | _ => .error .emptyContext

/-- The declaration of the enumeration at a node. -/
def Node.declareEnum (node : Node) (name : String) : Except Fault EnumDeclaration := do
  let description ← describeEnum node.context
  pure ⟨name, description, node.values?.getD []⟩

/-- Whether a shared schema is declared as an alias; objects and enumerations have declarations of
their own. -/
def Schema.isAliased : Schema → Bool
  | .object _ | .enumeration _ _ => false
  | _ => true

namespace Comm

/-- The shared schemas that are declared as aliases. -/
def aliases (comm : Comm) : List (Key × Schema) :=
  comm.contracts.flatMap fun contract => contract.schemas.filter fun entry => entry.2.isAliased

/-- The objects to be declared. -/
def objects (comm : Comm) : Emission ObjectDeclaration Unit :=
  declareAll Node.objectName? Node.declareObject [] comm.contracts

/-- The enumerations to be declared. -/
def enums (comm : Comm) : Emission EnumDeclaration Unit :=
  declareAll Node.enumName? Node.declareEnum [] comm.contracts

/-- The methods whose parameters are declared as a record. -/
def methodsWithParams (comm : Comm) : List Method :=
  (comm.backendMethods ++ comm.frontendMethods).filter Method.hasParams

/-- The name of the comm in type names. -/
def typeName (comm : Comm) : String := Naming.pascalCase comm.name

/-- The documents that a generated file names as its origin. -/
def provenance (comm : Comm) : String :=
  " and ".intercalate (if comm.sources.isEmpty then [comm.name] else comm.sources)

/-- The sections that a file for the comm has. -/
def sections (comm : Comm) : List Section :=
  [.header, .aliases, .objects, .enums, .paramRecords] ++
    (if comm.backend.isSome then [.backendUnions] else []) ++
    (if comm.frontend.isSome then [.frontendEvents] else []) ++ [.client]

end Comm

end CommBindings
