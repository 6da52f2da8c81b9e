import CommBindings.Contract.Schema

set_option autoImplicit false

/-! # Contracts

A contract lists the methods of one direction of a comm and the schemas that they share. A comm
has a contract for the backend, one for the frontend, or both.
-/

namespace CommBindings

/-- The side to which the methods of a contract are sent. -/
inductive Direction where
  | backend
  | frontend
  deriving Repr, DecidableEq

/-- The word for a direction. -/
def Direction.word : Direction → String
  | backend => "backend"
  | frontend => "frontend"

/-- A named parameter of a method. -/
structure Param where
  name : String
  description : String
  schema : Schema
  isRequired : Bool

/-- A method that a contract declares. -/
structure Method where
  name : String
  summary : String
  description : Option String
  params : List Param
  result : Option Schema

/-- Whether the schema says that nothing is returned. -/
def Schema.isNull : Schema → Bool
  | .primitive .null _ => true
  | _ => false

namespace Method

/-- The schema of the reply, if the method replies with a value. -/
def reply? (m : Method) : Option Schema := m.result.filter fun schema => !schema.isNull

/-- Whether the method replies with a value. -/
def hasResult (m : Method) : Bool := m.reply?.isSome

/-- Whether the method takes parameters. -/
def hasParams (m : Method) : Bool := !m.params.isEmpty

end Method

/-- One direction of a comm. `document` is what the contract was read from; references are
resolved in it. -/
structure Contract where
  direction : Direction
  source : String
  methods : List Method
  schemas : List (Key × Schema)
  document : Mapping

/-- The contracts that share one name. There is at least one. -/
structure Comm where
  name : String
  backend : Option Contract
  frontend : Option Contract
  hasContract : (backend.isSome || frontend.isSome) = true

namespace Comm

/-- A comm with the given contracts, if there are any. -/
def ofContracts (name : String) (backend frontend : Option Contract) : Except Fault Comm :=
  if h : (backend.isSome || frontend.isSome) = true then .ok ⟨name, backend, frontend, h⟩
  else .error (.commWithoutContract name)

/-- The contracts in the order in which references are resolved and files are written. -/
def contracts (comm : Comm) : List Contract := comm.backend.toList ++ comm.frontend.toList

/-- The names of the documents, as far as they are known. -/
def sources (comm : Comm) : List String :=
  (comm.contracts.map Contract.source).filter fun source => source ≠ ""

/-- The methods of the backend. -/
def backendMethods (comm : Comm) : List Method := (comm.backend.map Contract.methods).getD []

/-- The methods of the frontend. -/
def frontendMethods (comm : Comm) : List Method := (comm.frontend.map Contract.methods).getD []

end Comm

namespace Param

/-- Whether a param is required: so it is unless its flag says otherwise; `none` is no flag. -/
def readFlag? : Option Value → Option Bool
  | none => some true
  | some (.scalar (.bool b)) => some b
  | some _ => none

/-- Reads a param of a method. -/
def read (source : String) (method : String) (raw : Value) : Except Fault Param :=
  match raw.entries? with
  | none => violate .paramIsMapping (.text method) (some source)
  | some m =>
    match m.prose? "name" with
    | none => violate .paramHasName (.text method) (some source)
    | some name =>
      match m.prose? "description" with
      | none => violate (.paramIsDescribed method name) .null (some source)
      | some description =>
        match m.get? "schema" with
        | none => violate (.paramHasSchema method name) .null (some source)
        | some rawSchema =>
          match readFlag? (m.get? "required") with
          | none => violate .requiredIsBoolean (.text (method ++ "." ++ name)) (some source)
          | some isRequired => do
            let schema ← Schema.read (some source) (.text (method ++ "." ++ name)) rawSchema
            pure ⟨name, description, schema, isRequired⟩

end Param

/-- The first text of a list that stands in it before. -/
def firstRepeated? (seen : List String) : List String → Option String
  | [] => none
  | name :: rest => if seen.contains name then some name else firstRepeated? (name :: seen) rest

namespace Method

/-- Reads the schema of a result, if there is one. -/
def readResult (source : String) (method : String) (raw : Option Value) :
    Except Fault (Option Schema) :=
  match (raw.bind Value.entries?).bind fun m => m.get? "schema" with
  | none => .ok none
  | some rawSchema =>
    (Schema.read (some source) (.text (method ++ ".result")) rawSchema).map some

/-- Reads a method. -/
def read (source : String) (raw : Value) : Except Fault Method :=
  match raw.entries? with
  | none => violate .methodIsMapping .null (some source)
  | some m =>
    match m.prose? "name" with
    | none => violate .methodHasName .null (some source)
    | some name =>
      match m.prose? "summary" with
      | none => violate (.methodIsDescribed name) .null (some source)
      | some summary =>
        match Schema.optionalItems? (m.get? "params") with
        | none => violate .paramsAreList (.text name) (some source)
        | some rawParams => do
          let params ← rawParams.mapM (Param.read source name)
          match firstRepeated? [] (params.map Param.name) with
          | some param => violate (.paramIsUnique param) (.text name) (some source)
          | none => do
            let result ← readResult source name (m.get? "result")
            pure ⟨name, summary, m.prose? "description", params, result⟩

end Method

namespace Contract

/-- The raw shared schemas of a document; a document may do without them. -/
def rawSchemas (document : Mapping) : Option Value :=
  match (document.get? "components").bind Value.entries? with
  | none => none
  | some components =>
    match components.get? "schemas" with
    | some (.scalar .null) => none
    | schemas => schemas

/-- Reads the shared schemas. -/
def readSchemas (source : String) : List (Key × Value) → Except Fault (List (Key × Schema))
  | [] => .ok []
  | (key, raw) :: rest => do
    let schema ← Schema.read (some source) key raw
    let others ← readSchemas source rest
    pure ((key, schema) :: others)

/-- Reads a document as the contract of a direction. -/
def read (direction : Direction) (source : String) (document : Mapping) :
    Except Fault Contract :=
  match (document.get? "methods").bind Value.items? with
  | none => violate .contractHasMethods .null (some source)
  | some rawMethods => do
    let methods ← rawMethods.mapM (Method.read source)
    match firstRepeated? [] (methods.map Method.name) with
    | some method => violate (.methodIsUnique method) .null (some source)
    | none =>
      match rawSchemas document with
      | none => pure ⟨direction, source, methods, [], document⟩
      | some (.mapping entries _) => do
        let schemas ← readSchemas source entries
        pure ⟨direction, source, methods, schemas, document⟩
      | some _ => violate .schemasAreMapping .null (some source)

end Contract

end CommBindings
