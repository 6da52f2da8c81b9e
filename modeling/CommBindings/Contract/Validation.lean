import CommBindings.Contract.Traversal

set_option autoImplicit false

/-! # Validation

A comm is checked as a whole before anything is written for it: every reference must lead
somewhere, and every object must have a description. Two objects that differ but share a name get
a warning; the first of them is the one that is declared.
-/

namespace CommBindings

mutual

/-- Whether two schemas are equal, the order of properties aside. -/
def Schema.sameAs : Schema → Schema → Bool
  | .primitive kind description, .primitive kind' description' =>
    kind = kind' && description = description'
  | .array items description, .array items' description' =>
    items.sameAs items' && description = description'
  | .object node, .object node' => node.sameAs node'
  | .enumeration values description, .enumeration values' description' =>
    values = values' && description = description'
  | .reference pointer description, .reference pointer' description' =>
    pointer = pointer' && description = description'
  | _, _ => false

/-- Whether two objects are equal, the order of properties aside. -/
def ObjectSchema.sameAs : ObjectSchema → ObjectSchema → Bool
  | ⟨name, description, properties, required, additional⟩, other =>
    name = other.name && description = other.description && required = other.required &&
      additional = other.additional && properties.length = other.properties.length &&
      propertiesIn properties other.properties

/-- Whether each of the properties is also among the others. -/
def propertiesIn : List (Key × Schema) → List (Key × Schema) → Bool
  | [], _ => true
  | (key, schema) :: rest, others =>
    (match lookupEntry others key with
      | some other => schema.sameAs other
      | none => false) && propertiesIn rest others

end

/-- The first object with a name, and the source that it is from. -/
structure FirstObject where
  name : String
  source : String
  node : ObjectSchema

/-- The source of an object in a message: its document, or the comm where that is not known. -/
def sourceShown (comm source : String) : String := if source = "" then comm else source

/-- The warning about an object that differs from the first with its name. -/
def collisionWarning (comm name source firstSource : String) : String :=
  "Object '" ++ name ++ "' in " ++ sourceShown comm source ++
    " differs from the declaration in " ++ sourceShown comm firstSource ++ "; keeping the first"

/-- A fault with the source of the contract it was found in, unless it has a source already. -/
def Fault.inSource (fault : Fault) (source : String) : Fault :=
  if fault.isContractFault && fault.source.isNone && source ≠ "" then
    .located fault.message source
  else fault

/-- Checks that a reference leads somewhere and that an object has a description. -/
def checkNode (contracts : List Contract) (node : Node) : Except Fault Unit :=
  match node.schema with
  | .reference pointer _ => (resolveReference contracts pointer).map fun _ => ()
  | .object object => (describeObject node.context object).map fun _ => ()
  | _ => .ok ()

/-- Checks one node of a contract, after the objects that have been seen before. The result is the
objects seen so far and the warnings. -/
def validateNode (comm : Comm) (source : String) (seen : List FirstObject) (node : Node) :
    Except Fault (List FirstObject × List String) :=
  match checkNode comm.contracts node with
  | .error fault => .error (fault.inSource source)
  | .ok _ =>
    match node.object? with
    | none => .ok (seen, [])
    | some object => do
      let name ← objectName node.context object
      match seen.find? (·.name = name) with
      | none => pure (seen ++ [⟨name, source, object⟩], [])
      | some first =>
        if first.node.sameAs object then pure (seen, [])
        else pure (seen, [collisionWarning comm.name name source first.source])

/-- Checks nodes one after another. -/
def validateNodes (comm : Comm) (source : String) (seen : List FirstObject) :
    List Node → Except Fault (List FirstObject × List String)
  | [] => .ok (seen, [])
  | node :: rest => do
    let (seen, warnings) ← validateNode comm source seen node
    let (seen, others) ← validateNodes comm source seen rest
    pure (seen, warnings ++ others)

/-- Checks contracts one after another. -/
def validateContracts (comm : Comm) (seen : List FirstObject) :
    List Contract → Except Fault (List String)
  | [] => .ok []
  | contract :: rest => do
    let (seen, warnings) ← validateNodes comm contract.source seen contract.nodes.items
    contract.nodes.outcome
    let others ← validateContracts comm seen rest
    pure (warnings ++ others)

/-- Checks a comm. The result is the warnings, in the order of the nodes. -/
def validate (comm : Comm) : Except Fault (List String) := validateContracts comm [] comm.contracts

end CommBindings
