import CommBindings.Document.Display
import CommBindings.Text.Blank
import CommBindings.Text.Utf8
import CommBindings.Workspace.FileError

set_option autoImplicit false

/-! # Faults

Everything that can go wrong, by its cause. A *contract fault* says that a document breaks a rule
and names the document where it is known; a *reported* fault ends the work on one comm and leaves
the others alone. The message of a fault is put together here and nowhere else.
-/

namespace CommBindings

/-- The rules that an author of contracts can break. -/
inductive Rule where
  | schemaIsMapping
  | arrayHasItems
  | referenceIsText
  | enumerationIsList
  | enumerationHasTexts
  | schemaHasKind
  | objectNameIsText
  | propertiesAreMapping
  | propertyIsDescribed
  | requiredIsList
  | objectHasProperties
  | paramIsMapping
  | paramHasName
  | paramIsDescribed (method param : String)
  | paramHasSchema (method param : String)
  | requiredIsBoolean
  | methodIsMapping
  | methodHasName
  | methodIsDescribed (method : String)
  | paramsAreList
  | paramIsUnique (param : String)
  | contractHasMethods
  | methodIsUnique (method : String)
  | schemasAreMapping
  | objectIsNamed
  | enumerationIsNamed
  | objectIsDescribed
  deriving Repr, DecidableEq

/-- What is said of a broken rule. -/
def Rule.message : Rule → String
  | schemaIsMapping => "schema must be a mapping"
  | arrayHasItems => "array schema has no 'items'"
  | referenceIsText => "'$ref' must be a non-empty string"
  | enumerationIsList => "'enum' must be a non-empty list"
  | enumerationHasTexts => "only string enums are supported"
  | schemaHasKind => "schema has no 'type', '$ref' or 'enum'"
  | objectNameIsText => "object 'name' must be a non-empty string"
  | propertiesAreMapping => "'properties' must be a mapping"
  | propertyIsDescribed => "No description for the value; please add a description to the schema"
  | requiredIsList => "'required' must be a list"
  | objectHasProperties => "No properties; please add properties to the schema"
  | paramIsMapping => "param must be a mapping"
  | paramHasName => "param has no name"
  | paramIsDescribed method param =>
    "No description for '" ++ method ++ "' parameter '" ++ param ++
      "'; please add a description to the schema"
  | paramHasSchema method param => "No schema for '" ++ method ++ "' parameter '" ++ param ++ "'"
  | requiredIsBoolean => "'required' must be a boolean"
  | methodIsMapping => "method must be a mapping"
  | methodHasName => "method has no name"
  | methodIsDescribed method =>
    "No description for '" ++ method ++ "'; please add a description to the schema"
  | paramsAreList => "'params' must be a list"
  | paramIsUnique param => "duplicate parameter '" ++ param ++ "'"
  | contractHasMethods => "contract must provide a 'methods' list"
  | methodIsUnique method => "duplicate method '" ++ method ++ "'"
  | schemasAreMapping => "'components.schemas' must be a mapping"
  | objectIsNamed => "object has no name and no enclosing key to name it"
  | enumerationIsNamed => "enum has no enclosing key to name it"
  | objectIsDescribed => "No description; please add a description to the schema"

/-- The causes of failure. -/
inductive Fault where
  /-- A document breaks a rule at a field, if the field is known. -/
  | violation (rule : Rule) (field : Key) (source : Option String)
  /-- A schema names a type that has no mapping. -/
  | unmappedType (type place : String) (source : Option String)
  /-- No contract holds the target of a reference. -/
  | unresolvedReference (pointer : String) (source : Option String)
  /-- A fault found without a source, after its source was added. -/
  | located (message source : String)
  | commWithoutContract (comm : String)
  | unreadable (error : ReadFailure) (path : String)
  | invalidJson (detail path : String)
  | invalidYaml (path : String)
  | documentIsNoMapping (path : String)
  | duplicateContract (direction other path : String)
  | unknownComms (names : List String) (directory : String)
  /-- The formatter could not be run on a file, or did not accept it. -/
  | formatterFailed (path : String) (code : Int) (output : String)
  | rustDirectoryMissing (path : String)
  | formatterUnavailable (reason : String)
  | commsDirectoryMissing (path : String)
  | file (error : FileError)
  | undecodable (error : Utf8.Malformed)
  /-- A name was to be formed from a key that is no text. -/
  | unnameable (key : Key)
  | overlongInteger
  | malformedScalar (problem : ScalarProblem)
  | emptyContext
  | tokenMissing (key : String)
  | tableIncomplete (table : String) (missing : List String)
  | invalidWidth
  | invalidWorkerCount
  | unknownTarget (name : String)
  | endlessAlias
  /-- An option of the command line was given without the value that it needs. -/
  | optionWithoutValue (option : String)
  deriving Repr, DecidableEq

namespace Fault

/-- The message with the document it is about in front, if that is known. -/
def withSource (source : Option String) (message : String) : String :=
  match source with
  | some path => if path = "" then message else "[" ++ path ++ "] " ++ message
  | none => message

/-- The message with the field it is about in front, if there is one. -/
def withField (field : Key) (message : String) : String :=
  if field.isVoid then message else "Field '" ++ field.display?.getD "" ++ "': " ++ message

/-- A list of texts as messages show it. -/
def shownTexts (texts : List String) : String :=
  "[" ++ ", ".intercalate (texts.map Text.Quoted.shown) ++ "]"

/-- The message of a fault, without the document it is about. -/
def detail : Fault → String
  | violation rule field _ => withField field rule.message
  | unmappedType type place _ => "No type mapping for '" ++ type ++ "' (" ++ place ++ ")"
  | unresolvedReference pointer _ => "Could not find ref: " ++ pointer
  | located message _ => message
  | commWithoutContract comm =>
    "Comm '" ++ comm ++ "' has neither a frontend nor a backend contract"
  | unreadable error _ => "Failed to read contract file: " ++ error.message
  | invalidJson detail _ => "Invalid JSON: " ++ detail
  | invalidYaml _ => "Invalid YAML"
  | documentIsNoMapping _ => "Contract root must be a mapping"
  | duplicateContract direction other _ =>
    "Duplicate " ++ direction ++ " contract (also " ++ other ++ ")"
  | unknownComms names _ =>
    "No contract documents found for comm(s): " ++ ", ".intercalate names
  | formatterFailed path code output =>
    let trimmed := String.ofList (Text.trim output.toList)
    "Formatter failed on " ++ path ++ " (exit " ++ toString code ++ ")" ++
      (if trimmed = "" then "" else ": " ++ trimmed)
  | rustDirectoryMissing path =>
    "Rust output directory '" ++ path ++
      "' does not exist; is the amalthea project checked out next to this one?"
  | formatterUnavailable reason => "Formatter '-m black' is not available: " ++ reason
  | commsDirectoryMissing path => "Comms directory '" ++ path ++ "' does not exist"
  | file error => error.message
  | undecodable error => error.message
  | unnameable _ => "a name must be a text"
  | overlongInteger => "an integer has too many digits"
  | malformedScalar _ => "a scalar does not fit its tag"
  | emptyContext => "there is no enclosing key"
  | tokenMissing key => "the type table has no entry for '" ++ key ++ "'"
  | tableIncomplete table missing => table ++ " type table is missing " ++ shownTexts missing
  | invalidWidth => "the width leaves no room"
  | invalidWorkerCount => "the number of workers must be positive"
  | unknownTarget name => "there is no target '" ++ name ++ "'"
  | endlessAlias => "an alias leads back to itself"
  | optionWithoutValue option => "the option " ++ option ++ " has no value"

/-- Whether the fault is about contracts: their discovery, their reading or a rule they break. -/
def isContractFault : Fault → Bool
  | violation _ _ _ | unmappedType _ _ _ | unresolvedReference _ _ | located _ _
  | commWithoutContract _ | unreadable _ _ | invalidJson _ _ | invalidYaml _
  | documentIsNoMapping _ | duplicateContract _ _ _ | unknownComms _ _ => true
  | _ => false

/-- The document that a contract fault is about, where it is known. -/
def source : Fault → Option String
  | violation _ _ source | unmappedType _ _ source | unresolvedReference _ source => source
  | located _ source => some source
  | unreadable _ path | invalidJson _ path | invalidYaml path | documentIsNoMapping path
  | duplicateContract _ _ path => some path
  | unknownComms _ directory => some directory
  | _ => none

/-- The message of a fault. -/
def message (fault : Fault) : String := withSource fault.source fault.detail

/-- Whether the fault ends the work on one comm only. -/
def isReported : Fault → Bool
  | formatterFailed _ _ _ | commsDirectoryMissing _ => true
  | file error => error.isFound
  | fault => fault.isContractFault

/-- The fault of a file that could not be read. -/
def ofReading : ReadFailure → Fault
  | .file error => file error
  | .undecodable error => undecodable error

/-- Whether the fault says that something does not exist. -/
def isMissingFile : Fault → Bool
  | commsDirectoryMissing _ => true
  | file e => e.cause = .missing
  | _ => false

end Fault

/-- Fails with a broken rule at a field. -/
def violate {α : Type} (rule : Rule) (field : Key) (source : Option String) : Except Fault α :=
  if !field.isVoid && field.display?.isNone then .error .overlongInteger
  else .error (.violation rule field source)

/-- The text of a key, where names and messages need it. -/
def Scalar.label (key : Key) : Except Fault String :=
  match key.display? with
  | some shown => .ok shown
  | none => .error .overlongInteger

/-- The text of a value, where names and messages need it. -/
def Value.label (value : Value) : Except Fault String :=
  match value.display? with
  | some shown => .ok shown
  | none => .error .overlongInteger

end CommBindings
