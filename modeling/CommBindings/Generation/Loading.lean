import CommBindings.Document.Json
import CommBindings.Document.Yaml.Reading
import CommBindings.Generation.Discovery
import CommBindings.Text.LetterCase
import CommBindings.Workspace.Outputs

set_option autoImplicit false

/-! # Loading contracts

A contract document is a JSON text unless its suffix says that it is YAML, and its root is a
mapping.
-/

namespace CommBindings

namespace Loading

/-- The suffixes of YAML documents. -/
def yamlSuffixes : List String := [".yaml", ".yml"]

/-- Whether a document is written in YAML. -/
def isYaml (path : Path) : Bool := yamlSuffixes.contains (Text.lower path.suffix)

/-- Reads a YAML text. -/
def readYaml (path : Path) (text : List Char) : Except Fault Value :=
  match Yaml.read text with
  | .ok value => .ok value
  | .error .invalid => .error (.invalidYaml path.text)
  | .error (.scalar problem) => .error (.malformedScalar problem)
  | .error .endlessAlias => .error .endlessAlias
  | .error .overlongInteger => .error .overlongInteger

/-- Reads a JSON text. -/
def readJson (path : Path) (text : List Char) : Except Fault Value :=
  match Json.read text with
  | .ok value => .ok value
  | .error (.problem problem remaining) =>
    .error (.invalidJson (Json.problemMessage text problem remaining) path.text)
  | .error .overlongInteger => .error .overlongInteger

/-- The value of a document. -/
def readValue (path : Path) (text : List Char) : Except Fault Value :=
  if isYaml path then readYaml path text else readJson path text

end Loading

/-- The fault of a document that cannot be read. It is not about the contract if the path is
none. -/
def Loading.unreadable (path : Path) (failure : ReadFailure) : Fault :=
  match failure with
  | .file error => if error.isFound then .unreadable failure path.text else .file error
  | .undecodable _ => .unreadable failure path.text

/-- Loads a contract document. -/
def loadDocument (w : Workspace) (path : Path) : Except Fault Mapping :=
  match w.readText path with
  | .error failure => .error (Loading.unreadable path failure)
  | .ok text => do
    match (← Loading.readValue path text.toList).entries? with
    | some entries => pure entries
    | none => .error (.documentIsNoMapping path.text)

/-- Loads the contract of a direction, if there is a document for it. -/
def loadContract (w : Workspace) (direction : Direction) (path : Option Path) :
    Except Fault (Option Contract) :=
  match path with
  | none => .ok none
  | some path => do
    let document ← loadDocument w path
    (Contract.read direction path.name document).map some

/-- Loads a comm. The frontend is loaded first. -/
def loadComm (w : Workspace) (documents : CommDocuments) : Except Fault Comm := do
  let frontend ← loadContract w .frontend documents.frontend
  let backend ← loadContract w .backend documents.backend
  Comm.ofContracts documents.name backend frontend

end CommBindings
