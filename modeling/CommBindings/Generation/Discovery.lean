import CommBindings.Contract.Basic
import CommBindings.Workspace.Basic

set_option autoImplicit false

/-! # Discovery of comms

The contract documents in a directory are told by their names: the name of the comm, the direction
and the format, as in `plot-backend-openrpc.json`. Documents for the two directions of one comm
belong together.
-/

namespace CommBindings

/-- The contract documents of a comm. -/
structure CommDocuments where
  name : String
  backend : Option Path
  frontend : Option Path
  deriving Repr, DecidableEq

namespace CommDocuments

/-- The document for a direction. -/
def document? (d : CommDocuments) : Direction → Option Path
  | .backend => d.backend
  | .frontend => d.frontend

/-- The documents with one for a direction. -/
def withDocument (d : CommDocuments) (direction : Direction) (path : Path) : CommDocuments :=
  match direction with
  | .backend => { d with backend := some path }
  | .frontend => { d with frontend := some path }

end CommDocuments

namespace Discovery

/-- How the names of contract documents end, after the name of the comm and the direction. -/
def endings : List String := ["-openrpc.json", "-openrpc.yaml", "-openrpc.yml"]

/-- What stands before an ending, if there is anything. -/
def beforeEnding? (ending name : List Char) : Option (List Char) :=
  if ending.isSuffixOf name && ending.length < name.length then
    some (name.take (name.length - ending.length))
  else none

/-- The comm of a document for a direction, told by the name of the document. -/
def commOf? (direction : Direction) (fileName : String) : Option String :=
  endings.findSome? fun ending =>
    (beforeEnding? ("-" ++ direction.word ++ ending).toList fileName.toList).map String.ofList

/-- The comm and the direction of a document. Names with a line feed are not considered. -/
def classify? (fileName : String) : Option (String × Direction) :=
  if fileName.toList.contains '\n' then none
  else [Direction.frontend, Direction.backend].findSome? fun direction =>
    (commOf? direction fileName).map fun comm => (comm, direction)

/-- The documents of a comm that were found so far. -/
def documentsOf (found : List CommDocuments) (comm : String) : CommDocuments :=
  (found.find? fun d => d.name = comm).getD ⟨comm, none, none⟩

/-- Puts the documents of a comm in the place of those that were there before. -/
def insert (found : List CommDocuments) (documents : CommDocuments) : List CommDocuments :=
  if found.any fun d => d.name = documents.name then
    found.map fun d => if d.name = documents.name then documents else d
  else found ++ [documents]

/-- Adds a document to those found so far. A comm has but one for each direction. -/
def add (found : List CommDocuments) (path : Path) : Except Fault (List CommDocuments) :=
  match classify? path.name with
  | none => .ok found
  | some (comm, direction) =>
    let documents := documentsOf found comm
    match documents.document? direction with
    | some other => .error (.duplicateContract direction.word other.name path.text)
    | none => .ok (insert found (documents.withDocument direction path))

/-- The names of the files in a directory, in order. -/
def fileNames (w : Workspace) (directory : Place) : List String :=
  let isFile := fun name => ((w.entry? (directory ++ [name])).map Entry.isFile).getD false
  Schema.sortedTexts ((w.children directory).filter isFile)

end Discovery

/-- The documents of all comms in a directory, in the order of their names. -/
def discover (w : Workspace) (directory : Path) : Except Fault (List CommDocuments) :=
  match w.isDirectory directory with
  | .error error => .error (.file error)
  | .ok false => .error (.commsDirectoryMissing directory.text)
  | .ok true =>
    match w.locate directory with
    | .error error => .error (.file error)
    | .ok place => do
      let files := (Discovery.fileNames w place).map directory.child
      let found ← files.foldlM Discovery.add []
      pure (found.mergeSort fun a b => decide (a.name ≤ b.name))

end CommBindings
