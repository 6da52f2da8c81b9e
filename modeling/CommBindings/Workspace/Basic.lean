import CommBindings.Text.Utf8
import CommBindings.Workspace.FileError

set_option autoImplicit false

/-! # Workspaces

A workspace is a tree of directories and files, kept as a list of places with what stands there.
A place is the list of names from the root, which is always a directory. A path is walked name by
name to find the place that it means; every name before the last must be that of a directory.
-/

namespace CommBindings

/-- A place in a workspace: the names from the root on, without `..`. -/
abbrev Place := List String

/-- What stands at a place. -/
inductive Entry where
  | directory
  | file (content : ByteArray)

/-- Two files are equal if they have the same bytes. -/
instance : DecidableEq Entry
  | .directory, .directory => isTrue rfl
  | .directory, .file _ => isFalse (by simp)
  | .file _, .directory => isFalse (by simp)
  | .file a, .file b =>
    match ByteArray.instDecidableEq a b with
    | isTrue same => isTrue (by rw [same])
    | isFalse different => isFalse (by simpa using different)

/-- Whether an entry is a file. -/
def Entry.isFile : Entry → Bool
  | .file _ => true
  | .directory => false

/-- A tree of directories and files. -/
structure Workspace where
  entries : List (Place × Entry)

namespace Workspace

/-- The workspace with nothing but the root. -/
def empty : Workspace := ⟨[]⟩

/-- What stands at a place. -/
def entry? (w : Workspace) (place : Place) : Option Entry :=
  if place = [] then some .directory else w.entries.lookup place

/-- The workspace with something at a place. -/
def put (w : Workspace) (place : Place) (entry : Entry) : Workspace :=
  if (w.entries.lookup place).isSome then
    ⟨w.entries.map fun old => if old.1 = place then (place, entry) else old⟩
  else ⟨w.entries ++ [(place, entry)]⟩

/-- The workspace with nothing at a place. -/
def erase (w : Workspace) (place : Place) : Workspace :=
  ⟨w.entries.filter fun old => old.1 ≠ place⟩

/-- The longest name of an entry, in bytes. -/
def maxNameLength : Nat := 255

/-- The place to which a name leads from a place. -/
def enter (w : Workspace) (place : Place) (name : String) : Except FileCause Place :=
  match w.entry? place with
  | none => .error .missing
  | some (.file _) => .error .notDirectory
  | some .directory =>
    if name.utf8ByteSize > maxNameLength then .error .nameTooLong
    else if name = "" then .ok place
    else if name = ".." then .ok place.dropLast
    else .ok (place ++ [name])

/-- The place that names lead to, one after another. -/
def walkFrom (w : Workspace) (place : Place) : List String → Except FileCause Place
  | [] => .ok place
  | name :: rest =>
    match w.enter place name with
    | .error cause => .error cause
    | .ok next => w.walkFrom next rest

/-- The place that a path leads to. The path as a whole is looked at before its names are. -/
def walk (w : Workspace) (path : Path) : Except FileCause Place :=
  if path.holdsNul then .error .noPath
  else if path.isTooLong then .error .nameTooLong
  else w.walkFrom [] path.names

/-- The place that a path means. There may be nothing at it. -/
def locate (w : Workspace) (path : Path) : Except FileError Place :=
  match w.walk path with
  | .ok place => .ok place
  | .error cause => .error ⟨cause, path, none⟩

/-- What stands where a path leads; none if there is nothing, or no way to it, or no such path. -/
def status (w : Workspace) (path : Path) : Except FileError (Option Entry) :=
  match w.locate path with
  | .ok place => .ok (w.entry? place)
  | .error error =>
    match error.cause with
    | .missing | .notDirectory | .noPath => .ok none
    | _ => .error error

/-- Whether the path leads to a directory. -/
def isDirectory (w : Workspace) (path : Path) : Except FileError Bool :=
  (w.status path).map fun entry => entry = some .directory

/-- Whether the path leads to a file. -/
def isFile (w : Workspace) (path : Path) : Except FileError Bool :=
  (w.status path).map fun entry => (entry.map Entry.isFile).getD false

/-- The content of a file. -/
def read (w : Workspace) (path : Path) : Except FileError ByteArray := do
  let place ← w.locate path
  match w.entry? place with
  | some (.file content) => pure content
  | some .directory => .error ⟨.isDirectory, path, none⟩
  | none => .error ⟨.missing, path, none⟩

/-- The workspace after a file got a content. The file need not have been there, but its directory
must be. -/
def write (w : Workspace) (path : Path) (content : ByteArray) : Except FileError Workspace := do
  let place ← w.locate path
  match w.entry? place with
  | some .directory => .error ⟨.isDirectory, path, none⟩
  | _ => pure (w.put place (.file content))

/-- The workspace with a new directory, whose parent must be there. -/
def makeDirectory (w : Workspace) (path : Path) : Except FileError Workspace := do
  let place ← w.locate path
  match w.entry? place with
  | some _ => .error ⟨.alreadyThere, path, none⟩
  | none => pure (w.put place .directory)

/-- The workspace without a file. -/
def remove (w : Workspace) (path : Path) : Except FileError Workspace := do
  let place ← w.locate path
  match w.entry? place with
  | some (.file _) => pure (w.erase place)
  | some .directory => .error ⟨.isDirectory, path, none⟩
  | none => .error ⟨.missing, path, none⟩

/-- The workspace without a file, which need not have been there. -/
def removeIfThere (w : Workspace) (path : Path) : Except FileError Workspace :=
  match w.remove path with
  | .ok w' => .ok w'
  | .error error => if error.cause = .missing then .ok w else .error error

/-- The workspace after a file was moved to another path, in place of the file that is there. The
last name of a path must be a name of its own. -/
def move (w : Workspace) (source target : Path) : Except FileError Workspace :=
  let fail (cause : FileCause) : Except FileError Workspace := .error ⟨cause, source, some target⟩
  match w.walk source, w.walk target with
  | .error cause, _ => fail cause
  | _, .error cause => fail cause
  | .ok sourcePlace, .ok targetPlace =>
    if source.name = ".." || target.name = ".." then fail .busy
    else
      match w.entry? sourcePlace, w.entry? targetPlace with
      | none, _ => fail .missing
      | some _, some .directory => fail .isDirectory
      | some entry, _ => .ok ((w.erase sourcePlace).put targetPlace entry)

/-- The workspace with a directory that may have been there, if the attempt to make it failed for
any reason but a missing parent. -/
def acceptDirectory (w : Workspace) (path : Path) (error : FileError) :
    Except FileError Workspace := do
  if ← w.isDirectory path then pure w else .error error

/-- Makes a directory with the directories above it, as far as they are missing. What was made
stays made when a later step fails. -/
def makeDirectories (w : Workspace) (path : Path) : Workspace × Except FileError Unit :=
  match w.makeDirectory path with
  | .ok w' => (w', .ok ())
  | .error error =>
    if error.cause = .missing then
      if path.parent = path then (w, .error error)
      else
        match w.makeDirectories path.parent with
        | (w', .error above) => (w', .error above)
        | (w', .ok _) =>
          match w'.makeDirectory path with
          | .ok w'' => (w'', .ok ())
          | .error again =>
            if again.cause = .missing then (w', .error again)
            else (w', (w'.acceptDirectory path again).map fun _ => ())
    else (w, (w.acceptDirectory path error).map fun _ => ())
termination_by path.names.length
decreasing_by
  rename_i isLower
  exact Path.length_parent_lt isLower

/-- The names of the entries of a directory. -/
def children (w : Workspace) (place : Place) : List String :=
  w.entries.filterMap fun entry =>
    if entry.1.length = place.length + 1 && place.isPrefixOf entry.1 then entry.1.getLast? else none

/-- The workspace without a place and all that is below it. -/
def removeBelow (w : Workspace) (place : Place) : Workspace :=
  ⟨w.entries.filter fun entry => !place.isPrefixOf entry.1⟩

/-- The workspace without a file or a directory and all that is below it. -/
def removeAll (w : Workspace) (path : Path) : Except FileError Workspace := do
  let place ← w.locate path
  match w.entry? place with
  | some _ => pure (w.removeBelow place)
  | none => .error ⟨.missing, path, none⟩

end Workspace

end CommBindings
