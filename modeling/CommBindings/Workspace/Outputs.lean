import CommBindings.Workspace.Basic

set_option autoImplicit false

/-! # Writing files together

Several files are written so that either all of them get their new content or none does. Each is
first staged beside its target; only when all are staged, they are moved into place, and if a move
fails the files that were replaced before get their old content back.
-/

namespace CommBindings

/-- A file to be written. -/
structure OutputFile where
  path : Path
  content : String
  deriving DecidableEq

namespace Outputs

/-- The path at which a file is staged. -/
def stagingPath (path : Path) : Path := path.withName (path.name ++ ".tmp")

/-- Stages files one after another. The result is the targets whose staging was begun, and how it
ended. The root has no name beside which a file could be staged. -/
def stage (w : Workspace) : List OutputFile → Workspace × List Path × Except FileError Unit
  | [] => (w, [], .ok ())
  | file :: rest =>
    match w.makeDirectories file.path.parent with
    | (w, .error error) => (w, [], .error error)
    | (w, .ok _) =>
      if file.path.name = "" then (w, [], .error ⟨.noPath, file.path, none⟩)
      else
        match w.write (stagingPath file.path) (Utf8.encode file.content) with
        | .error error => (w, [file.path], .error error)
        | .ok w =>
          let (w, begun, outcome) := stage w rest
          (w, file.path :: begun, outcome)

/-- The content of a file, if the path leads to one. -/
def previous (w : Workspace) (path : Path) : Except FileError (Option ByteArray) := do
  if ← w.isFile path then (w.read path).map some else pure none

/-- Gives a file its old content back, or removes it if it was not there. -/
def restore (w : Workspace) (path : Path) : Option ByteArray → Except FileError Workspace
  | none => w.removeIfThere path
  | some content => w.write path content

/-- Undoes replacements, the last first. -/
def rollBack (w : Workspace) : List (Path × Option ByteArray) → Workspace × Except FileError Unit
  | [] => (w, .ok ())
  | (path, content) :: rest =>
    match restore w path content with
    | .error error => (w, .error error)
    | .ok w => rollBack w rest

/-- Replaces one target by its staged file. The result holds what the target was before. -/
def replace (w : Workspace) (target : Path) :
    Except FileError (Workspace × Path × Option ByteArray) := do
  let content ← previous w target
  let w ← w.move (stagingPath target) target
  pure (w, target, content)

/-- Replaces targets by their staged files, one after another. `done` are the targets replaced
before, the last first. If one fails, all that were replaced are undone. -/
def replaceAll (w : Workspace) (done : List (Path × Option ByteArray)) :
    List Path → Workspace × Except FileError Unit
  | [] => (w, .ok ())
  | target :: rest =>
    match replace w target with
    | .ok (w, replaced) => replaceAll w (replaced :: done) rest
    | .error error =>
      match rollBack w done with
      | (w, .ok _) => (w, .error error)
      | (w, .error worse) => (w, .error worse)

/-- Removes staged files, as far as they are still there. -/
def cleanUp (w : Workspace) : List Path → Workspace × Except FileError Unit
  | [] => (w, .ok ())
  | target :: rest =>
    match w.removeIfThere (stagingPath target) with
    | .error error => (w, .error error)
    | .ok w => cleanUp w rest

/-- Writes files together. A failure of the cleaning up hides an earlier one. -/
def write (w : Workspace) (files : List OutputFile) : Workspace × Except FileError Unit :=
  let (w, begun, staged) := stage w files
  let (w, outcome) := match staged with
    | .ok _ => replaceAll w [] begun
    | .error error => (w, .error error)
  match cleanUp w begun with
  | (w, .ok _) => (w, outcome)
  | (w, .error error) => (w, .error error)

end Outputs

namespace Workspace

/-- The text of a file, with its line ends read as line feeds. -/
def readText (w : Workspace) (path : Path) : Except ReadFailure String :=
  match w.read path with
  | .error error => .error (.file error)
  | .ok content =>
    match Utf8.decodeLines content with
    | .ok text => .ok text
    | .error error => .error (.undecodable error)

end Workspace

/-- Whether the file on disk has the content already. A file that cannot be read has not, but one
that is no text is a failure, and so is a path that is none. -/
def OutputFile.isCurrent (file : OutputFile) (w : Workspace) : Except ReadFailure Bool :=
  match w.readText file.path with
  | .ok text => .ok (text = file.content)
  | .error (.file error) => if error.isFound then .ok false else .error (.file error)
  | .error (.undecodable error) => .error (.undecodable error)

end CommBindings
