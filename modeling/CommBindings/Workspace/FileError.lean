import CommBindings.Text.Utf8
import CommBindings.Workspace.Path

set_option autoImplicit false

/-! # File errors

Why an operation on files failed, and on which paths.
-/

namespace CommBindings

/-- Why an operation on files failed. The last cause is a fault of the path itself, which is none
if it holds the character NUL; the others are found in the workspace. -/
inductive FileCause where
  | missing
  | busy
  | alreadyThere
  | notDirectory
  | isDirectory
  | nameTooLong
  | noPath
  deriving Repr, DecidableEq

/-- The number of a cause. -/
def FileCause.number : FileCause → Nat
  | missing => 2
  | busy => 16
  | alreadyThere => 17
  | notDirectory => 20
  | isDirectory => 21
  | nameTooLong => 36
  | noPath => 22

/-- The wording of a cause. -/
def FileCause.wording : FileCause → String
  | missing => "No such file or directory"
  | busy => "Device or resource busy"
  | alreadyThere => "File exists"
  | notDirectory => "Not a directory"
  | isDirectory => "Is a directory"
  | nameTooLong => "File name too long"
  | noPath => "Invalid argument"

/-- A failed operation on one path, or on two where something was to be moved. -/
structure FileError where
  cause : FileCause
  path : Path
  target : Option Path
  deriving Repr, DecidableEq

/-- Whether the failure was found in the workspace, not in the path itself. -/
def FileError.isFound (e : FileError) : Bool := e.cause ≠ .noPath

/-- The text of a file error. -/
def FileError.message (e : FileError) : String :=
  let target := match e.target with
    | some path => " -> " ++ Text.Quoted.shown path.text
    | none => ""
  "[Errno " ++ toString e.cause.number ++ "] " ++ e.cause.wording ++ ": " ++
    Text.Quoted.shown e.path.text ++ target

/-- Why a file has no text. -/
inductive ReadFailure where
  | file (error : FileError)
  | undecodable (error : Utf8.Malformed)
  deriving Repr, DecidableEq

/-- The text of a failed reading. -/
def ReadFailure.message : ReadFailure → String
  | file e => e.message
  | undecodable e => e.message

end CommBindings
