import CommBindings.Target.PythonBinding
import CommBindings.Target.RustBinding
import CommBindings.Target.TypeScriptBinding

set_option autoImplicit false

/-! # Targets

The three languages for which bindings are generated, and the files that are written for them.
-/

namespace CommBindings

/-- A language for which bindings are generated. -/
inductive Target where
  | typeScript
  | rust
  | python
  deriving Repr, DecidableEq

namespace Target

/-- The targets, in the order in which their files are written. -/
def all : List Target := [.typeScript, .rust, .python]

/-- The word for a target. -/
def word : Target → String
  | typeScript => "typescript"
  | rust => "rust"
  | python => "python"

/-- The target that a word names. -/
def ofWord (word : String) : Except Fault Target :=
  match all.find? fun target => target.word = word with
  | some target => .ok target
  | none => .error (.unknownTarget word)

/-- The type table of a target. -/
def table : Target → TypeTable
  | typeScript => TypeScript.table
  | rust => Rust.table
  | python => Python.table

/-- The name of the file for a comm. -/
def fileName (target : Target) (comm : Comm) : String :=
  match target with
  | typeScript => TypeScript.fileName comm
  | rust => Rust.fileName comm
  | python => Python.fileName comm

/-- The fragments of a section of the file for a comm. -/
def printSection (target : Target) (comm : Comm) (part : Section) : Emission String Unit :=
  match target with
  | typeScript => TypeScript.printSection comm part
  | rust => Rust.printSection comm part
  | python => Python.printSection comm part

/-- The fragments of the file for a comm. -/
def print (target : Target) (comm : Comm) : Emission String Unit :=
  Emission.forAll comm.sections (target.printSection comm)

/-- The text of the file for a comm. -/
def render (target : Target) (comm : Comm) : Except Fault String :=
  (target.print comm).toItems.map String.join

end Target

end CommBindings
