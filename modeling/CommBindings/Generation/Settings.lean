import CommBindings.Generation.Formatter
import CommBindings.Target.Basic
import CommBindings.Workspace.Basic

set_option autoImplicit false

/-! # Settings of a run

Where the contracts are, where the files go, and how a run is done.
-/

namespace CommBindings

/-- The settings of a run. No names of comms means all of them. -/
structure Settings where
  commsDir : Path
  typeScriptDir : Path
  rustDir : Path
  pythonDir : Path
  comms : List String
  checkOnly : Bool
  parallel : Bool
  workers : Option Int
  deriving Repr, DecidableEq

namespace Settings

/-- The directory of the files of a target. -/
def outputDir (settings : Settings) : Target → Path
  | .typeScript => settings.typeScriptDir
  | .rust => settings.rustDir
  | .python => settings.pythonDir

/-- Checks what a run needs: the directory of the Rust files and the formatter. -/
def checkPrerequisites (settings : Settings) (w : Workspace) (formatter : Formatter) :
    Except Fault Unit :=
  match w.isDirectory settings.rustDir with
  | .error error => .error (.file error)
  | .ok false => .error (.rustDirectoryMissing settings.rustDir.text)
  | .ok true => formatter.check

end Settings

end CommBindings
