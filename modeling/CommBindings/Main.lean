import CommBindings.CommandLine.Basic

set_option autoImplicit false

/-! # The program

Runs the command in the current directory. The paths that exist are told on the standard input, one
in a line, those of directories with a slash at their end. The files are read, the command is run on
them, and what it changed is written. No other program is started: Python files stay unformatted.
-/

namespace CommBindings.CommandLine

/-- The lines of an input. -/
partial def readLines (input : IO.FS.Stream) : IO (List String) := do
  let text ← input.getLine
  if text.isEmpty then pure []
  else
    let others ← readLines input
    pure ((String.ofList (text.toList.filter (· ≠ '\n'))) :: others)

/-- The workspace with what stands at a path, and with the directories above it. -/
def addPath (current : Path) (w : Workspace) (text : String) : IO Workspace := do
  let path := (Path.ofText current text).flattened
  if text.endsWith "/" then pure (w.makeDirectories path).1
  else
    let content ← IO.FS.readBinFile text
    pure ((w.makeDirectories path.parent).1.put path.names (.file content))

/-- Writes what is in a workspace but was not there before, and removes what is gone. -/
def writeChanges (before after : Workspace) : IO Unit := do
  for (place, entry) in after.entries do
    if before.entry? place ≠ some entry then
      match entry with
      | .directory => IO.FS.createDirAll (Path.text ⟨place⟩)
      | .file content => IO.FS.writeBinFile (Path.text ⟨place⟩) content
  for (place, entry) in before.entries do
    if entry.isFile && (after.entry? place).isNone then IO.FS.removeFile (Path.text ⟨place⟩)

/-- Writes what the command wrote, and gives its exit code. -/
def finish : Except Fault Ending → IO UInt32
  | .error fault => do
    IO.eprintln fault.message
    pure 1
  | .ok ending => do
    IO.print ending.output
    IO.eprint ending.errors
    match ending.exit with
    | .success => pure 0
    | .code number => pure (UInt32.ofNat number)
    | .message text => do
      IO.eprintln text
      pure 1

end CommBindings.CommandLine

open CommBindings CommBindings.CommandLine in
/-- Runs the command with the words of its command line. -/
def main (words : List String) : IO UInt32 := do
  let current := Path.ofText Path.root (toString (← IO.currentDir))
  let paths ← readLines (← IO.getStdin)
  let start := (Workspace.empty.makeDirectories current).1
  let before ← paths.foldlM (addPath current) start
  let (after, result) := run Formatter.identity current before words
  writeChanges before after
  finish result
