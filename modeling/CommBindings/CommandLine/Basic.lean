import CommBindings.CommandLine.Options
import CommBindings.Generation.Report

set_option autoImplicit false

/-! # The command

What the command does with its options: it checks what a run needs, does the run, and shows the
files, the comms and what went wrong.
-/

namespace CommBindings.CommandLine

/-- How the command ends: well, with a code, or with a message. -/
inductive Exit where
  | success
  | code (number : Nat)
  | message (text : String)
  deriving Repr, DecidableEq

/-- The end of the command and what it wrote. -/
structure Ending where
  exit : Exit
  output : String
  errors : String
  deriving Repr, DecidableEq

/-- The name of the program in messages. -/
def programName : String := "comm_codegen"

/-- A line of a text. -/
def line (text : String) : String := text ++ "\n"

/-- The help text. -/
def helpText : String :=
  line ("usage: " ++ programName ++ " [options]") ++
    line "Generate TypeScript, Rust and Python comm bindings from OpenRPC contracts" ++
    String.join (OptionName.all.map fun name => line ("  " ++ ", ".intercalate name.spellings))

/-- The end where the words lead to no run. -/
def endWithoutRun : NoRun → Ending
  | .helpRequested => ⟨.code 0, helpText, ""⟩
  | .usage error => ⟨.code 2, "", line (programName ++ ": error: " ++ error.message)⟩

/-! ## Settings -/

/-- Where the contracts are and where files go if the options do not say. -/
structure DefaultPaths where
  commsDir : String
  typeScriptDir : String
  rustDir : String
  pythonDir : String

/-- The standard layout of a checkout. -/
def standardPaths : DefaultPaths :=
  ⟨"comms", "src/vs/workbench/services/languageRuntime/common",
    "../amalthea/crates/amalthea/src/comm", "python_files/positron_ipykernel"⟩

/-- The path that an option asks for, or else the standard one, from the current directory on. -/
def pathOf (current : Path) (name : OptionName) (argument : Option (Argument String))
    (standard : String) : Except Fault Path :=
  match argument.getD (.given standard) with
  | .missing => .error (.optionWithoutValue name.longSpelling)
  | .given text =>
    let path := Path.ofText current text
    if path.holdsNul then .error (.file ⟨.noPath, path, none⟩) else .ok path.flattened

/-- The settings that options ask for. Missing values other than those of paths are left out. -/
def settingsOf (current : Path) (standard : DefaultPaths) (options : Options) :
    Except Fault Settings := do
  let commsDir ← pathOf current .commsDir options.commsDir standard.commsDir
  let typeScriptDir ← pathOf current .typeScriptDir options.typeScriptDir standard.typeScriptDir
  let rustDir ← pathOf current .rustDir options.rustDir standard.rustDir
  let pythonDir ← pathOf current .pythonDir options.pythonDir standard.pythonDir
  pure ⟨commsDir, typeScriptDir, rustDir, pythonDir, options.comms.filterMap Argument.value?,
    options.check, !options.noParallel, options.workers.bind Argument.value?⟩

/-- The fault of a value that is missing where a run needs it: the names of comms are needed once
the documents are found, and the number of workers once there is work for them. -/
def checkValues (options : Options) (settings : Settings) (w : Workspace) : Except Fault Unit := do
  if options.comms.any Argument.isMissing then
    let _ ← discover w settings.commsDir
    throw (.optionWithoutValue OptionName.comm.longSpelling)
  if options.workers.any Argument.isMissing then
    let (_, independent) ← settings.plan w
    if independent then throw (.optionWithoutValue OptionName.workers.longSpelling)

/-! ## What is shown -/

/-- The line above and below the path of a file. -/
def ruler : String := String.ofList (List.replicate 40 '=')

/-- A file with its path. -/
def showFile (generated : GeneratedFile) : String :=
  line ("\n" ++ ruler) ++ line generated.file.path.text ++ line ruler ++
    line generated.file.content

/-- The comms that were processed. -/
def showProcessed (names : List String) : String :=
  if names.isEmpty then ""
  else line "\nProcessed comms:" ++ String.join (names.map fun name => line ("  - " ++ name))

/-- The message about comms that failed. -/
def failureMessage (failures : List (String × Fault)) : String :=
  "Error: " ++ toString failures.length ++ " comm(s) failed:\n" ++
    "\n".intercalate (failures.map fun failure =>
      "  " ++ failure.1 ++ ": " ++ failure.2.message)

/-- The files that are out of date. -/
def showStale (paths : List Path) : String :=
  line "\nOut-of-date files:" ++ String.join (paths.map fun path => line ("  " ++ path.text))

/-- The end of the command after a run. -/
def endOf (settings : Settings) (quiet : Bool) (report : Report) : Ending :=
  if report.processed.isEmpty && report.failures.isEmpty then
    ⟨.message ("No contract documents found in " ++ settings.commsDir.text), "", ""⟩
  else
    let shown := if quiet || settings.checkOnly then ""
      else String.join (report.files.map showFile)
    let output := shown ++ showProcessed report.processed
    let warnings := String.join (report.warnings.map fun warning => line ("Warning: " ++ warning))
    if !report.failures.isEmpty then ⟨.message (failureMessage report.failures), output, warnings⟩
    else if !report.stale.isEmpty then ⟨.code 1, output, warnings ++ showStale report.stale⟩
    else if settings.checkOnly then
      ⟨.success, output ++ line ("\nAll " ++ toString report.files.length ++
        " generated file(s) are up to date"), warnings⟩
    else ⟨.success, output, warnings⟩

/-- Whether the command ends with the message of a fault; other faults are failures of its own. -/
def isTold (fault : Fault) : Bool :=
  fault.isContractFault || fault.isMissingFile ||
    match fault with
    | .rustDirectoryMissing _ | .formatterUnavailable _ => true
    | _ => false

/-- The end of the command after a fault. -/
def endWithFault (fault : Fault) : Except Fault Ending :=
  if isTold fault then .ok ⟨.message ("Error: " ++ fault.message), "", ""⟩ else .error fault

/-- Does a run whose prerequisites have been checked. -/
def generateWith (formatter : Formatter) (options : Options) (settings : Settings)
    (w : Workspace) : Workspace × Except Fault Report :=
  match checkValues options settings w with
  | .error fault => (w, .error fault)
  | .ok _ => settings.generate formatter w

/-- Runs the command with options and the settings that they ask for. -/
def runWith (formatter : Formatter) (options : Options) (settings : Settings) (w : Workspace) :
    Workspace × Except Fault Ending :=
  match settings.checkPrerequisites w formatter with
  | .error fault => (w, endWithFault fault)
  | .ok _ =>
    match generateWith formatter options settings w with
    | (w, .error fault) => (w, endWithFault fault)
    | (w, .ok report) => (w, .ok (endOf settings options.quiet report))

/-- Runs the command with the words of its command line. -/
def run (formatter : Formatter) (current : Path) (w : Workspace) (words : List String) :
    Workspace × Except Fault Ending :=
  match Options.ofWords words with
  | .error reason => (w, .ok (endWithoutRun reason))
  | .ok options =>
    match settingsOf current standardPaths options with
    | .error fault => (w, .error fault)
    | .ok settings => runWith formatter options settings w

end CommBindings.CommandLine
