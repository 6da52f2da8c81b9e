import CommBindings.Contract.Validation
import CommBindings.Generation.Loading
import CommBindings.Generation.Settings

set_option autoImplicit false

/-! # Generation

A run reads the contracts of each comm, checks them, renders the files of all targets and writes
them together. Each comm succeeds or fails on its own: a fault in one of them is reported and the
others go on. In a run that only checks, nothing is written and the files that differ from what
would be written are listed.
-/

namespace CommBindings

/-- A file rendered for a comm. -/
structure GeneratedFile where
  comm : String
  target : Target
  file : OutputFile
  deriving DecidableEq

/-- What came out for a comm: its files and its warnings. -/
structure Rendition where
  files : List GeneratedFile
  warnings : List String

/-- The end of the work on a comm. -/
abbrev Outcome := Except Fault Rendition

/-- What a run did: the comms that were processed, those that failed, the files and the warnings,
and in a run that only checks the files that are out of date. -/
structure Report where
  processed : List String
  failures : List (String × Fault)
  files : List GeneratedFile
  warnings : List String
  stale : List Path

namespace Report

/-- The report of no comm. -/
def empty : Report := ⟨[], [], [], [], []⟩

/-- Two reports, one after the other. -/
def append (first second : Report) : Report :=
  ⟨first.processed ++ second.processed, first.failures ++ second.failures,
    first.files ++ second.files, first.warnings ++ second.warnings, first.stale ++ second.stale⟩

/-- Whether nothing failed and nothing is out of date. -/
def isOk (report : Report) : Bool := report.failures.isEmpty && report.stale.isEmpty

end Report

namespace Settings

/-! ## One comm -/

/-- Renders the file of a target, and formats it if the target asks for that. -/
def renderFile (settings : Settings) (formatter : Formatter) (comm : Comm) (target : Target) :
    Except Fault GeneratedFile := do
  let path := (settings.outputDir target).child (target.fileName comm)
  let text ← target.render comm
  let content ← if target = .python then formatter.run path text else pure text
  pure ⟨comm.name, target, ⟨path, content⟩⟩

/-- Loads a comm, checks it and renders its files. -/
def rendition (settings : Settings) (formatter : Formatter) (w : Workspace)
    (documents : CommDocuments) : Outcome := do
  let comm ← loadComm w documents
  let warnings ← validate comm
  let files ← Target.all.mapM (settings.renderFile formatter comm)
  pure ⟨files, warnings.map fun warning => comm.name ++ ": " ++ warning⟩

/-- Does the work on one comm. The files are written unless the run only checks. -/
def process (settings : Settings) (formatter : Formatter) (w : Workspace)
    (documents : CommDocuments) : Workspace × Outcome :=
  match settings.rendition formatter w documents with
  | .error fault => (w, .error fault)
  | .ok rendition =>
    if settings.checkOnly then (w, .ok rendition)
    else
      match Outputs.write w (rendition.files.map GeneratedFile.file) with
      | (w, .ok _) => (w, .ok rendition)
      | (w, .error error) => (w, .error (.file error))

/-! ## All comms -/

/-- The fault that ended the work on a comm, if it is none that is reported. -/
def unreported? (outcome : Outcome) : Option Fault :=
  match outcome with
  | .error fault => if fault.isReported then none else some fault
  | .ok _ => none

/-- Does the work on comms one after another. Only where the comms are not independent tasks does
a fault that is not reported keep the later ones from their turn. -/
def processAll (settings : Settings) (formatter : Formatter) (independent : Bool)
    (w : Workspace) : List CommDocuments → Workspace × List (String × Outcome)
  | [] => (w, [])
  | documents :: rest =>
    let (w, outcome) := settings.process formatter w documents
    if (unreported? outcome).isSome && !independent then (w, [(documents.name, outcome)])
    else
      let (w, others) := settings.processAll formatter independent w rest
      (w, (documents.name, outcome) :: others)

/-- The comms of a run, of which every requested one must be there. -/
def select (settings : Settings) (all : List CommDocuments) :
    Except Fault (List CommDocuments) :=
  if settings.comms.isEmpty then .ok all
  else
    let isKnown := fun name => all.any fun documents => documents.name = name
    match Schema.sortedTexts (settings.comms.filter fun name => !isKnown name) with
    | [] => .ok (all.filter fun documents => settings.comms.contains documents.name)
    | missing => .error (.unknownComms missing settings.commsDir.text)

/-- Whether the comms are handed to workers, of which there must be one at least. -/
def usesWorkers (settings : Settings) (selected : List CommDocuments) : Except Fault Bool :=
  if settings.parallel && selected.length > 1 then
    if settings.workers.any fun count => count ≤ 0 then .error .invalidWorkerCount
    else .ok true
  else .ok false

/-! ## The report -/

/-- The paths among files where something else stands in the workspace. -/
def staleAmong (w : Workspace) : List GeneratedFile → Except Fault (List Path)
  | [] => .ok []
  | generated :: rest =>
    match generated.file.isCurrent w with
    | .error failure => .error (Fault.ofReading failure)
    | .ok isCurrent => do
      let others ← staleAmong w rest
      pure (if isCurrent then others else generated.file.path :: others)

/-- What the outcome for a comm adds to a report. -/
def reportOne (settings : Settings) (w : Workspace) (name : String) (outcome : Outcome) :
    Except Fault Report :=
  match outcome with
  | .error fault => .ok ⟨[], [(name, fault)], [], [], []⟩
  | .ok rendition => do
    let stale ← if settings.checkOnly then staleAmong w rendition.files else pure []
    pure ⟨[name], [], rendition.files, rendition.warnings, stale⟩

/-- The report on comms from their outcomes. -/
def report (settings : Settings) (w : Workspace) (outcomes : List (String × Outcome)) :
    List CommDocuments → Except Fault Report
  | [] => .ok Report.empty
  | documents :: rest => do
    let first ← match outcomes.lookup documents.name with
      | some outcome => settings.reportOne w documents.name outcome
      | none => pure Report.empty
    let others ← settings.report w outcomes rest
    pure (first.append others)

/-- The comms of a run, and whether they are independent tasks. -/
def plan (settings : Settings) (w : Workspace) : Except Fault (List CommDocuments × Bool) := do
  let selected ← settings.select (← discover w settings.commsDir)
  pure (selected, ← settings.usesWorkers selected)

/-- Does a run. A fault that is not reported ends it. -/
def generate (settings : Settings) (formatter : Formatter) (w : Workspace) :
    Workspace × Except Fault Report :=
  match settings.plan w with
  | .error fault => (w, .error fault)
  | .ok (selected, independent) =>
    let (w, outcomes) := settings.processAll formatter independent w selected
    match outcomes.findSome? fun entry => unreported? entry.2 with
    | some fault => (w, .error fault)
    | none => (w, settings.report w outcomes selected)

end Settings

end CommBindings
