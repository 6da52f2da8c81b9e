import CommBindings.Proofs.Contract.Faults
import CommBindings.Proofs.Document.Json
import CommBindings.Proofs.Generation.Outcomes
import CommBindings.Proofs.Generation.Selection
import CommBindings.Proofs.Target.Rendering
import CommBindings.Proofs.Text.NulFree
import CommBindings.Proofs.Workspace.Faults

set_option autoImplicit false

/-! # Every comm is accounted for

Where the documents of a comm are legible (`CommDocuments.AreLegible`), whatever else is wrong with
them ends the work on this comm only: loading, validation, rendering, formatting and writing fail with
faults that are reported (`process_reported`). So a run on legible documents comes to a report, which
tells of every comm of the run once (`generate_accounts`). JSON documents are legible but for integers
that are too long (`isLegible_json_iff`); in a YAML document the key of a shared schema can be a
number, and then there is no report (`noReport_numberKey`).
-/

namespace CommBindings

open Workspace

/-- If the computation fails, the fault is one that is reported. -/
abbrev FailsReported {α : Type} (x : Except Fault α) : Prop :=
  FailsWith (fun fault => fault.isReported = true) x

theorem isReported_of_isContractFault {fault : Fault} (h : fault.isContractFault = true) :
    fault.isReported = true := by
  cases fault with
  | formatterFailed path code output => rfl
  | commsDirectoryMissing path => rfl
  | file error => cases h
  | _ => exact h

theorem failsReported {α : Type} {x : Except Fault α} (h : FailsContract x) : FailsReported x :=
  fun fault hFault => isReported_of_isContractFault (h fault hFault)

/-! ## Loading -/

/-- Whether the contract in a document is legible, or its text is refused with a fault of the
contract. A document that cannot be read says nothing. -/
def Loading.isLegible (w : Workspace) (path : Path) : Bool :=
  match w.readText path with
  | .error _ => true
  | .ok text =>
    match readValue path text.toList with
    | .error fault => fault.isContractFault
    | .ok value => value.entries?.all Contract.isLegible

variable {w : Workspace} {path : Path}

theorem readValue_fails {text : String} (h : Loading.isLegible w path = true)
    (hRead : w.readText path = .ok text) :
    FailsContract (Loading.readValue path text.toList) := by
  intro fault hFault
  rw [Loading.isLegible, hRead] at h
  simpa only [hFault] using h

theorem isLegible_of_readValue {text : String} {value : Value} {document : Mapping}
    (h : Loading.isLegible w path = true) (hRead : w.readText path = .ok text)
    (hValue : Loading.readValue path text.toList = .ok value)
    (hEntries : value.entries? = some document) : Contract.isLegible document = true := by
  rw [Loading.isLegible, hRead] at h
  simpa only [hValue, hEntries, Option.all_some] using h

/-- A JSON document is legible unless an integer in it has too many digits. -/
theorem isLegible_json_iff (hJson : Loading.isYaml path = false) :
    Loading.isLegible w path = true ↔
      ∀ text, w.readText path = .ok text → Json.read text.toList ≠ .error .overlongInteger := by
  rw [Loading.isLegible]
  cases w.readText path with
  | error failure => exact ⟨fun _ => nofun, fun _ => rfl⟩
  | ok text =>
      have hRead : Loading.readValue path text.toList = Loading.readJson path text.toList := by
        rw [Loading.readValue, hJson, if_neg Bool.false_ne_true]
      simp only [hRead, Loading.readJson, Except.ok.injEq, forall_eq']
      cases hValue : Json.read text.toList with
      | ok value =>
          have hLegible : value.entries?.all Contract.isLegible = true :=
            (Option.all_eq_true _ _).mpr fun _ => isLegible_of_isPlain (Json.isPlain_read hValue)
          simp [hLegible]
      | error failure => cases failure <;> simp [Fault.isContractFault]

theorem unreadable_isContractFault {failure : ReadFailure} (hPath : path.holdsNul = false)
    (h : w.readText path = .error failure) :
    (Loading.unreadable path failure).isContractFault = true := by
  unfold readText at h
  split at h
  · next error hRead =>
    cases h
    rw [Loading.unreadable, if_pos (read_found hPath error hRead)]
    rfl
  · split at h
    · cases h
    · cases h
      rfl

theorem loadDocument_fails (hPath : path.holdsNul = false) (h : Loading.isLegible w path = true) :
    FailsContract (loadDocument w path) := by
  unfold loadDocument
  split
  · next failure hRead => exact failsWith_error (unreadable_isContractFault hPath hRead)
  · next text hRead =>
    refine failsWith_bind (readValue_fails h hRead) fun value _ => ?_
    split
    · exact failsWith_ok _
    · exact failsWith_error rfl

theorem isLegible_of_loadDocument {document : Mapping} (h : Loading.isLegible w path = true)
    (hLoad : loadDocument w path = .ok document) : Contract.isLegible document = true := by
  unfold loadDocument at hLoad
  split at hLoad
  · cases hLoad
  · next text hRead =>
    obtain ⟨value, hValue, hLoad⟩ := bind_eq_ok.mp hLoad
    split at hLoad
    · next entries hEntries =>
      cases hLoad
      exact isLegible_of_readValue h hRead hValue hEntries
    · cases hLoad

theorem loadContract_fails (direction : Direction) {document : Option Path}
    (h : ∀ path, document = some path → path.holdsNul = false ∧ Loading.isLegible w path = true) :
    FailsContract (loadContract w direction document) := by
  cases document with
  | none => exact failsWith_ok _
  | some path =>
      obtain ⟨hPath, hLegible⟩ := h path rfl
      refine failsWith_bind (loadDocument_fails hPath hLegible) fun document hLoad => ?_
      have hRead := readContract_failsIn direction path.name (isLegible_of_loadDocument hLegible hLoad)
      exact failsWith_map _ hRead.failsContract

theorem hasTextKeys_of_loadContract {direction : Direction} {document : Option Path}
    {contract : Contract} (h : ∀ path, document = some path → Loading.isLegible w path = true)
    (hLoad : loadContract w direction document = .ok (some contract)) : contract.HasTextKeys := by
  cases document with
  | none => cases hLoad
  | some path =>
      obtain ⟨entries, hEntries, hLoad⟩ := bind_eq_ok.mp hLoad
      obtain ⟨found, hRead, hFound⟩ := map_eq_ok.mp hLoad
      cases hFound
      exact hasTextKeys_of_isLegible hRead (isLegible_of_loadDocument (h path rfl) hEntries)

/-- The documents of a comm are legible, and none of its shared schemas leads back to itself. -/
structure CommDocuments.AreLegible (w : Workspace) (d : CommDocuments) : Prop where
  documents : ∀ direction path, d.document? direction = some path →
    Loading.isLegible w path = true
  acyclic : ∀ comm, loadComm w d = .ok comm → comm.IsAcyclic

/-- The documents have paths such as a file can have. -/
def CommDocuments.HavePaths (d : CommDocuments) : Prop :=
  ∀ direction path, d.document? direction = some path → path.holdsNul = false

variable {d : CommDocuments}

theorem loadComm_fails (hPaths : d.HavePaths) (h : d.AreLegible w) :
    FailsContract (loadComm w d) := by
  refine failsWith_bind (loadContract_fails .frontend fun path hPath =>
    ⟨hPaths .frontend path hPath, h.documents .frontend path hPath⟩) fun frontend _ => ?_
  refine failsWith_bind (loadContract_fails .backend fun path hPath =>
    ⟨hPaths .backend path hPath, h.documents .backend path hPath⟩) fun backend _ => ?_
  unfold Comm.ofContracts
  split
  · exact failsWith_ok _
  · exact failsWith_error rfl

theorem hasTextKeys_of_loadComm {comm : Comm} (h : d.AreLegible w) (hLoad : loadComm w d = .ok comm) :
    ∀ contract ∈ comm.contracts, contract.HasTextKeys := by
  obtain ⟨frontend, hFrontend, hLoad⟩ := bind_eq_ok.mp hLoad
  obtain ⟨backend, hBackend, hLoad⟩ := bind_eq_ok.mp hLoad
  unfold Comm.ofContracts at hLoad
  split at hLoad
  · cases hLoad
    intro contract hContract
    rcases List.mem_append.mp hContract with hHere | hHere
    · obtain rfl : backend = some contract := Option.mem_toList.mp hHere
      exact hasTextKeys_of_loadContract (h.documents .backend) hBackend
    · obtain rfl : frontend = some contract := Option.mem_toList.mp hHere
      exact hasTextKeys_of_loadContract (h.documents .frontend) hFrontend
  · cases hLoad

/-! ## One comm -/

variable {settings : Settings}

theorem run_fails (formatter : Formatter) (path : Path) (text : String) :
    FailsReported (formatter.run path text) := by
  unfold Formatter.run
  split
  · exact failsWith_error rfl
  · split
    · exact failsWith_ok _
    · exact failsWith_error rfl

/-- The files of a comm with legible documents are rendered, or the fault is reported. -/
theorem rendition_fails (formatter : Formatter) (hPaths : d.HavePaths) (h : d.AreLegible w) :
    FailsReported (settings.rendition formatter w d) := by
  refine failsWith_bind (failsReported (loadComm_fails hPaths h)) fun comm hLoad => ?_
  have hKeys := hasTextKeys_of_loadComm h hLoad
  refine failsWith_bind (failsReported (validate_fails hKeys)) fun warnings hValid => ?_
  have hSettled := settled_of_checked (checked_of_validate hValid) hKeys (h.acyclic comm hLoad)
  refine failsWith_bind (failsWith_mapM fun target _ => ?_) fun files _ => failsWith_ok _
  refine failsWith_bind (failsWith_of_total (render_of_settled hSettled target)) fun text _ => ?_
  simp only
  split
  · exact failsWith_bind (run_fails formatter _ text) fun content _ => failsWith_ok _
  · exact failsWith_ok _

/-- The files of a comm have paths such as a file can have. -/
def Settings.HavePaths (settings : Settings) (comm : String) : Prop :=
  ∀ target, (settings.outputPath target comm).holdsNul = false

theorem process_reported (formatter : Formatter) (hPaths : settings.HavePaths d.name)
    (h : FailsReported (settings.rendition formatter w d)) :
    Settings.unreported? (settings.process formatter w d).2 = none := by
  unfold Settings.process
  cases hRendition : settings.rendition formatter w d with
  | error fault =>
      rw [Settings.unreported?, if_pos (h fault hRendition)]
  | ok rendition =>
      simp only
      split
      · rfl
      · have hWritten : FailsFound (Outputs.write w (rendition.files.map GeneratedFile.file)).2 := by
          refine Outputs.write_found w fun f hf => ?_
          obtain ⟨target, hPath⟩ := rendition_paths hRendition f hf
          rw [hPath]
          refine ⟨hPaths target, ?_⟩
          rw [outputPath_name]
          exact (outputName_ne target d.name).1
        split
        · rfl
        · next w' error hWrite =>
          rw [hWrite] at hWritten
          have hFound : (Fault.file error).isReported = true := hWritten error rfl
          rw [Settings.unreported?, if_pos hFound]

/-! ## Paths that files can have -/

/-- No name in the workspace holds NUL. -/
def Workspace.HoldsNoNul (w : Workspace) : Prop :=
  ∀ entry ∈ w.entries, ∀ name ∈ entry.1, '\x00' ∉ name.toList

theorem outputName_no_nul (target : Target) {comm : String} (h : '\x00' ∉ comm.toList) :
    '\x00' ∉ (target.outputName comm).toList := by
  have hChars : ∀ c ∈ comm.toList, c ≠ '\x00' := by
    rintro c hc rfl
    exact h hc
  have hPascal : '\x00' ∉ (Naming.pascalCase comm).toList :=
    fun hMem => Naming.pascalCase_ne_nul hChars _ hMem rfl
  have hModule : '\x00' ∉ (Naming.moduleName comm).toList :=
    fun hMem => Naming.moduleName_ne_nul hChars _ hMem rfl
  cases target <;> simp [Target.outputName, hPascal, hModule]

theorem document_no_nul {directory : Path} {name comm : String} {direction : Direction}
    (hNul : w.HoldsNoNul) (h : w.HasDocument directory name comm direction) :
    '\x00' ∉ name.toList ∧ '\x00' ∉ comm.toList := by
  obtain ⟨⟨place, entry⟩, hEntry, hPlace⟩ := List.mem_map.mp (Discovery.listed_of_file h.2)
  have hName : '\x00' ∉ name.toList := by
    refine hNul _ hEntry name ?_
    rw [show place = directory.place ++ [name] from hPlace]
    exact List.mem_append_right _ List.mem_cons_self
  obtain ⟨ending, -, hTold⟩ := document_name h.1
  refine ⟨hName, fun hMem => hName ?_⟩
  rw [hTold, String.toList_append]
  exact List.mem_append_left _ hMem

theorem holdsNul_of_isDirectory (h : w.isDirectory path = .ok true) : path.holdsNul = false := by
  have hWalk := locate_ok_iff.mp (isDirectory_iff.mp h).1
  unfold Workspace.walk at hWalk
  split at hWalk
  · cases hWalk
  · next hPath => exact Bool.eq_false_of_not_eq_true hPath

theorem havePaths_of_isIn {directory : Path} (hNul : w.HoldsNoNul)
    (hDir : w.isDirectory directory = .ok true) (hIn : d.IsIn w directory) : d.HavePaths := by
  intro direction path hPath
  obtain ⟨name, rfl, hDocument⟩ := hIn direction path hPath
  exact Path.holdsNul_child (holdsNul_of_isDirectory hDir) (document_no_nul hNul hDocument).1

/-! ## All comms -/

/-- Where each comm fails with reported faults only, so do all of them in turn. -/
theorem processAll_reported (formatter : Formatter) (hWrites : settings.checkOnly = false)
    (independent : Bool) {selected : List CommDocuments} {w : Workspace}
    (hDir : w.isDirectory settings.commsDir = .ok true)
    (hIn : ∀ d ∈ selected, d.IsIn w settings.commsDir)
    (hPaths : ∀ d ∈ selected, settings.HavePaths d.name)
    (h : ∀ d ∈ selected, FailsReported (settings.rendition formatter w d)) :
    ∀ entry ∈ (settings.processAll formatter independent w selected).2,
      Settings.unreported? entry.2 = none := by
  induction selected generalizing w with
  | nil => exact List.forall_mem_nil _
  | cons documents rest ih =>
      obtain ⟨-, hInRest⟩ := List.forall_mem_cons.mp hIn
      obtain ⟨hPathsFirst, hPathsRest⟩ := List.forall_mem_cons.mp hPaths
      obtain ⟨hFirst, hRest⟩ := List.forall_mem_cons.mp h
      have hReported := process_reported formatter hPathsFirst hFirst
      -- the comm leaves the documents of the others as they were
      have hKept := process_kept formatter hWrites w documents
      rw [processAll_cons hReported]
      refine List.forall_mem_cons.mpr ⟨hReported, ?_⟩
      refine ih (isDirectory_kept hKept.directories hDir)
        (fun d hd => isIn_kept hKept (hInRest d hd)) hPathsRest fun d hd => ?_
      rw [rendition_kept hKept hDir (hInRest d hd)]
      exact hRest d hd

/-- The report tells of each comm of the run once, as processed or as failed, in the order of their
names, and lists the files of all targets for each that was processed. -/
structure Report.Accounts (report : Report) (isSelected : String → Prop) : Prop where
  once : (report.processed ++ report.failures.map Prod.fst).Nodup
  all : ∀ comm, comm ∈ report.processed ++ report.failures.map Prod.fst ↔ isSelected comm
  processedInOrder : report.processed.Pairwise (· ≤ ·)
  failuresInOrder : (report.failures.map Prod.fst).Pairwise (· ≤ ·)
  files : report.files.map (fun g => (g.comm, g.target)) =
    report.processed.flatMap fun comm => Target.all.map fun target => (comm, target)

theorem map_isFileOf {name : String} {targets : List Target} {files : List GeneratedFile}
    (h : List.Forall₂ (settings.IsFileOf name) targets files) :
    files.map (fun g => (g.comm, g.target)) = targets.map fun target => (name, target) := by
  induction h with
  | nil => rfl
  | cons hFirst _ ih => rw [List.map_cons, List.map_cons, hFirst.1, hFirst.2.1, ih]

/-- **A bad document does not stop the run.** Settings that fit the workspace come to a report that
accounts for every comm of the run, whatever is wrong with its documents, as long as they are
legible. -/
theorem generate_accounts {settings : Settings} {w : Workspace} (formatter : Formatter)
    (hWrites : settings.checkOnly = false) (hFits : settings.Fits w) (hNul : w.HoldsNoNul)
    (hOutputs : ∀ target, (settings.outputDir target).holdsNul = false)
    (hLegible : ∀ selected independent, settings.plan w = .ok (selected, independent) →
      ∀ d ∈ selected, d.AreLegible w) :
    ∃ w' report, settings.generate formatter w = (w', .ok report) ∧
      report.Accounts (settings.Selects w) := by
  obtain ⟨selected, independent, hPlan, hSorted, hSelects⟩ := plan_total hFits
  obtain ⟨hDir, hIn⟩ := isIn_plan hPlan
  have hPaths : ∀ d ∈ selected, settings.HavePaths d.name := by
    intro d hd target
    obtain ⟨⟨name, direction, hDocument⟩, -⟩ := (hSelects d.name).mp (List.mem_map_of_mem hd)
    exact Path.holdsNul_child (hOutputs target)
      (outputName_no_nul target (document_no_nul hNul hDocument).2)
  have hFails : ∀ d ∈ selected, FailsReported (settings.rendition formatter w d) :=
    fun d hd => rendition_fails formatter (havePaths_of_isIn hNul hDir (hIn d hd))
      (hLegible selected independent hPlan d hd)
  have hReported := processAll_reported formatter hWrites independent hDir hIn hPaths hFails
  cases hAll : settings.processAll formatter independent w selected with
  | mk w' outcomes =>
    rw [hAll] at hReported
    have hNames := processAll_names hAll hReported
    obtain ⟨hProcessed, hFailures⟩ := sublist_ofOutcomes outcomes
    have hPerm := perm_ofOutcomes outcomes
    rw [hNames] at hProcessed hFailures hPerm
    refine ⟨w', _, generate_of_writes hWrites hPlan hAll hReported, ?_⟩
    exact {
      once := hPerm.nodup_iff.mpr (nodup_plan hPlan)
      all := fun comm => hPerm.mem_iff.trans (hSelects comm)
      processedInOrder := hSorted.sublist hProcessed
      failuresInOrder := hSorted.sublist hFailures
      files := map_files_ofOutcomes fun name rendition hMem =>
        map_isFileOf (processAll_files independent hAll name rendition hMem) }

/-! ## A run on two comms -/

/-- The name of the document of the second comm. -/
def uiDocument (isYaml : Bool) : String :=
  if isYaml then "ui-backend-openrpc.yaml" else "ui-backend-openrpc.json"

/-- A workspace with a comm without methods and a second comm, whose document has a text. -/
def pairWorkspace (isYaml : Bool) (document : String) : Workspace :=
  ⟨[(["comms"], .directory), (["rust"], .directory),
    (["comms", "plot-backend-openrpc.json"], .file (Utf8.encode "\x7b\"methods\": []\x7d")),
    (["comms", uiDocument isYaml], .file (Utf8.encode document))]⟩

/-- Settings for a run with workers on all comms. -/
def pairSettings : Settings :=
  ⟨⟨["comms"]⟩, ⟨["ts"]⟩, ⟨["rust"]⟩, ⟨["py"]⟩, [], false, true, none⟩

/-- The documents of the comm without methods. -/
def plotDocuments : CommDocuments :=
  ⟨"plot", some ⟨["comms", "plot-backend-openrpc.json"]⟩, none⟩

/-- The documents of the second comm. -/
def uiDocuments (isYaml : Bool) : CommDocuments :=
  ⟨"ui", some ⟨["comms", uiDocument isYaml]⟩, none⟩

variable (isYaml : Bool) (document : String)

theorem fileNames_pair : Discovery.fileNames (pairWorkspace isYaml document) ["comms"] =
    ["plot-backend-openrpc.json", uiDocument isYaml] := by
  cases isYaml with
  | false => cbv
  | true => cbv

theorem place_pair : pairSettings.commsDir.place = ["comms"] := by
  decide

theorem plan_pair : pairSettings.plan (pairWorkspace isYaml document) =
    .ok ([plotDocuments, uiDocuments isYaml], true) := by
  have hGathered : (((Discovery.fileNames (pairWorkspace isYaml document)
      pairSettings.commsDir.place).filter Discovery.isDocument).map
        pairSettings.commsDir.child).foldlM Discovery.add [] =
          .ok [plotDocuments, uiDocuments isYaml] := by
    rw [place_pair, fileNames_pair]
    revert isYaml
    decide
  have hSorted : [plotDocuments, uiDocuments isYaml].mergeSort
      (fun a b => decide (a.name ≤ b.name)) = [plotDocuments, uiDocuments isYaml] := by
    cbv
  have hDirectory : (pairWorkspace isYaml document).isDirectory pairSettings.commsDir =
      .ok true := rfl
  rw [Settings.plan, discover_of_gathered hDirectory hGathered, hSorted]
  rfl

/-- The documents are of two comms. -/
theorem told_pair : ∀ isYaml : Bool,
    Discovery.classify? "plot-backend-openrpc.json" = some ("plot", .backend) ∧
      Discovery.classify? (uiDocument isYaml) = some ("ui", .backend) := by
  decide

theorem fits_pair : pairSettings.Fits (pairWorkspace isYaml document) where
  directory := rfl
  documents := by
    obtain ⟨hPlot, hUi⟩ := told_pair isYaml
    have hName : ∀ name comm direction, (pairWorkspace isYaml document).HasDocument
        pairSettings.commsDir name comm direction →
          name = if comm = "plot" then "plot-backend-openrpc.json" else uiDocument isYaml := by
      intro name comm direction hDocument
      have hFile := Discovery.mem_fileNames.mpr hDocument.2
      have hTold := hDocument.1
      rw [place_pair, fileNames_pair] at hFile
      rcases List.mem_cons.mp hFile with rfl | hFile
      · rw [hPlot] at hTold
        cases hTold
        rfl
      · rw [List.mem_singleton.mp hFile, hUi] at hTold
        cases hTold
        exact List.mem_singleton.mp hFile
    intro first second comm direction hFirst hSecond
    rw [hName first comm direction hFirst, hName second comm direction hSecond]
  known := List.forall_mem_nil _
  workers := nofun

theorem holdsNoNul_pair : (pairWorkspace isYaml document).HoldsNoNul := by
  have hNames : ∀ isYaml : Bool, ∀ entry ∈ (pairWorkspace isYaml "").entries, ∀ name ∈ entry.1,
      '\x00' ∉ name.toList := by
    decide
  have hPlaces : (pairWorkspace isYaml document).entries.map Prod.fst =
      (pairWorkspace isYaml "").entries.map Prod.fst := rfl
  intro entry hEntry
  have hPlace := List.mem_map_of_mem (f := Prod.fst) hEntry
  rw [hPlaces] at hPlace
  obtain ⟨other, hOther, hSame⟩ := List.mem_map.mp hPlace
  rw [← hSame]
  exact hNames isYaml other hOther

theorem outputs_pair : ∀ target, (pairSettings.outputDir target).holdsNul = false := by
  intro target
  cases target <;> decide

/-- The second document is no JSON text: its comm fails, and both comms are accounted for. -/
theorem accounts_invalidDocument :
    let w := pairWorkspace false "\x7b"
    ∃ w' report, pairSettings.generate .identity w = (w', .ok report) ∧
      report.Accounts (pairSettings.Selects w) := by
  intro w
  refine generate_accounts .identity rfl (fits_pair false _) (holdsNoNul_pair false _) outputs_pair ?_
  intro selected independent hPlan
  rw [plan_pair] at hPlan
  cases hPlan
  have hDocuments : ∀ d ∈ [plotDocuments, uiDocuments false],
      (d.backend.all (Loading.isLegible w) && d.frontend.all (Loading.isLegible w)) = true := by
    decide +kernel
  have hSchemas : ∀ d ∈ [plotDocuments, uiDocuments false],
      ((loadComm w d).toOption.all fun comm => comm.sharedKeys.isEmpty) = true := by
    decide +kernel
  refine fun d hd => ⟨fun direction path hPath => ?_, fun comm hLoad => ?_⟩
  · obtain ⟨hBackend, hFrontend⟩ := Bool.and_eq_true_iff.mp (hDocuments d hd)
    cases direction with
    | backend => exact (Option.all_eq_true _ _).mp hBackend path hPath
    | frontend => exact (Option.all_eq_true _ _).mp hFrontend path hPath
  · apply isAcyclic_of_sharedKeys
    apply List.isEmpty_iff.mp
    exact (Option.all_eq_true _ _).mp (hSchemas d hd) comm (by rw [hLoad]; rfl)

/-- The second document has a number for a key: there is no report, not even on the first comm. -/
theorem noReport_numberKey :
    let w := pairWorkspace true
      "methods: []\ncomponents: \x7bschemas: \x7b1: \x7btype: string\x7d\x7d\x7d\n"
    (pairSettings.Fits w ∧ w.HoldsNoNul ∧
      ∀ target, (pairSettings.outputDir target).holdsNul = false) ∧
      ¬ ∃ w' report, pairSettings.generate .identity w = (w', .ok report) := by
  intro w
  refine ⟨⟨fits_pair true _, holdsNoNul_pair true _, outputs_pair⟩, ?_⟩
  have hNone : (pairSettings.generate .identity w).2.isOk = false := by
    rw [Settings.generate, plan_pair]
    decide +kernel
  rintro ⟨w', report, hReport⟩
  rw [hReport] at hNone
  cases hNone

end CommBindings
