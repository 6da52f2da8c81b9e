import CommBindings.Proofs.Generation.Documents
import CommBindings.Proofs.Generation.Outcomes
import CommBindings.Proofs.Workspace.CurrentFiles

set_option autoImplicit false

/-! # What was just generated is up to date

A check that follows a run that wrote reads the same documents, renders the same files and finds
at the path of each file what the run wrote there last (`processAll_holds`). It lists exactly the
files that hold a carriage return, which is lost when a file is read, and those that share their
path with a file of another content (`generate_upToDate`).
-/

namespace CommBindings

open Workspace Outputs

variable {settings : Settings} {formatter : Formatter}

/-! ## One comm -/

/-- A success was rendered from the documents, and its files can be read. -/
theorem process_ok (hWrites : settings.checkOnly = false) {w w' : Workspace}
    {documents : CommDocuments} {rendition : Rendition}
    (h : settings.process formatter w documents = (w', .ok rendition)) :
    settings.rendition formatter w documents = .ok rendition ∧
      ∀ g ∈ rendition.files, w'.read g.file.path = .ok (Utf8.encode g.file.content) := by
  unfold Settings.process at h
  cases hRendition : settings.rendition formatter w documents with
  | error fault =>
      rw [hRendition] at h
      cases h
  | ok found =>
      rw [hRendition] at h
      simp only [hWrites, Bool.false_eq_true, if_false] at h
      cases hWrite : Outputs.write w (found.files.map GeneratedFile.file) with
      | mk w₁ outcome =>
        rw [hWrite] at h
        cases outcome with
        | error error => cases h
        | ok done =>
            cases h
            have hWritten := written_of_write_ok (rendition_apart hRendition) hWrite
            exact ⟨rfl, fun g hg => hWritten.readable _ (List.mem_map_of_mem hg)⟩

/-! ## All comms -/

/-- At the path of each file stands a file of the list that goes there. -/
def HoldsOneOfEach (w : Workspace) (files : List GeneratedFile) : Prop :=
  ∀ g ∈ files, ∃ g' ∈ files, g'.file.path = g.file.path ∧
    w.read g.file.path = .ok (Utf8.encode g'.file.content)

/-- A path to which no comm writes is read as before. -/
theorem processAll_read (hWrites : settings.checkOnly = false) (independent : Bool)
    {selected : List CommDocuments} {w w' : Workspace} {outcomes : List (String × Outcome)}
    (h : settings.processAll formatter independent w selected = (w', outcomes))
    (hOk : ∀ entry ∈ outcomes, ∃ rendition, entry.2 = .ok rendition)
    {target : Target} {name : String} {content : ByteArray}
    (hOthers : ∀ g ∈ (Report.ofOutcomes outcomes).files,
      g.file.path ≠ settings.outputPath target name)
    (hRead : w.read (settings.outputPath target name) = .ok content) :
    w'.read (settings.outputPath target name) = .ok content := by
  have hKept := processAll_kept formatter hWrites independent selected w
  rw [h] at hKept
  refine read_kept hKept.directories ?_ hRead
  have hEnd : (settings.processAll formatter independent w selected).1 = w' := by
    rw [h]
  rw [← hEnd]
  refine processAll_outside independent selected w fun d hd => ?_
  apply outside_output
  intro target' hSame
  -- a comm that shares the path has a file that goes there
  have hName : d.name ∈ outcomes.map Prod.fst := by
    rw [processAll_names h (reported_of_ok hOk)]
    exact List.mem_map_of_mem hd
  obtain ⟨⟨_, outcome⟩, hEntry, rfl⟩ := List.mem_map.mp hName
  obtain ⟨rendition, hRendition⟩ := hOk _ hEntry
  simp only at hRendition
  subst hRendition
  obtain ⟨g, hg, -, -, hPath⟩ :=
    exists_file (processAll_files independent h _ _ hEntry) target' (mem_all target')
  exact hOthers g (mem_files_ofOutcomes.mpr ⟨_, rendition, hEntry, hg⟩) (hPath.trans hSame.symm)

theorem holds_append {w : Workspace} {files others : List GeneratedFile}
    (hFiles : ∀ g ∈ files, (∀ g' ∈ others, g'.file.path ≠ g.file.path) →
      w.read g.file.path = .ok (Utf8.encode g.file.content))
    (hOthers : HoldsOneOfEach w others) : HoldsOneOfEach w (files ++ others) := by
  intro g hg
  rcases List.mem_append.mp hg with hg | hg
  · by_cases hAgain : ∃ g' ∈ others, g'.file.path = g.file.path
    · obtain ⟨g', hg', hPath⟩ := hAgain
      obtain ⟨last, hLast, hLastPath, hRead⟩ := hOthers g' hg'
      rw [hPath] at hLastPath hRead
      exact ⟨last, List.mem_append_right _ hLast, hLastPath, hRead⟩
    · exact ⟨g, List.mem_append_left _ hg, rfl,
        hFiles g hg fun g' hg' hPath => hAgain ⟨g', hg', hPath⟩⟩
  · obtain ⟨last, hLast, hLastPath, hRead⟩ := hOthers g hg
    exact ⟨last, List.mem_append_right _ hLast, hLastPath, hRead⟩

/-- A successful run holds at each path what it wrote there last, and each comm came to what its
documents give. -/
theorem processAll_holds (hWrites : settings.checkOnly = false) (independent : Bool)
    {selected : List CommDocuments} {w w' : Workspace} {outcomes : List (String × Outcome)}
    (hDir : w.isDirectory settings.commsDir = .ok true)
    (hIn : ∀ d ∈ selected, d.IsIn w settings.commsDir)
    (h : settings.processAll formatter independent w selected = (w', outcomes))
    (hOk : ∀ entry ∈ outcomes, ∃ rendition, entry.2 = .ok rendition) :
    HoldsOneOfEach w' (Report.ofOutcomes outcomes).files ∧
      outcomes = selected.map fun d => (d.name, settings.rendition formatter w d) := by
  induction selected generalizing w w' outcomes with
  | nil =>
      cases h
      exact ⟨fun g hg => absurd hg List.not_mem_nil, rfl⟩
  | cons documents rest ih =>
      obtain ⟨rendition, hFirst⟩ := hOk _ (processAll_head h)
      have hKept := process_kept formatter hWrites w documents
      rw [processAll_cons (by rw [hFirst]; rfl)] at h
      cases hTurn : settings.process formatter w documents with
      | mk w₁ outcome =>
        rw [hTurn] at h hFirst hKept
        simp only at hFirst
        subst hFirst
        cases hRest : settings.processAll formatter independent w₁ rest with
        | mk w₂ others =>
          simp only [hRest] at h
          obtain ⟨rfl, rfl⟩ := Prod.mk.inj h
          obtain ⟨hRendition, hRead⟩ := process_ok hWrites hTurn
          have hInRest : ∀ d ∈ rest, d.IsIn w settings.commsDir :=
            fun d hd => hIn d (List.mem_cons_of_mem _ hd)
          have hOkRest : ∀ entry ∈ others, ∃ rendition, entry.2 = .ok rendition :=
            fun entry hEntry => hOk entry (List.mem_cons_of_mem _ hEntry)
          obtain ⟨hHolds, hOthers⟩ := ih (isDirectory_kept hKept.directories hDir)
            (fun d hd => isIn_kept hKept (hInRest d hd)) hRest hOkRest
          constructor
          · refine holds_append (fun g hg hAlone => ?_) hHolds
            obtain ⟨target, -, -, hPath⟩ := exists_target (rendition_files hRendition) g hg
            have hReadHere := hRead g hg
            rw [hPath] at hAlone hReadHere ⊢
            exact processAll_read hWrites independent hRest hOkRest hAlone hReadHere
          · rw [List.map_cons, hRendition, hOthers]
            refine congrArg _ (List.map_congr_left fun d hd => ?_)
            rw [rendition_kept hKept hDir (hInRest d hd)]

/-! ## The check -/

/-- The settings of a run that only checks. -/
def Settings.checking (settings : Settings) : Settings := { settings with checkOnly := true }

theorem plan_checking {w w' : Workspace} (h : KeepsDocuments w w')
    {planned : List CommDocuments × Bool} (hPlan : settings.plan w = .ok planned) :
    settings.checking.plan w' = .ok planned := by
  unfold Settings.plan at hPlan
  obtain ⟨all, hAll, hPlan⟩ := bind_eq_ok.mp hPlan
  have hAgain : discover w' settings.checking.commsDir = .ok all := discover_kept h hAll
  rw [Settings.plan, hAgain]
  exact hPlan

/-- A check leaves the workspace as it is, and each comm comes to what its documents give. -/
theorem processAll_checking (independent : Bool) {selected : List CommDocuments} {w : Workspace}
    (hOk : ∀ d ∈ selected, ∃ rendition, settings.rendition formatter w d = .ok rendition) :
    settings.checking.processAll formatter independent w selected =
      (w, selected.map fun d => (d.name, settings.rendition formatter w d)) := by
  induction selected with
  | nil => rfl
  | cons documents rest ih =>
      obtain ⟨⟨rendition, hRendition⟩, hRest⟩ := List.forall_mem_cons.mp hOk
      have hTurn : settings.checking.process formatter w documents = (w, .ok rendition) := by
        have hSame : settings.checking.rendition formatter w documents = .ok rendition :=
          hRendition
        rw [Settings.process, hSame]
        rfl
      rw [processAll_cons (by rw [hTurn]; rfl), hTurn]
      simp only
      rw [ih hRest, List.map_cons, hRendition]

/-- Where every file can be read as a text, the paths of those that differ are listed. -/
theorem staleAmong_total {w : Workspace} {files : List GeneratedFile}
    (h : ∀ g ∈ files, ∃ isCurrent, g.file.isCurrent w = .ok isCurrent) :
    ∃ stale, Settings.staleAmong w files = .ok stale ∧ ∀ path,
      path ∈ stale ↔ ∃ g ∈ files, g.file.path = path ∧ g.file.isCurrent w = .ok false := by
  refine ⟨_, staleAmong_of_current h, fun path => ?_⟩
  rw [List.mem_map]
  refine exists_congr fun g => ?_
  rw [List.mem_filter, and_assoc, and_comm (b := g.file.path = path)]
  refine and_congr_right fun hg => and_congr_right fun _ => ?_
  obtain ⟨isCurrent, hCurrent⟩ := h g hg
  rw [GeneratedFile.isOld, hCurrent]
  cases isCurrent <;> simp

/-- A file that a check finds again: it holds no carriage return, and no file with another content
goes to its path. -/
def GeneratedFile.IsLasting (g : GeneratedFile) (files : List GeneratedFile) : Prop :=
  '\r' ∉ g.file.content.toList ∧
    ∀ g' ∈ files, g'.file.path = g.file.path → g'.file.content = g.file.content

/-- Where one file of each path stands, a path is listed exactly if a file that goes there does not
last. -/
theorem mem_stale_iff {w : Workspace} {files : List GeneratedFile}
    (hHolds : HoldsOneOfEach w files) :
    ∃ stale, Settings.staleAmong w files = .ok stale ∧ ∀ path,
      path ∈ stale ↔ ∃ g ∈ files, g.file.path = path ∧ ¬ g.IsLasting files := by
  have hTotal : ∀ g ∈ files, ∃ isCurrent, g.file.isCurrent w = .ok isCurrent := by
    intro g hg
    obtain ⟨last, -, -, hRead⟩ := hHolds g hg
    exact ⟨_, isCurrent_of_read hRead⟩
  obtain ⟨stale, hStale, hMem⟩ := staleAmong_total hTotal
  refine ⟨stale, hStale, fun path => (hMem path).trans ?_⟩
  constructor
  · rintro ⟨g, hg, hPath, hOld⟩
    obtain ⟨last, hLast, hLastPath, hRead⟩ := hHolds g hg
    rw [isCurrent_of_read hRead, Except.ok.injEq, decide_eq_false_iff_not] at hOld
    by_cases hReturn : '\r' ∈ last.file.content.toList
    · exact ⟨last, hLast, hLastPath.trans hPath, fun hLasting => hLasting.1 hReturn⟩
    · -- what is read is what was written, so it was written for another file
      refine ⟨g, hg, hPath, fun hLasting => hOld ?_⟩
      rw [Utf8.joinLineEnds_of_not_mem hReturn, String.ofList_toList]
      exact hLasting.2 last hLast hLastPath
  · rintro ⟨g, hg, hPath, hPassing⟩
    obtain ⟨last, hLast, hLastPath, hRead⟩ := hHolds g hg
    -- a file that goes there and is not what is read there is listed
    have hListed : ∀ g' ∈ files, g'.file.path = g.file.path →
        String.ofList (Utf8.joinLineEnds last.file.content.toList) ≠ g'.file.content →
          ∃ g ∈ files, g.file.path = path ∧ g.file.isCurrent w = .ok false := by
      intro g' hg' hSame hOther
      refine ⟨g', hg', hSame.trans hPath, ?_⟩
      rw [isCurrent_of_read (hSame ▸ hRead), decide_eq_false hOther]
    by_cases hText :
        String.ofList (Utf8.joinLineEnds last.file.content.toList) = g.file.content
    · have hNoReturn : '\r' ∉ g.file.content.toList := by
        rw [← hText, String.toList_ofList]
        exact Utf8.not_mem_joinLineEnds _
      have hOther : ∃ g' ∈ files, g'.file.path = g.file.path ∧
          g'.file.content ≠ g.file.content := by
        by_contra hNone
        refine hPassing ⟨hNoReturn, fun g' hg' hSame => ?_⟩
        by_contra hDiffers
        exact hNone ⟨g', hg', hSame, hDiffers⟩
      obtain ⟨g', hg', hSame, hDiffers⟩ := hOther
      exact hListed g' hg' hSame fun hRead' => hDiffers (hRead'.symm.trans hText)
    · exact hListed g hg rfl hText

/-- A check after a successful run comes to the report of the run, but for what it lists. -/
theorem generate_again (hWrites : settings.checkOnly = false) {w w' : Workspace}
    {report : Report} (h : settings.generate formatter w = (w', .ok report))
    (hOk : report.isOk = true) :
    HoldsOneOfEach w' report.files ∧ settings.checking.generate formatter w' =
      (w', (Settings.staleAmong w' report.files).map fun stale =>
        { report with stale := stale }) := by
  obtain ⟨selected, independent, outcomes, hPlan, hAll, hReported⟩ := generate_ok h
  have hReport : { Report.ofOutcomes outcomes with stale := [] } = report := by
    rw [generate_of_writes hWrites hPlan hAll hReported] at h
    exact Except.ok.inj (Prod.mk.inj h).2
  subst hReport
  have hSuccess : ∀ entry ∈ outcomes, ∃ rendition, entry.2 = .ok rendition := by
    rw [Report.isOk, Bool.and_eq_true, List.isEmpty_iff] at hOk
    exact failures_eq_nil_iff.mp hOk.1
  obtain ⟨hDir, hIn⟩ := isIn_plan hPlan
  obtain ⟨hHolds, hOutcomes⟩ := processAll_holds hWrites independent hDir hIn hAll hSuccess
  refine ⟨hHolds, ?_⟩
  have hKept := processAll_kept formatter hWrites independent selected w
  rw [hAll] at hKept
  -- the documents are as they were, and so each comm comes to the same
  have hSame : outcomes = selected.map fun d => (d.name, settings.rendition formatter w' d) := by
    rw [hOutcomes]
    refine List.map_congr_left fun d hd => ?_
    rw [rendition_kept hKept hDir (hIn d hd)]
  have hAgain : settings.checking.processAll formatter independent w' selected =
      (w', outcomes) := by
    rw [processAll_checking, ← hSame]
    intro d hd
    apply hSuccess (d.name, settings.rendition formatter w' d)
    rw [hSame]
    exact List.mem_map.mpr ⟨d, hd, rfl⟩
  exact generate_of_outcomes (plan_checking hKept hPlan) hAgain hReported

/-- After a run that wrote everything, a check comes to the same report but for the paths that it
lists, which are those of the files that do not last. So what was just generated is up to date
exactly if all of its files last. -/
theorem generate_upToDate {settings : Settings} {formatter : Formatter} {w w' : Workspace}
    {report : Report} (hWrites : settings.checkOnly = false)
    (h : settings.generate formatter w = (w', .ok report)) (hOk : report.isOk = true) :
    ∃ again, settings.checking.generate formatter w' = (w', .ok again) ∧
      again.processed = report.processed ∧ again.failures = [] ∧ again.files = report.files ∧
      again.warnings = report.warnings ∧
      (∀ path, path ∈ again.stale ↔
        ∃ g ∈ report.files, g.file.path = path ∧ ¬ g.IsLasting report.files) ∧
      (again.isOk = true ↔ ∀ g ∈ report.files, g.IsLasting report.files) := by
  obtain ⟨hHolds, hAgain⟩ := generate_again hWrites h hOk
  obtain ⟨stale, hStale, hMem⟩ := mem_stale_iff hHolds
  have hFailures : report.failures = [] := by
    rw [Report.isOk, Bool.and_eq_true, List.isEmpty_iff] at hOk
    exact hOk.1
  refine ⟨{ report with stale := stale }, ?_, rfl, hFailures, rfl, rfl, hMem, ?_⟩
  · rw [hAgain, hStale]
    rfl
  · rw [Report.isOk, hFailures, List.isEmpty_nil, Bool.true_and, List.isEmpty_iff,
      List.eq_nil_iff_forall_not_mem]
    constructor
    · intro hNone g hg
      by_contra hPassing
      exact hNone g.file.path ((hMem g.file.path).mpr ⟨g, hg, rfl, hPassing⟩)
    · intro hAll path hPath
      obtain ⟨g, hg, -, hPassing⟩ := (hMem path).mp hPath
      exact hPassing (hAll g hg)

/-! ## A run on one document -/

/-- A workspace with one comm, which has a backend contract. -/
def loneWorkspace (document : String) : Workspace :=
  ⟨[(["comms"], .directory), (["out"], .directory),
    (["comms", "ui-backend-openrpc.json"], .file (Utf8.encode document))]⟩

/-- Settings for a run that writes all files to one directory. -/
def loneSettings : Settings :=
  ⟨⟨["comms"]⟩, ⟨["out"]⟩, ⟨["out"]⟩, ⟨["out"]⟩, [], false, false, none⟩

/-- The documents of the comm. -/
def loneDocuments : CommDocuments := ⟨"ui", some ⟨["comms", "ui-backend-openrpc.json"]⟩, none⟩

theorem plan_lone (document : String) :
    loneSettings.plan (loneWorkspace document) = .ok ([loneDocuments], false) := by
  have hNames : Discovery.fileNames (loneWorkspace document) ["comms"] =
      ["ui-backend-openrpc.json"] := by
    cbv
  have hPlace : loneSettings.commsDir.place = ["comms"] := by
    decide
  have hGathered : (((Discovery.fileNames (loneWorkspace document)
      loneSettings.commsDir.place).filter Discovery.isDocument).map
        loneSettings.commsDir.child).foldlM Discovery.add [] = .ok [loneDocuments] := by
    rw [hPlace, hNames]
    decide
  have hDirectory : (loneWorkspace document).isDirectory loneSettings.commsDir = .ok true := rfl
  rw [Settings.plan, discover_of_gathered hDirectory hGathered, List.mergeSort_singleton]
  rfl

/-- If the comm succeeds, the run reports it with its files. -/
theorem generate_lone {document : String} {rendition : Rendition}
    (h : (loneSettings.process .identity (loneWorkspace document) loneDocuments).2 =
      .ok rendition) :
    loneSettings.generate .identity (loneWorkspace document) =
      ((loneSettings.process .identity (loneWorkspace document) loneDocuments).1,
        .ok ⟨["ui"], [], rendition.files ++ [], rendition.warnings ++ [], []⟩) := by
  have hAll : loneSettings.processAll .identity false (loneWorkspace document) [loneDocuments] =
      ((loneSettings.process .identity (loneWorkspace document) loneDocuments).1,
        [("ui", .ok rendition)]) := by
    rw [processAll_cons (by rw [h]; rfl)]
    simp only [h]
    rfl
  exact generate_of_writes rfl (plan_lone document) hAll (List.forall_mem_singleton.mpr rfl)

theorem typeScript_content {w : Workspace} {documents : CommDocuments} {rendition : Rendition}
    {comm : Comm} {text : String}
    (h : settings.rendition formatter w documents = .ok rendition)
    (hComm : loadComm w documents = .ok comm) (hText : Target.typeScript.render comm = .ok text) :
    ∃ g ∈ rendition.files, g.file.content = text := by
  unfold Settings.rendition at h
  obtain ⟨found, hFound, h⟩ := bind_eq_ok.mp h
  obtain ⟨warnings, -, h⟩ := bind_eq_ok.mp h
  obtain ⟨files, hFiles, h⟩ := bind_eq_ok.mp h
  cases h
  rw [hComm] at hFound
  cases hFound
  obtain ⟨g, hFirst, hg⟩ : ∃ g, settings.renderFile formatter comm .typeScript = .ok g ∧
      g ∈ files := by
    cases mapM_eq_ok.mp hFiles with
    | cons hFirst hRest => exact ⟨_, hFirst, List.mem_cons_self⟩
  refine ⟨g, hg, ?_⟩
  unfold Settings.renderFile at hFirst
  rw [hText] at hFirst
  cases hFirst
  rfl

/-- A comm without methods is written and then checked. -/
theorem upToDate_noMethods :
    let w := loneWorkspace "\x7b\"methods\": []\x7d"
    let run := loneSettings.generate .identity w
    ∃ report again, run.2 = .ok report ∧ report.processed = ["ui"] ∧
      loneSettings.checking.generate .identity run.1 = (run.1, .ok again) ∧
      again.processed = ["ui"] ∧ again.files = report.files ∧
      (again.isOk = true ↔ ∀ g ∈ report.files, g.IsLasting report.files) := by
  intro w run
  have hOk : (loneSettings.process .identity w loneDocuments).2.isOk = true := by
    decide +kernel
  cases hTurn : (loneSettings.process .identity w loneDocuments).2 with
  | error fault =>
      rw [hTurn] at hOk
      cases hOk
  | ok rendition =>
      have hRun : loneSettings.generate .identity w = _ := generate_lone hTurn
      have hEnd : run.1 = (loneSettings.process .identity w loneDocuments).1 := by
        rw [show run = _ from hRun]
      obtain ⟨again, hAgain, hProcessed, -, hFiles, -, -, hLasting⟩ :=
        generate_upToDate rfl hRun rfl
      rw [← hEnd] at hAgain
      exact ⟨_, again, congrArg Prod.snd hRun, rfl, hAgain, hProcessed, hFiles, hLasting⟩

/-- The name of a method holds a carriage return: right after the run its files are out of date. -/
theorem stale_carriageReturn :
    let w := loneWorkspace
      "\x7b\"methods\": [\x7b\"name\": \"a\\rb\", \"summary\": \"s\", \"description\": \"d\"\x7d]\x7d"
    let run := loneSettings.generate .identity w
    ∃ report again, run.2 = .ok report ∧ report.isOk = true ∧
      loneSettings.checking.generate .identity run.1 = (run.1, .ok again) ∧
      again.isOk = false := by
  intro w run
  have hOk : (loneSettings.process .identity w loneDocuments).2.isOk = true := by
    decide +kernel
  have hReturn : ((loadComm w loneDocuments).toOption.any fun comm =>
      ((Target.typeScript.print comm).toItems.toOption.any fun items =>
        items[3]?.any fun item => item.toList.contains '\r')) = true := by
    decide +kernel
  cases hTurn : (loneSettings.process .identity w loneDocuments).2 with
  | error fault =>
      rw [hTurn] at hOk
      cases hOk
  | ok rendition =>
      have hRun : loneSettings.generate .identity w = _ := generate_lone hTurn
      have hEnd : run.1 = (loneSettings.process .identity w loneDocuments).1 := by
        rw [show run = _ from hRun]
      have hRendition := (process_ok rfl (Prod.ext rfl hTurn)).1
      obtain ⟨g, hg, hMem⟩ : ∃ g ∈ rendition.files, '\r' ∈ g.file.content.toList := by
        obtain ⟨comm, hComm, hReturn⟩ := (Option.any_eq_true _ _).mp hReturn
        obtain ⟨items, hItems, hReturn⟩ := (Option.any_eq_true _ _).mp hReturn
        obtain ⟨item, hItem, hReturn⟩ := (Option.any_eq_true _ _).mp hReturn
        have hText : Target.typeScript.render comm = .ok (String.join items) := by
          rw [Target.render, ok_of_toOption hItems]
          rfl
        obtain ⟨g, hg, hContent⟩ := typeScript_content hRendition (ok_of_toOption hComm) hText
        refine ⟨g, hg, ?_⟩
        rw [hContent, String.toList_join]
        exact List.mem_flatMap.mpr
          ⟨item, List.mem_of_getElem? hItem, List.contains_iff_mem.mp hReturn⟩
      obtain ⟨hHolds, hAgain⟩ := generate_again rfl hRun rfl
      obtain ⟨stale, hStale, hListed⟩ := mem_stale_iff hHolds
      rw [hStale, ← hEnd] at hAgain
      refine ⟨_, _, congrArg Prod.snd hRun, rfl, hAgain, ?_⟩
      have hPath : g.file.path ∈ stale :=
        (hListed _).mpr ⟨g, List.mem_append_left _ hg, rfl, fun hLasting => hLasting.1 hMem⟩
      rw [Report.isOk]
      simp [List.ne_nil_of_mem hPath]

end CommBindings
