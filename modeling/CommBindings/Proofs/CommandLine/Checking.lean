import CommBindings.CommandLine.Basic
import CommBindings.Proofs.Generation.Order
import CommBindings.Proofs.Generation.Selection
import CommBindings.Proofs.Generation.UpToDate

set_option autoImplicit false

/-! # A check changes nothing and tells the truth

Where the option to check is among the words of an accepted command line, in any spelling, it is in
force (`check_of_accepted`), and no path through the command changes the workspace. The command
then ends well exactly if what it needs is there, there are comms, all that are asked for are known,
and the files of those stand in the workspace as they would be written (`run_checks`).
-/

namespace CommBindings

open Workspace

variable {settings : Settings} {formatter : Formatter} {w : Workspace}

/-! ## One comm -/

/-- The file of a target for a comm can be rendered, and stands in the workspace as it was
rendered. -/
def Settings.HoldsFile (settings : Settings) (formatter : Formatter) (w : Workspace) (comm : Comm)
    (target : Target) : Prop :=
  ∃ generated, settings.renderFile formatter comm target = .ok generated ∧
    w.readText generated.file.path = .ok generated.file.content

/-- The comm can be loaded, it is valid, and the workspace holds the files of all targets. -/
def Settings.IsUpToDate (settings : Settings) (formatter : Formatter) (w : Workspace)
    (documents : CommDocuments) : Prop :=
  ∃ comm warnings, loadComm w documents = .ok comm ∧ validate comm = .ok warnings ∧
    ∀ target, settings.HoldsFile formatter w comm target

theorem isCurrent_iff {file : OutputFile} :
    file.isCurrent w = .ok true ↔ w.readText file.path = .ok file.content := by
  unfold OutputFile.isCurrent
  split
  · next text hText => rw [hText, Except.ok.injEq, Except.ok.injEq, decide_eq_true_eq]
  · next error hText =>
    rw [hText]
    split <;> simp
  · next error hText => simp [hText]

/-- A comm is up to date if it can be rendered and each of its files is current. -/
theorem isUpToDate_iff {documents : CommDocuments} :
    settings.IsUpToDate formatter w documents ↔
      ∃ rendition, settings.rendition formatter w documents = .ok rendition ∧
        ∀ g ∈ rendition.files, g.file.isCurrent w = .ok true := by
  constructor
  · rintro ⟨comm, warnings, hComm, hWarnings, hHolds⟩
    have hEach : ∀ target ∈ Target.all, ∃ g,
        settings.renderFile formatter comm target = .ok g ∧ g.file.isCurrent w = .ok true := by
      intro target _
      obtain ⟨g, hRender, hRead⟩ := hHolds target
      exact ⟨g, hRender, isCurrent_iff.mpr hRead⟩
    obtain ⟨files, hFiles, hCurrent⟩ := exists_forall₂ hEach
    exact ⟨_, bind_eq_ok.mpr ⟨comm, hComm, bind_eq_ok.mpr ⟨warnings, hWarnings,
      bind_eq_ok.mpr ⟨files, mapM_eq_ok.mpr hFiles, rfl⟩⟩⟩, hCurrent⟩
  · rintro ⟨rendition, hRendition, hCurrent⟩
    obtain ⟨comm, hComm, hRendition⟩ := bind_eq_ok.mp hRendition
    obtain ⟨warnings, hWarnings, hRendition⟩ := bind_eq_ok.mp hRendition
    obtain ⟨files, hFiles, hEnd⟩ := bind_eq_ok.mp hRendition
    cases hEnd
    refine ⟨comm, warnings, hComm, hWarnings, fun target => ?_⟩
    obtain ⟨g, hg, hRender⟩ := exists_of_mapM hFiles (mem_all target)
    exact ⟨g, hRender, isCurrent_iff.mp (hCurrent g hg)⟩

theorem staleAmong_nil_iff {files : List GeneratedFile} :
    Settings.staleAmong w files = .ok [] ↔ ∀ g ∈ files, g.file.isCurrent w = .ok true := by
  constructor
  · intro h g hg
    have hCurrent := current_of_staleAmong h
    rw [staleAmong_of_current hCurrent, Except.ok.injEq, List.map_eq_nil_iff,
      List.filter_eq_nil_iff] at h
    obtain ⟨isCurrent, hHere⟩ := hCurrent g hg
    have hNew := h g hg
    rw [GeneratedFile.isOld, hHere] at hNew
    cases isCurrent with
    | true => exact hHere
    | false => exact absurd rfl hNew
  · intro h
    rw [staleAmong_of_current fun g hg => ⟨true, h g hg⟩, List.filter_eq_nil_iff.mpr]
    · rfl
    · intro g hg
      rw [GeneratedFile.isOld, h g hg]
      exact Bool.false_ne_true

/-! ## All comms -/

/-- Every comm that is asked for is among those that were found. -/
theorem known_of_select {all selected : List CommDocuments}
    (h : settings.select all = .ok selected) :
    ∀ name ∈ settings.comms, name ∈ all.map CommDocuments.name := by
  intro name hName
  unfold Settings.select at h
  split at h
  · next hNone =>
    rw [List.isEmpty_iff.mp hNone] at hName
    exact absurd hName List.not_mem_nil
  · simp only at h
    split at h
    · next hMissing =>
      by_contra hUnknown
      have hListed : name ∈ Schema.sortedTexts
          (settings.comms.filter fun name => !all.any fun documents => documents.name = name) := by
        refine mem_sortedTexts.mpr (List.mem_filter.mpr ⟨hName, ?_⟩)
        rw [Bool.not_eq_true', ← Bool.not_eq_true, List.any_eq_true]
        rintro ⟨d, hd, hSame⟩
        exact hUnknown (List.mem_map.mpr ⟨d, hd, of_decide_eq_true hSame⟩)
      rw [hMissing] at hListed
      exact List.not_mem_nil hListed
    · cases h

theorem mem_select {all selected : List CommDocuments} (h : settings.select all = .ok selected)
    {d : CommDocuments} :
    d ∈ selected ↔ d ∈ all ∧ (settings.comms = [] ∨ d.name ∈ settings.comms) := by
  rw [select_ok h, List.mem_filter, Bool.or_eq_true, List.isEmpty_iff, List.contains_iff_mem]

/-- Of comms that were found a run has at least one. -/
theorem select_ne_nil {all selected : List CommDocuments}
    (h : settings.select all = .ok selected) (hSome : all ≠ []) : selected ≠ [] := by
  cases hComms : settings.comms with
  | nil =>
      obtain ⟨d, hd⟩ := List.exists_mem_of_ne_nil all hSome
      exact List.ne_nil_of_mem ((mem_select h).mpr ⟨hd, Or.inl hComms⟩)
  | cons name rest =>
      have hAsked : name ∈ settings.comms := by
        rw [hComms]
        exact List.mem_cons_self
      obtain ⟨d, hd, rfl⟩ := List.mem_map.mp (known_of_select h name hAsked)
      exact List.ne_nil_of_mem ((mem_select h).mpr ⟨hd, Or.inr hAsked⟩)

/-- In a run that only checks, each comm comes to what its documents give. -/
theorem outcomes_checkOnly (hCheck : settings.checkOnly = true) {independent : Bool}
    {w' : Workspace} {selected : List CommDocuments} {outcomes : List (String × Outcome)}
    (h : settings.processAll formatter independent w selected = (w', outcomes))
    (hReported : ∀ entry ∈ outcomes, Settings.unreported? entry.2 = none) :
    outcomes = selected.map fun d => (d.name, settings.rendition formatter w d) := by
  induction selected generalizing outcomes with
  | nil =>
      cases h
      rfl
  | cons documents rest ih =>
      rw [processAll_cons (hReported _ (processAll_head h)), process_checkOnly hCheck] at h
      cases h
      exact congrArg (List.cons _)
        (ih rfl fun entry hEntry => hReported entry (List.mem_cons_of_mem _ hEntry))

theorem generate_checkOnly (hCheck : settings.checkOnly = true) :
    (settings.generate formatter w).1 = w := by
  unfold Settings.generate
  split
  · rfl
  · next selected independent _ =>
    have hSame := @processAll_checkOnly settings formatter hCheck independent w selected
    simp only
    split <;> exact hSame

theorem checking_eq (hCheck : settings.checkOnly = true) : settings.checking = settings := by
  cases settings
  cases hCheck
  rfl

theorem processed_ne_nil {outcomes : List (String × Outcome)}
    (hOk : ∀ entry ∈ outcomes, ∃ rendition, entry.2 = .ok rendition) (hSome : outcomes ≠ []) :
    (Report.ofOutcomes outcomes).processed ≠ [] := by
  obtain ⟨⟨name, outcome⟩, rest, rfl⟩ := List.exists_cons_of_ne_nil hSome
  obtain ⟨rendition, hRendition⟩ := hOk _ List.mem_cons_self
  simp only at hRendition
  subst hRendition
  exact List.cons_ne_nil _ _

/-- A run that only checks processes a comm, and finds no failure and nothing out of date, exactly
if there are comms, those that are asked for are known, and those of the run are up to date. -/
theorem generate_isOk_iff (hCheck : settings.checkOnly = true)
    (hWorkers : ∀ count, settings.workers = some count → 0 < count) :
    (∃ report, (settings.generate formatter w).2 = .ok report ∧ report.processed ≠ [] ∧
        report.isOk = true) ↔
      ∃ found, discover w settings.commsDir = .ok found ∧ found ≠ [] ∧
        (∀ name ∈ settings.comms, name ∈ found.map CommDocuments.name) ∧
        ∀ d ∈ found, settings.comms = [] ∨ d.name ∈ settings.comms →
          settings.IsUpToDate formatter w d := by
  constructor
  · rintro ⟨report, hReport, hSome, hOk⟩
    have hRun : settings.generate formatter w = (w, .ok report) :=
      Prod.ext (generate_checkOnly hCheck) hReport
    obtain ⟨selected, independent, outcomes, hPlan, hAll, hReported⟩ := generate_ok hRun
    rw [generate_of_outcomes hPlan hAll hReported, Settings.staleIn, if_pos hCheck] at hReport
    obtain ⟨stale, hStale, rfl⟩ := map_eq_ok.mp hReport
    rw [Report.isOk, Bool.and_eq_true, List.isEmpty_iff, List.isEmpty_iff] at hOk
    obtain ⟨hFailures, rfl⟩ := hOk
    obtain ⟨found, hFound, hPlan⟩ := bind_eq_ok.mp hPlan
    obtain ⟨chosen, hChosen, hPlan⟩ := bind_eq_ok.mp hPlan
    obtain ⟨workers, -, hEnd⟩ := bind_eq_ok.mp hPlan
    cases hEnd
    have hOutcomes := outcomes_checkOnly hCheck hAll hReported
    refine ⟨found, hFound, ?_, known_of_select hChosen, fun d hd hAsked => ?_⟩
    · rintro rfl
      rw [select_ok hChosen, List.filter_nil, List.map_nil] at hOutcomes
      subst hOutcomes
      exact hSome rfl
    · have hMem : (d.name, settings.rendition formatter w d) ∈ outcomes := by
        rw [hOutcomes]
        exact List.mem_map.mpr ⟨d, (mem_select hChosen).mpr ⟨hd, hAsked⟩, rfl⟩
      obtain ⟨rendition, hRendition⟩ := failures_eq_nil_iff.mp hFailures _ hMem
      simp only at hRendition
      rw [hRendition] at hMem
      refine isUpToDate_iff.mpr ⟨rendition, hRendition, fun g hg => ?_⟩
      exact staleAmong_nil_iff.mp hStale g (mem_files_ofOutcomes.mpr ⟨_, _, hMem, hg⟩)
  · rintro ⟨found, hFound, hSome, hKnown, hUpToDate⟩
    obtain ⟨selected, hSelected, -⟩ := select_total hKnown
    obtain ⟨independent, hIndependent⟩ := usesWorkers_total hWorkers selected
    have hPlan : settings.plan w = .ok (selected, independent) :=
      bind_eq_ok.mpr ⟨found, hFound, bind_eq_ok.mpr ⟨selected, hSelected,
        bind_eq_ok.mpr ⟨independent, hIndependent, rfl⟩⟩⟩
    have hRenditions : ∀ d ∈ selected, ∃ rendition,
        settings.rendition formatter w d = .ok rendition ∧
          ∀ g ∈ rendition.files, g.file.isCurrent w = .ok true := by
      intro d hd
      obtain ⟨hAll, hAsked⟩ := (mem_select hSelected).mp hd
      exact isUpToDate_iff.mp (hUpToDate d hAll hAsked)
    obtain ⟨outcomes, hOutcomes⟩ : ∃ outcomes, outcomes =
        selected.map fun d => (d.name, settings.rendition formatter w d) := ⟨_, rfl⟩
    have hAll : settings.processAll formatter independent w selected = (w, outcomes) := by
      have hChecking := @processAll_checking settings formatter independent selected w
        fun d hd => (hRenditions d hd).imp fun rendition h => h.1
      rwa [checking_eq hCheck, ← hOutcomes] at hChecking
    have hOk : ∀ entry ∈ outcomes, ∃ rendition, entry.2 = .ok rendition := by
      rw [hOutcomes]
      refine List.forall_mem_map.mpr fun d hd => ?_
      obtain ⟨rendition, hRendition, -⟩ := hRenditions d hd
      exact ⟨rendition, hRendition⟩
    have hStale : Settings.staleAmong w (Report.ofOutcomes outcomes).files = .ok [] := by
      refine staleAmong_nil_iff.mpr fun g hg => ?_
      obtain ⟨name, rendition, hEntry, hg⟩ := mem_files_ofOutcomes.mp hg
      rw [hOutcomes] at hEntry
      obtain ⟨d, hd, hEntry⟩ := List.mem_map.mp hEntry
      obtain ⟨rendition', hRendition, hCurrent⟩ := hRenditions d hd
      rw [hRendition] at hEntry
      cases hEntry
      exact hCurrent g hg
    refine ⟨{ Report.ofOutcomes outcomes with stale := [] }, ?_, processed_ne_nil hOk ?_, ?_⟩
    · rw [generate_of_outcomes hPlan hAll (reported_of_ok hOk), Settings.staleIn, if_pos hCheck,
        hStale]
      rfl
    · rw [hOutcomes, Ne, List.map_eq_nil_iff]
      exact select_ne_nil hSelected hSome
    · rw [Report.isOk, failures_eq_nil_iff.mpr hOk]
      rfl

namespace CommandLine

/-! ## Accepted words -/

/-- The word is a spelling of the option, perhaps a shortened one. -/
def Spells (word : String) (name : OptionName) : Prop :=
  classify word.toList = .ok (.option name none)

theorem spells_check : Spells "--check" .check := by
  show classify _ = _
  decide

example : Spells "--ch" .check := by
  show classify _ = _
  decide

theorem mem_classifyAll {words : List String} {classified : List Word} {word : String}
    {first : Word} (h : classifyAll words = .ok classified) (hWord : word ∈ words)
    (hFirst : classify word.toList = .ok first) :
    Word.separator ∈ classified ∨ first ∈ classified := by
  induction words generalizing classified with
  | nil => exact absurd hWord List.not_mem_nil
  | cons head rest ih =>
      rw [classifyAll] at h
      split at h
      · cases h
        exact Or.inl List.mem_cons_self
      · obtain ⟨here, hHere, h⟩ := bind_eq_ok.mp h
        obtain ⟨others, hOthers, hEnd⟩ := bind_eq_ok.mp h
        cases hEnd
        rcases List.mem_cons.mp hWord with rfl | hWord
        · rw [hFirst] at hHere
          cases hHere
          exact Or.inr List.mem_cons_self
        · exact (ih hOthers hWord).imp (List.mem_cons_of_mem _) (List.mem_cons_of_mem _)

theorem check_give {options options' : Options} {name : OptionName} {value : Argument String}
    (h : options.give name value = .ok options') : options'.check = options.check := by
  cases name
  case workers =>
    obtain ⟨count, -, hEnd⟩ := bind_eq_ok.mp h
    cases hEnd
    rfl
  all_goals
    cases h
    rfl

theorem check_turnOn {options options' : Options} {name : OptionName}
    (h : options.turnOn name = .ok options') (hCheck : options.check = true ∨ name = .check) :
    options'.check = true := by
  cases name
  case help => cases h
  case check =>
    cases h
    rfl
  all_goals
    cases h
    exact hCheck.resolve_right (by decide)

/-- Where no word is left over, none separated the others, and the option to check was in force from
the start or is in force at the end if it is among the words. -/
theorem take_ok {options options' : Options} {extras : List String} {words : List Word}
    (h : options.take extras words = .ok (options', [])) :
    extras = [] ∧ Word.separator ∉ words ∧
      (options.check = true ∨ Word.option .check none ∈ words → options'.check = true) := by
  -- along the words, of which an option may take two
  fun_induction Options.take options extras words with
  | case1 options extras =>
      cases h
      exact ⟨rfl, List.not_mem_nil, fun hCheck => hCheck.resolve_right List.not_mem_nil⟩
  | case2 options extras text rest ih => exact absurd (ih h).1 (by simp)
  | case3 options extras rest ih => exact absurd (ih h).1 (by simp)
  | case4 options extras text rest ih => exact absurd (ih h).1 (by simp)
  | case5 => cases h
  | case6 options extras name value rest hTakes ih =>
      obtain ⟨next, hNext, hRest⟩ := bind_eq_ok.mp h
      obtain ⟨hExtras, hSeparator, hCheck⟩ := ih next hRest
      rw [check_give hNext] at hCheck
      exact ⟨hExtras, by simpa using hSeparator, by simpa using hCheck⟩
  | case7 => cases h
  | case8 options extras name hTakes value rest ih =>
      obtain ⟨next, hNext, hRest⟩ := bind_eq_ok.mp h
      obtain ⟨hExtras, hSeparator, hCheck⟩ := ih next hRest
      rw [check_give hNext] at hCheck
      have hOther : OptionName.check ≠ name := by
        rintro rfl
        cases hTakes
      exact ⟨hExtras, by simpa using hSeparator, by simpa [hOther] using hCheck⟩
  | case9 => cases h
  | case10 options extras name rest hTakes ih =>
      obtain ⟨next, hNext, hRest⟩ := bind_eq_ok.mp h
      obtain ⟨hExtras, hSeparator, hCheck⟩ := ih next hRest
      refine ⟨hExtras, by simpa using hSeparator, fun hBefore => hCheck ?_⟩
      rcases hBefore with hOn | hHere
      · exact Or.inl (check_turnOn hNext (Or.inl hOn))
      · rcases List.mem_cons.mp hHere with hHere | hLater
        · cases hHere
          exact Or.inl (check_turnOn hNext (Or.inr rfl))
        · exact Or.inr hLater

/-- The option to check is in force if it is among the words of an accepted command line. -/
theorem check_of_accepted {words : List String} {options : Options}
    (hAccepted : Options.ofWords words = .ok options)
    (hCheck : ∃ word ∈ words, Spells word .check) : options.check = true := by
  obtain ⟨word, hWord, hSpells⟩ := hCheck
  unfold Options.ofWords at hAccepted
  split at hAccepted
  · cases hAccepted
  · next classified hClassified =>
    split at hAccepted
    · cases hAccepted
    · next found hTake =>
      cases hAccepted
      obtain ⟨-, hSeparator, hOn⟩ := take_ok hTake
      exact hOn (Or.inr ((mem_classifyAll hClassified hWord hSpells).resolve_left hSeparator))
    · cases hAccepted

/-! ## The end of the command -/

variable {options : Options}

theorem pathOf_given {current : Path} {name : OptionName} {argument : Option (Argument String)}
    {standard text : String} {path : Path} (hText : argument.getD (.given standard) = .given text)
    (hPath : Path.ofText current text = path) (hNul : path.holdsNul = false) :
    pathOf current name argument standard = .ok path.flattened := by
  unfold pathOf
  rw [hText]
  simp only [hPath, hNul, Bool.false_eq_true, if_false]

theorem settingsOf_ok {current : Path} {standard : DefaultPaths}
    (h : settingsOf current standard options = .ok settings) :
    pathOf current .pythonDir options.pythonDir standard.pythonDir = .ok settings.pythonDir ∧
      settings.comms = options.comms.filterMap Argument.value? ∧
      settings.checkOnly = options.check ∧
      settings.workers = options.workers.bind Argument.value? := by
  obtain ⟨commsDir, -, h⟩ := bind_eq_ok.mp h
  obtain ⟨typeScriptDir, -, h⟩ := bind_eq_ok.mp h
  obtain ⟨rustDir, -, h⟩ := bind_eq_ok.mp h
  obtain ⟨pythonDir, hPython, hEnd⟩ := bind_eq_ok.mp h
  cases hEnd
  exact ⟨hPython, rfl, rfl, rfl⟩

theorem checkPrerequisites_ok_iff :
    settings.checkPrerequisites w formatter = .ok () ↔
      w.isDirectory settings.rustDir = .ok true ∧
        ∃ output errors, formatter.version = .exited 0 output errors := by
  have hFormatter : formatter.check = .ok () ↔
      ∃ output errors, formatter.version = .exited 0 output errors := by
    unfold Formatter.check
    cases formatter.version with
    | notStarted reason => simp
    | exited code output errors => by_cases hCode : code = 0 <;> simp [hCode]
  unfold Settings.checkPrerequisites
  rw [← hFormatter]
  cases w.isDirectory settings.rustDir with
  | error error => simp
  | ok isThere => cases isThere <;> simp

/-- Where the number of workers is not missing, only a missing name of a comm can be. -/
theorem checkValues_ok_iff (hWorkers : options.workers.any Argument.isMissing = false) :
    checkValues options settings w = .ok () ↔ options.comms.any Argument.isMissing = false := by
  unfold checkValues
  rw [hWorkers]
  cases options.comms.any Argument.isMissing with
  | false => exact ⟨fun _ => rfl, fun _ => rfl⟩
  | true =>
      constructor
      · intro h
        obtain ⟨_, -, hEnd⟩ := bind_eq_ok.mp h
        cases hEnd
      · intro h
        cases h

theorem endOf_success_iff {quiet : Bool} {report : Report} :
    (endOf settings quiet report).exit = .success ↔
      report.processed ≠ [] ∧ report.isOk = true := by
  obtain ⟨processed, failures, files, warnings, stale⟩ := report
  unfold endOf Report.isOk
  cases processed <;> cases failures <;> cases stale <;> cases settings.checkOnly <;> simp

theorem endWithFault_exit {fault : Fault} {ending : Ending}
    (h : endWithFault fault = .ok ending) : ending.exit ≠ .success := by
  unfold endWithFault at h
  split at h
  · cases h
    exact Exit.noConfusion
  · cases h

theorem generateWith_checkOnly (hCheck : settings.checkOnly = true) :
    (generateWith formatter options settings w).1 = w := by
  unfold generateWith
  split
  · rfl
  · exact generate_checkOnly hCheck

theorem runWith_checkOnly (hCheck : settings.checkOnly = true) :
    (runWith formatter options settings w).1 = w := by
  unfold runWith
  split
  · rfl
  · have hSame := @generateWith_checkOnly settings formatter w options hCheck
    split
    · next hRun => rwa [hRun] at hSame
    · next hRun => rwa [hRun] at hSame

/-- The command ends well exactly if what it needs is there and it comes to a report in which a
comm was processed, nothing failed and nothing is out of date. -/
theorem runWith_success_iff :
    (∃ ending, (runWith formatter options settings w).2 = .ok ending ∧ ending.exit = .success) ↔
      settings.checkPrerequisites w formatter = .ok () ∧ checkValues options settings w = .ok () ∧
        ∃ report, (settings.generate formatter w).2 = .ok report ∧ report.processed ≠ [] ∧
          report.isOk = true := by
  have hFault : ∀ fault, ¬ ∃ ending, endWithFault fault = .ok ending ∧ ending.exit = .success :=
    fun fault ⟨ending, hEnd, hExit⟩ => endWithFault_exit hEnd hExit
  unfold runWith generateWith
  cases settings.checkPrerequisites w formatter with
  | error fault => simpa using hFault fault
  | ok _ =>
      cases checkValues options settings w with
      | error fault => simpa using hFault fault
      | ok _ =>
          cases settings.generate formatter w with
          | mk w' outcome =>
              cases outcome with
              | error fault => simpa using hFault fault
              | ok report => simp [endOf_success_iff]

theorem mem_values {arguments : List (Argument String)} {value : String} :
    value ∈ arguments.filterMap Argument.value? ↔ .given value ∈ arguments := by
  rw [List.mem_filterMap]
  constructor
  · rintro ⟨argument, hArgument, hValue⟩
    cases argument with
    | missing => cases hValue
    | given text =>
        cases hValue
        exact hArgument
  · intro hValue
    exact ⟨_, hValue, rfl⟩

theorem values_eq_nil_iff {arguments : List (Argument String)}
    (hGiven : arguments.any Argument.isMissing = false) :
    arguments.filterMap Argument.value? = [] ↔ arguments = [] := by
  cases arguments with
  | nil => simp
  | cons first rest =>
      cases first with
      | missing => cases hGiven
      | given value => simp [Argument.value?]

/-- The names that are asked for are known exactly if none is missing and the others are. -/
theorem known_iff {arguments : List (Argument String)} {found : List CommDocuments} :
    (∀ name ∈ arguments, ∃ d ∈ found, name = .given d.name) ↔
      arguments.any Argument.isMissing = false ∧
        ∀ name ∈ arguments.filterMap Argument.value?, name ∈ found.map CommDocuments.name := by
  constructor
  · intro hKnown
    refine ⟨List.any_eq_false.mpr fun name hName => ?_, fun name hName => ?_⟩
    · obtain ⟨d, -, rfl⟩ := hKnown name hName
      exact Bool.false_ne_true
    · obtain ⟨d, hd, hSame⟩ := hKnown _ (mem_values.mp hName)
      cases hSame
      exact List.mem_map_of_mem hd
  · rintro ⟨hGiven, hKnown⟩ name hName
    cases name with
    | missing => exact absurd rfl (List.any_eq_false.mp hGiven _ hName)
    | given text =>
        obtain ⟨d, hd, rfl⟩ := List.mem_map.mp (hKnown text (mem_values.mpr hName))
        exact ⟨d, hd, rfl⟩

/-- A check leaves the workspace as it is, however it ends. It ends well exactly if the settings
that its words ask for can be followed, what it needs is there, comms are found and those that are
asked for are among them, and each comm of the run is up to date: it can be loaded, it is valid, and
the file of each target can be rendered and formatted, and can be read back as the same text. -/
theorem run_checks {formatter : Formatter} {current : Path} {w : Workspace} {words : List String}
    {options : Options} (hAccepted : Options.ofWords words = .ok options)
    (hCheck : ∃ word ∈ words, Spells word .check)
    (hWorkers : ∀ value, options.workers = some value → ∃ count, value = .given count ∧ 0 < count) :
    (run formatter current w words).1 = w ∧
      ((∃ ending, (run formatter current w words).2 = .ok ending ∧ ending.exit = .success) ↔
        ∃ settings found, settingsOf current standardPaths options = .ok settings ∧
          w.isDirectory settings.rustDir = .ok true ∧
          (∃ output errors, formatter.version = .exited 0 output errors) ∧
          discover w settings.commsDir = .ok found ∧ found ≠ [] ∧
          (∀ name ∈ options.comms, ∃ d ∈ found, name = .given d.name) ∧
          ∀ d ∈ found, options.comms = [] ∨ .given d.name ∈ options.comms →
            settings.IsUpToDate formatter w d) := by
  have hOn := check_of_accepted hAccepted hCheck
  have hGiven : options.workers.any Argument.isMissing = false := by
    cases hValue : options.workers with
    | none => rfl
    | some value =>
        obtain ⟨count, rfl, -⟩ := hWorkers value hValue
        rfl
  cases hSettings : settingsOf current standardPaths options with
  | error fault =>
      have hRun : run formatter current w words = (w, .error fault) := by
        rw [run, hAccepted]
        simp only [hSettings]
      rw [hRun]
      exact ⟨rfl, by simp⟩
  | ok settings =>
      have hRun : run formatter current w words = runWith formatter options settings w := by
        rw [run, hAccepted]
        simp only [hSettings]
      rw [hRun]
      obtain ⟨-, hComms, hCheckOnly, hCount⟩ := settingsOf_ok hSettings
      rw [hOn] at hCheckOnly
      have hPositive : ∀ count, settings.workers = some count → 0 < count := by
        intro count hThis
        rw [hCount] at hThis
        obtain ⟨value, hValue, hThis⟩ := Option.bind_eq_some_iff.mp hThis
        obtain ⟨count', rfl, hPos⟩ := hWorkers value hValue
        cases hThis
        exact hPos
      refine ⟨runWith_checkOnly hCheckOnly, ?_⟩
      rw [runWith_success_iff, generate_isOk_iff hCheckOnly hPositive, checkValues_ok_iff hGiven,
        checkPrerequisites_ok_iff, hComms]
      constructor
      · rintro ⟨⟨hDir, hVersion⟩, hNames, found, hFound, hSome, hKnown, hUpToDate⟩
        rw [values_eq_nil_iff hNames] at hUpToDate
        exact ⟨settings, found, rfl, hDir, hVersion, hFound, hSome, known_iff.mpr ⟨hNames, hKnown⟩,
          fun d hd hAsked => hUpToDate d hd (hAsked.imp_right mem_values.mpr)⟩
      · rintro ⟨_, found, hSame, hDir, hVersion, hFound, hSome, hKnown, hUpToDate⟩
        cases hSame
        obtain ⟨hNames, hKnown⟩ := known_iff.mp hKnown
        rw [values_eq_nil_iff hNames]
        exact ⟨⟨hDir, hVersion⟩, hNames, found, hFound, hSome, hKnown,
          fun d hd hAsked => hUpToDate d hd (hAsked.imp_right mem_values.mp)⟩

/-- A comm was never generated: a check of it does not end well. -/
theorem run_checks_never :
    let w := loneWorkspace "\x7b\"methods\": []\x7d"
    let words := ["--check", "--typescript-dir", "out", "--rust-dir=out", "--python-dir=out",
      "--workers=2"]
    (∃ options, Options.ofWords words = .ok options) ∧ (∃ word ∈ words, Spells word .check) ∧
      (run .identity Path.root w words).1 = w ∧
      ¬ ∃ ending, (run .identity Path.root w words).2 = .ok ending ∧ ending.exit = .success := by
  intro w words
  have hAccepted : Options.ofWords words = .ok ⟨none, some (.given "out"), some (.given "out"),
      some (.given "out"), [], true, false, false, some (.given 2)⟩ := by
    decide +kernel
  have hCheck : ∃ word ∈ words, Spells word .check :=
    ⟨"--check", List.mem_cons_self, spells_check⟩
  have hPython : pathOf Path.root .pythonDir (some (.given "out")) standardPaths.pythonDir =
      .ok ⟨["out"]⟩ := by
    have hPath : Path.ofText Path.root "out" = ⟨["out"]⟩ := by cbv
    exact pathOf_given rfl hPath (by decide)
  obtain ⟨hSame, hEnd⟩ := @run_checks .identity Path.root w words _ hAccepted hCheck
    fun value hValue => ⟨2, (Option.some.inj hValue).symm, by decide⟩
  refine ⟨⟨_, hAccepted⟩, hCheck, hSame, fun hSuccess => ?_⟩
  obtain ⟨settings, found, hSettings, -, -, -, hSome, -, hUpToDate⟩ := hEnd.mp hSuccess
  obtain ⟨d, hd⟩ := List.exists_mem_of_ne_nil found hSome
  obtain ⟨comm, -, -, -, hHolds⟩ := hUpToDate d hd (Or.inl rfl)
  obtain ⟨g, hRender, hRead⟩ := hHolds .python
  -- the file would be in a directory in which there is none
  have hDir : settings.pythonDir = ⟨["out"]⟩ :=
    Except.ok.inj ((settingsOf_ok hSettings).1.symm.trans hPython)
  obtain ⟨-, -, hPath⟩ := renderFile_isFileOf hRender
  have hPlace : g.file.path.place = ["out", Target.python.outputName comm.name] := by
    rw [hPath, outputPath_place]
    simp only [Settings.outputDir, hDir]
    rfl
  obtain ⟨content, hContent⟩ : ∃ content, w.read g.file.path = .ok content := by
    unfold readText at hRead
    split at hRead
    · cases hRead
    · next content hContent => exact ⟨content, hContent⟩
  have hFile := (read_ok hContent).2
  rw [hPlace] at hFile
  revert hFile
  simp [w, loneWorkspace, file?, entry?, List.lookup_cons]

end CommandLine

end CommBindings
