import CommBindings.Proofs.Generation.Completeness
import CommBindings.Proofs.Generation.Turns

set_option autoImplicit false

/-! # Neither the order of the comms matters nor the other comms

Workers may start the comms of a run in any order. Where no file of a comm is in the way of an
output directory, the report is the same for every order, and so are all files if no two comms share
a path; and a run on some of the comms tells of them what the run on all of them does
(`generate_independent`). Only where an output directory cannot be made, the comm that tries first
can be told something else than the ones after it (`fault_ofFirstComm`).
-/

namespace CommBindings

open Outputs Workspace

/-! ## Runs on the same comms -/

/-- Does a run in which the comms have their turns in an order that is given. The report tells of
them in the order of their names as always. -/
def Settings.generateInOrder (settings : Settings) (formatter : Formatter) (w : Workspace)
    (order : List CommDocuments) : Workspace × Except Fault Report :=
  match settings.plan w with
  | .error fault => (w, .error fault)
  | .ok (selected, independent) =>
    let (w, outcomes) := settings.processAll formatter independent w order
    match outcomes.findSome? fun entry => Settings.unreported? entry.2 with
    | some fault => (w, .error fault)
    | none => (w, settings.report w outcomes selected)

/-- The settings of a run on the comms with the given names only. -/
def Settings.onlyOn (settings : Settings) (names : List String) : Settings :=
  { settings with comms := names }

variable {settings : Settings} {formatter : Formatter}

/-- A run gives the comms their turns in the order of the plan. -/
theorem generate_eq_inOrder {w : Workspace} {selected : List CommDocuments} {independent : Bool}
    (h : settings.plan w = .ok (selected, independent)) :
    settings.generate formatter w = settings.generateInOrder formatter w selected := by
  rewrite [Settings.generate, Settings.generateInOrder, h]
  rfl

theorem processAll_onlyOn (names : List String) (independent : Bool) (w : Workspace)
    (order : List CommDocuments) :
    (settings.onlyOn names).processAll formatter independent w order =
      settings.processAll formatter independent w order := by
  induction order generalizing w with
  | nil => rfl
  | cons first rest ih =>
      have hTurn : (settings.onlyOn names).process formatter w first =
          settings.process formatter w first := rfl
      rw [Settings.processAll, Settings.processAll, hTurn]
      simp only [ih]

theorem report_onlyOn (names : List String) (w : Workspace) (outcomes : List (String × Outcome))
    (selected : List CommDocuments) :
    (settings.onlyOn names).report w outcomes selected = settings.report w outcomes selected := by
  induction selected with
  | nil => rfl
  | cons first rest ih =>
      have hOne : (settings.onlyOn names).reportOne = settings.reportOne := rfl
      rw [Settings.report, Settings.report, hOne, ih]

theorem processAll_checkOnly (hCheck : settings.checkOnly = true) (independent : Bool)
    (w : Workspace) (order : List CommDocuments) :
    (settings.processAll formatter independent w order).1 = w := by
  induction order with
  | nil => rfl
  | cons first rest ih =>
      rw [Settings.processAll, process_checkOnly hCheck]
      simp only
      split
      · rfl
      · exact ih

theorem usesWorkers_of_le {selected part : List CommDocuments} {independent : Bool}
    (h : settings.usesWorkers selected = .ok independent)
    (hLength : part.length ≤ selected.length) :
    ∃ independent', settings.usesWorkers part = .ok independent' := by
  unfold Settings.usesWorkers at h ⊢
  by_cases hParallel : (settings.parallel && decide (part.length > 1)) = true
  · -- with workers for these comms there were workers for all of them
    have hAll : (settings.parallel && decide (selected.length > 1)) = true := by
      rw [Bool.and_eq_true, decide_eq_true_eq] at hParallel ⊢
      obtain ⟨hOn, hMany⟩ := hParallel
      exact ⟨hOn, by omega⟩
    rw [if_pos hAll] at h
    rw [if_pos hParallel]
    split at h
    · cases h
    · next hWorkers =>
      rw [if_neg hWorkers]
      exact ⟨true, rfl⟩
  · rw [if_neg hParallel]
    exact ⟨false, rfl⟩

/-- A run on some comms of another run has a plan with these comms. -/
theorem plan_onlyOn {w : Workspace} {selected : List CommDocuments} {independent : Bool}
    (h : settings.plan w = .ok (selected, independent)) {names : List String} (hSome : names ≠ [])
    (hNames : ∀ name ∈ names, name ∈ selected.map CommDocuments.name) :
    ∃ independent', (settings.onlyOn names).plan w =
      .ok (selected.filter (fun d => names.contains d.name), independent') := by
  obtain ⟨all, hAll, h⟩ := bind_eq_ok.mp h
  obtain ⟨chosen, hChosen, h⟩ := bind_eq_ok.mp h
  obtain ⟨workers, hWorkers, hEnd⟩ := bind_eq_ok.mp h
  cases hEnd
  have hSublist := select_sublist hChosen
  have hKnown : ∀ name ∈ names, name ∈ all.map CommDocuments.name :=
    fun name hName => (hSublist.map _).subset (hNames name hName)
  have hPart : all.filter (fun d => names.contains d.name) =
      selected.filter fun d => names.contains d.name := by
    rw [select_ok hChosen, List.filter_filter]
    refine List.filter_congr fun d _ => ?_
    cases hAsked : names.contains d.name with
    | false => rw [Bool.false_and]
    | true =>
        -- a comm that is asked for now was asked for before
        obtain ⟨other, hOther, hSame⟩ :=
          List.mem_map.mp (hNames d.name (List.contains_iff_mem.mp hAsked))
        rw [select_ok hChosen] at hOther
        rw [← hSame, (List.mem_filter.mp hOther).2]
        rfl
  have hSelected : (settings.onlyOn names).select all =
      .ok (selected.filter fun d => names.contains d.name) := by
    rw [← hPart]
    exact @select_of_known (settings.onlyOn names) all hSome hKnown
  obtain ⟨independent', hIndependent⟩ :=
    usesWorkers_of_le hWorkers (List.length_filter_le (fun d => names.contains d.name) selected)
  exact ⟨independent', bind_eq_ok.mpr ⟨all, hAll, bind_eq_ok.mpr ⟨_, hSelected,
    bind_eq_ok.mpr ⟨independent', hIndependent, rfl⟩⟩⟩⟩

/-! ## Reports that are alike -/

/-- Two runs tell the same of a comm, but for the error of an output directory that cannot be
made. -/
def Settings.AlikeEntries (settings : Settings) (w : Workspace) (entry entry' : String × Outcome) :
    Prop := entry'.1 = entry.1 ∧ settings.AlikeOutcomes w entry.2 entry'.2

/-- Two failures are of one comm, with faults that are alike. -/
def Settings.AlikeFailures (settings : Settings) (w : Workspace)
    (failure failure' : String × Fault) : Prop :=
  failure'.1 = failure.1 ∧ settings.AlikeFaults w failure.2 failure'.2

theorem names_alike {w : Workspace} {outcomes outcomes' : List (String × Outcome)}
    (h : List.Forall₂ (settings.AlikeEntries w) outcomes outcomes') :
    outcomes'.map Prod.fst = outcomes.map Prod.fst := by
  induction h with
  | nil => rfl
  | cons hFirst _ ih => rw [List.map_cons, List.map_cons, hFirst.1, ih]

/-- Reports of outcomes that are alike differ in their faults at most. -/
theorem ofOutcomes_alike {w : Workspace} {outcomes outcomes' : List (String × Outcome)}
    (h : List.Forall₂ (settings.AlikeEntries w) outcomes outcomes') :
    ∃ failures, Report.ofOutcomes outcomes' =
        { Report.ofOutcomes outcomes with failures := failures } ∧
      List.Forall₂ (settings.AlikeFailures w) (Report.ofOutcomes outcomes).failures failures := by
  induction h with
  | nil => exact ⟨[], rfl, List.Forall₂.nil⟩
  | @cons entry entry' rest rest' hFirst _ ih =>
      obtain ⟨name, outcome⟩ := entry
      obtain ⟨name', outcome'⟩ := entry'
      obtain ⟨hName, hOutcome⟩ := hFirst
      obtain ⟨failures, hReport, hFailures⟩ := ih
      simp only at hName hOutcome
      subst hName
      rw [Report.ofOutcomes, Report.ofOutcomes, hReport]
      cases hOutcome with
      | ok rendition => exact ⟨failures, rfl, hFailures⟩
      | @error fault fault' hFaults =>
          exact ⟨(name', fault') :: failures, rfl, List.Forall₂.cons ⟨rfl, hFaults⟩ hFailures⟩

/-! ## Two runs -/

/-- A run that followed a plan, in which no file of a comm is in the way of an output directory and
all outcomes are reported. -/
structure Settings.Ran (settings : Settings) (formatter : Formatter) (w w' : Workspace)
    (selected : List CommDocuments) (outcomes : List (String × Outcome)) : Prop where
  plan : ∃ independent, settings.plan w = .ok (selected, independent) ∧
    settings.processAll formatter independent w selected = (w', outcomes)
  reported : ∀ entry ∈ outcomes, Settings.unreported? entry.2 = none
  ways : ∀ d ∈ selected, settings.KeepsWays d.name

variable {w w' : Workspace} {selected : List CommDocuments} {outcomes : List (String × Outcome)}

theorem Settings.Ran.nodup (h : settings.Ran formatter w w' selected outcomes) :
    (selected.map CommDocuments.name).Nodup := by
  obtain ⟨independent, hPlan, -⟩ := h.plan
  exact nodup_plan hPlan

theorem Settings.Ran.names (h : settings.Ran formatter w w' selected outcomes) :
    outcomes.map Prod.fst = selected.map CommDocuments.name := by
  obtain ⟨independent, -, hAll⟩ := h.plan
  exact processAll_names hAll h.reported

theorem Settings.Ran.nodup_outcomes (h : settings.Ran formatter w w' selected outcomes) :
    (outcomes.map Prod.fst).Nodup := by
  rw [h.names]
  exact h.nodup

/-- Each comm of the run had its turn. -/
theorem Settings.Ran.turn (h : settings.Ran formatter w w' selected outcomes) {d : CommDocuments}
    (hd : d ∈ selected) :
    ∃ u, settings.Later w u ∧ (d.name, (settings.process formatter u d).2) ∈ outcomes ∧
      ∀ q, (∀ other ∈ selected, other.name ≠ d.name → settings.Outside other.name q) →
        u.file? q = w.file? q ∧
          w'.file? q = (settings.process formatter u d).1.file? q := by
  obtain ⟨independent, -, hAll⟩ := h.plan
  have hReported : ∀ entry ∈ (settings.processAll formatter independent w selected).2,
      Settings.unreported? entry.2 = none := by
    rw [hAll]
    exact h.reported
  have hTurn := processAll_turn h.ways h.nodup (later_refl settings w) hReported hd
  rwa [hAll] at hTurn

/-- Every outcome of the run is that of a comm's turn. -/
theorem Settings.Ran.outcome (h : settings.Ran formatter w w' selected outcomes) {name : String}
    {outcome : Outcome} (hMem : (name, outcome) ∈ outcomes) :
    ∃ d ∈ selected, d.name = name ∧
      ∃ u, settings.Later w u ∧ outcome = (settings.process formatter u d).2 := by
  have hName : name ∈ selected.map CommDocuments.name := by
    rw [← h.names]
    exact List.mem_map_of_mem hMem
  obtain ⟨d, hd, rfl⟩ := List.mem_map.mp hName
  obtain ⟨u, hLater, hTurn, -⟩ := h.turn hd
  have hOne :=
    (lookup_of_mem h.nodup_outcomes hMem).symm.trans (lookup_of_mem h.nodup_outcomes hTurn)
  exact ⟨d, hd, rfl, u, hLater, Option.some.inj hOne⟩

/-- Whatever happened before, a comm of the run comes to what it came to in the run. -/
theorem Settings.Ran.alike (h : settings.Ran formatter w w' selected outcomes) {d : CommDocuments}
    (hd : d ∈ selected) {u v : Workspace} (hLater : settings.Later w u)
    (hLater' : settings.Later w v) :
    settings.AlikeOutcomes w (settings.process formatter u d).2
        (settings.process formatter v d).2 ∧
      ∀ q, v.file? q = u.file? q → (settings.process formatter v d).1.file? q =
        (settings.process formatter u d).1.file? q := by
  obtain ⟨independent, hPlan, -⟩ := h.plan
  obtain ⟨hDir, hIn⟩ := isIn_plan hPlan
  exact process_alike hDir (hIn d hd) (h.ways d hd) hLater hLater'

/-- In another order and without some of the comms all outcomes are reported again. -/
theorem Settings.Ran.reportedAgain (h : settings.Ran formatter w w' selected outcomes)
    {order : List CommDocuments} (hOrder : order ⊆ selected) (independent : Bool) :
    ∀ entry ∈ (settings.processAll formatter independent w order).2,
      Settings.unreported? entry.2 = none := by
  refine processAll_reportedLater independent (fun d hd => h.ways d (hOrder hd))
    (later_refl settings w) fun d hd v hLater => ?_
  obtain ⟨u, hLaterU, hMem, -⟩ := h.turn (hOrder hd)
  exact unreported?_congr (h.alike (hOrder hd) hLaterU hLater).1 (h.reported _ hMem)

/-- **A second run on the same comms comes to outcomes that are alike.** Some of the comms may be
left out, and the others may have their turns in any order. -/
theorem Settings.Ran.again (h : settings.Ran formatter w w' selected outcomes)
    {order : List CommDocuments} (keep : String → Bool)
    (hOrder : order.Perm (selected.filter fun d => keep d.name)) (independent : Bool) :
    ∃ part, List.Forall₂ (settings.AlikeEntries w)
        (outcomes.filter fun entry => keep entry.1) part ∧
      ∀ entry ∈ part, entry ∈ (settings.processAll formatter independent w order).2 := by
  have hSubset : order ⊆ selected := fun d hd => (List.mem_filter.mp (hOrder.mem_iff.mp hd)).1
  have hNodup : (order.map CommDocuments.name).Nodup :=
    ((hOrder.map _).nodup_iff).mpr (h.nodup.sublist (List.filter_sublist.map _))
  -- every outcome that is kept has its partner in the second run
  have hEach : ∀ entry ∈ outcomes.filter (fun entry => keep entry.1),
      ∃ entry', settings.AlikeEntries w entry entry' ∧
        entry' ∈ (settings.processAll formatter independent w order).2 := by
    intro entry hEntry
    obtain ⟨hMem, hKeep⟩ := List.mem_filter.mp hEntry
    obtain ⟨name, outcome⟩ := entry
    obtain ⟨d, hd, rfl, u, hLater, rfl⟩ := h.outcome hMem
    have hdOrder : d ∈ order := hOrder.mem_iff.mpr (List.mem_filter.mpr ⟨hd, hKeep⟩)
    obtain ⟨v, hLater', hTurn, -⟩ := processAll_turn (fun d hd => h.ways d (hSubset hd)) hNodup
      (later_refl settings w) (h.reportedAgain hSubset independent) hdOrder
    exact ⟨(d.name, (settings.process formatter v d).2),
      ⟨rfl, (h.alike hd hLater hLater').1⟩, hTurn⟩
  exact exists_forall₂ hEach

/-- No two comms share the path of a file. -/
def Settings.SharesNoPath (settings : Settings) (selected : List CommDocuments) : Prop :=
  ∀ d ∈ selected, ∀ other ∈ selected, other.name ≠ d.name → ∀ target target',
    settings.outputPath target d.name ≠ settings.outputPath target' other.name

/-- Where no two comms share a path, all files are the same after a run in another order. -/
theorem Settings.Ran.filesAgain (h : settings.Ran formatter w w' selected outcomes)
    {order : List CommDocuments} (hOrder : order.Perm selected) (independent : Bool)
    (hShares : settings.SharesNoPath selected) (q : Place) :
    (settings.processAll formatter independent w order).1.file? q = w'.file? q := by
  have hNodup : (order.map CommDocuments.name).Nodup := ((hOrder.map _).nodup_iff).mpr h.nodup
  by_cases hNone : ∀ d ∈ selected, settings.Outside d.name q
  · obtain ⟨independent', -, hAll⟩ := h.plan
    have hFull : (settings.processAll formatter independent' w selected).1.file? q = w.file? q :=
      processAll_outside independent' selected w hNone
    rw [hAll] at hFull
    rw [hFull]
    exact processAll_outside independent order w fun d hd => hNone d (hOrder.mem_iff.mp hd)
  · -- the place is one of a comm's, and no other comm comes near it
    simp only [not_forall] at hNone
    obtain ⟨d, hd, hInside⟩ := hNone
    have hOthers : ∀ other ∈ selected, other.name ≠ d.name → settings.Outside other.name q := by
      intro other hOther hName
      have hDistinct := hShares d hd other hOther hName
      by_contra hMeets
      apply hInside
      intro target
      constructor
      · rintro rfl
        exact hMeets (outside_output settings (hDistinct target))
      · rintro rfl
        exact hMeets (outside_staging settings (hDistinct target))
    obtain ⟨u, hLater, -, hFilesU⟩ := h.turn hd
    obtain ⟨v, hLater', -, hFilesV⟩ := processAll_turn
      (fun d hd => h.ways d (hOrder.mem_iff.mp hd)) hNodup (later_refl settings w)
      (h.reportedAgain (fun d hd => hOrder.mem_iff.mp hd) independent) (hOrder.mem_iff.mpr hd)
    obtain ⟨hBefore, hAfter⟩ := hFilesU q hOthers
    obtain ⟨hBefore', hAfter'⟩ :=
      hFilesV q fun other hOther => hOthers other (hOrder.mem_iff.mp hOther)
    rw [hAfter, hAfter']
    exact (h.alike hd hLater hLater').2 q (hBefore'.trans hBefore.symm)

/-! ## Two reports -/

/-- The warnings that came out for a comm. -/
def warningsOf (outcomes : List (String × Outcome)) (name : String) : List String :=
  match outcomes.lookup name with
  | some (.ok rendition) => rendition.warnings
  | _ => []

theorem warningsOf_mem (hNodup : (outcomes.map Prod.fst).Nodup) {name : String}
    {rendition : Rendition} (h : (name, .ok rendition) ∈ outcomes) :
    rendition.warnings = warningsOf outcomes name := by
  rw [warningsOf, lookup_of_mem hNodup h]

/-- Every warning starts with the name of its comm. -/
theorem rendition_warnings {d : CommDocuments} {rendition : Rendition}
    (h : settings.rendition formatter w d = .ok rendition) :
    ∀ warning ∈ rendition.warnings, ∃ text, warning = d.name ++ ": " ++ text := by
  obtain ⟨comm, hComm, h⟩ := bind_eq_ok.mp h
  obtain ⟨warnings, -, h⟩ := bind_eq_ok.mp h
  obtain ⟨files, -, h⟩ := bind_eq_ok.mp h
  cases h
  refine List.forall_mem_map.mpr fun warning _ => ⟨warning, ?_⟩
  rw [← loadComm_name hComm]

/-- A report tells of some comms what another report tells of them: the same comms were processed,
with the same files and the same warnings, the same ones failed with faults that are alike, and the
same files are out of date. -/
structure Settings.Restricts (settings : Settings) (w : Workspace) (whole part : Report)
    (keep : String → Bool) : Prop where
  processed : part.processed = whole.processed.filter keep
  failures : List.Forall₂ (settings.AlikeFailures w)
    (whole.failures.filter fun failure => keep failure.1) part.failures
  files : part.files = whole.files.filter fun g => keep g.comm
  warnings : ∃ warningsOn : String → List String,
    (∀ comm, ∀ warning ∈ warningsOn comm, ∃ text, warning = comm ++ ": " ++ text) ∧
      whole.warnings = whole.processed.flatMap warningsOn ∧
        part.warnings = part.processed.flatMap warningsOn
  stale : ∃ isStale : GeneratedFile → Bool,
    whole.stale = (whole.files.filter isStale).map (fun g => g.file.path) ∧
      part.stale = (part.files.filter isStale).map fun g => g.file.path

/-- A report on all comms differs in its faults at most. -/
theorem Settings.Restricts.eq_of_all {whole part : Report}
    (h : settings.Restricts w whole part fun _ => true) :
    part = { whole with failures := part.failures } := by
  obtain ⟨warningsOn, -, hWarnings, hWarnings'⟩ := h.warnings
  obtain ⟨isStale, hStale, hStale'⟩ := h.stale
  have hProcessed := h.processed
  have hFiles := h.files
  rw [List.filter_true] at hProcessed hFiles
  rw [hProcessed, ← hWarnings] at hWarnings'
  rw [hFiles, ← hStale] at hStale'
  obtain ⟨processed, failures, files, warnings, stale⟩ := part
  simp only at hProcessed hFiles hWarnings' hStale'
  rw [hProcessed, hFiles, hWarnings', hStale']

theorem Settings.Ran.warnings_named (h : settings.Ran formatter w w' selected outcomes)
    (name : String) :
    ∀ warning ∈ warningsOf outcomes name, ∃ text, warning = name ++ ": " ++ text := by
  unfold warningsOf
  split
  · next rendition hLookup =>
    obtain ⟨before, after, hOutcomes, -⟩ := List.lookup_eq_some_iff.mp hLookup
    have hMem : (name, Except.ok rendition) ∈ outcomes := by
      rw [hOutcomes]
      exact List.mem_append_right before List.mem_cons_self
    obtain ⟨d, -, rfl, u, -, hOk⟩ := h.outcome hMem
    exact rendition_warnings (rendition_of_process hOk.symm)
  · exact List.forall_mem_nil _

/-- Only a run that writes changes the workspace, and that lists nothing as out of date. -/
theorem Settings.Ran.staleIn_again (h : settings.Ran formatter w w' selected outcomes)
    (order : List CommDocuments) (independent : Bool) (files : List GeneratedFile) :
    settings.staleIn (settings.processAll formatter independent w order).1 files =
      settings.staleIn w' files := by
  cases hCheck : settings.checkOnly with
  | true =>
      obtain ⟨independent', -, hAll⟩ := h.plan
      have hKept : (settings.processAll formatter independent' w selected).1 = w :=
        processAll_checkOnly hCheck independent' w selected
      rw [hAll] at hKept
      rw [processAll_checkOnly hCheck, ← hKept]
  | false => rw [Settings.staleIn, Settings.staleIn, hCheck]; rfl

/-- The report of a second run on some of the comms, in any order, is that part of the report. -/
theorem Settings.Ran.reportAgain (h : settings.Ran formatter w w' selected outcomes)
    {report : Report} (hReport : settings.generate formatter w = (w', .ok report))
    {order : List CommDocuments} (keep : String → Bool)
    (hOrder : order.Perm (selected.filter fun d => keep d.name)) (independent : Bool) :
    let again := settings.processAll formatter independent w order
    ∃ part, settings.report again.1 again.2 (selected.filter fun d => keep d.name) = .ok part ∧
      settings.Restricts w report part keep := by
  intro again
  obtain ⟨independent', hPlan, hAll⟩ := h.plan
  obtain ⟨entries, hEntries, hMem⟩ := h.again keep hOrder independent
  have hSubset : order ⊆ selected := fun d hd => (List.mem_filter.mp (hOrder.mem_iff.mp hd)).1
  have hReported := h.reportedAgain hSubset independent
  have hAgainNames : again.2.map Prod.fst = order.map CommDocuments.name :=
    processAll_names rfl hReported
  have hAgainNodup : (again.2.map Prod.fst).Nodup := by
    rw [hAgainNames]
    exact ((hOrder.map _).nodup_iff).mpr (h.nodup.sublist (List.filter_sublist.map _))
  have hNames : entries.map Prod.fst =
      (selected.filter fun d => keep d.name).map CommDocuments.name := by
    calc entries.map Prod.fst
        = (outcomes.filter fun entry => keep entry.1).map Prod.fst := names_alike hEntries
      _ = (outcomes.map Prod.fst).filter keep := List.filter_map.symm
      _ = (selected.map CommDocuments.name).filter keep := by rw [h.names]
      _ = (selected.filter fun d => keep d.name).map CommDocuments.name := List.filter_map
  obtain ⟨failures, hOfPart, hFailures⟩ := ofOutcomes_alike hEntries
  obtain ⟨hProcessed, hFailed, hFiles⟩ := ofOutcomes_filter keep
    fun name rendition hEntry g hg => by
      obtain ⟨target, hComm, -⟩ :=
        exists_target (processAll_files independent' hAll name rendition hEntry) g hg
      exact hComm
  rw [generate_of_outcomes hPlan hAll h.reported] at hReport
  obtain ⟨stale, hStale, rfl⟩ := map_eq_ok.mp (Prod.mk.inj hReport).2
  obtain ⟨isStale, hListed, hListedPart⟩ := staleIn_filter hStale
  have hPart : settings.report again.1 again.2 (selected.filter fun d => keep d.name) = _ :=
    report_part again.1 hNames fun name outcome hEntry => lookup_of_mem hAgainNodup (hMem _ hEntry)
  rw [hOfPart, h.staleIn_again order independent, hFiles, hListedPart] at hPart
  refine ⟨_, hPart, ?_⟩
  exact {
    processed := hProcessed
    failures := by rwa [← hFailed]
    files := hFiles
    warnings := by
      refine ⟨warningsOf outcomes, h.warnings_named, ?_, ?_⟩
      · exact warnings_ofOutcomes fun name rendition => warningsOf_mem h.nodup_outcomes
      · exact warnings_ofOutcomes fun name rendition hEntry =>
          warningsOf_mem h.nodup_outcomes (List.mem_filter.mp hEntry).1
    stale := by
      refine ⟨isStale, hListed, ?_⟩
      rw [hFiles] }

/-! ## The run -/

theorem ran_of_generate {report : Report} {independent : Bool}
    (hPlan : settings.plan w = .ok (selected, independent))
    (h : settings.generate formatter w = (w', .ok report))
    (hWays : ∀ d ∈ selected, settings.KeepsWays d.name) :
    ∃ outcomes, settings.Ran formatter w w' selected outcomes := by
  obtain ⟨chosen, workers, outcomes, hPlan', hAll, hReported⟩ := generate_ok h
  rw [hPlan] at hPlan'
  cases hPlan'
  exact ⟨outcomes, ⟨independent, hPlan, hAll⟩, hReported, hWays⟩

theorem generateInOrder_of_reported {independent : Bool}
    (hPlan : settings.plan w = .ok (selected, independent)) {order : List CommDocuments}
    (hReported : ∀ entry ∈ (settings.processAll formatter independent w order).2,
      Settings.unreported? entry.2 = none) :
    settings.generateInOrder formatter w order =
      ((settings.processAll formatter independent w order).1,
        settings.report (settings.processAll formatter independent w order).1
          (settings.processAll formatter independent w order).2 selected) := by
  have hNone := List.findSome?_eq_none_iff.mpr hReported
  rw [Settings.generateInOrder, hPlan]
  simp only [hNone]

/-- **Neither the order of the comms matters nor the other comms.** Where a run comes to a report,
it does so in every order of the comms, with the same report but for the errors of output directories
that cannot be made, and with the same files if no two comms share a path; and a run on some of the
comms comes to that part of the report. -/
theorem generate_independent {settings : Settings} {formatter : Formatter} {w w' : Workspace}
    {selected : List CommDocuments} {independent : Bool} {report : Report}
    (hPlan : settings.plan w = .ok (selected, independent))
    (h : settings.generate formatter w = (w', .ok report))
    (hWays : ∀ d ∈ selected, settings.KeepsWays d.name) :
    (∀ order : List CommDocuments, order.Perm selected → ∃ w'' failures,
      settings.generateInOrder formatter w order =
          (w'', .ok { report with failures := failures }) ∧
        List.Forall₂ (settings.AlikeFailures w) report.failures failures ∧
        (settings.SharesNoPath selected → ∀ q, w''.file? q = w'.file? q)) ∧
      ∀ names : List String, names ≠ [] →
        (∀ name ∈ names, name ∈ selected.map CommDocuments.name) → ∃ w'' part,
          (settings.onlyOn names).generate formatter w = (w'', .ok part) ∧
            settings.Restricts w report part names.contains := by
  obtain ⟨outcomes, hRan⟩ := ran_of_generate hPlan h hWays
  constructor
  · intro order hOrder
    have hReported := hRan.reportedAgain (fun d hd => hOrder.mem_iff.mp hd) independent
    have hOrderAll : order.Perm (selected.filter fun _ => true) := by
      rwa [List.filter_true]
    obtain ⟨part, hReport, hPart⟩ := hRan.reportAgain h (fun _ => true) hOrderAll independent
    rw [List.filter_true] at hReport
    refine ⟨(settings.processAll formatter independent w order).1, part.failures, ?_, ?_,
      hRan.filesAgain hOrder independent⟩
    · rw [generateInOrder_of_reported hPlan hReported, hReport, ← hPart.eq_of_all]
    · have hFailures := hPart.failures
      rwa [List.filter_true] at hFailures
  · intro names hSome hNames
    obtain ⟨independent', hPlan'⟩ := plan_onlyOn hPlan hSome hNames
    have hSubset : selected.filter (fun d => names.contains d.name) ⊆ selected :=
      List.filter_subset_self _
    have hReported := hRan.reportedAgain hSubset independent'
    obtain ⟨part, hReport, hPart⟩ :=
      hRan.reportAgain h names.contains (List.Perm.refl _) independent'
    refine ⟨(settings.processAll formatter independent' w
      (selected.filter fun d => names.contains d.name)).1, part, ?_, hPart⟩
    rw [generate_eq_inOrder hPlan', generateInOrder_of_reported hPlan', processAll_onlyOn,
      report_onlyOn, hReport]
    rwa [processAll_onlyOn]

/-! ## Two comms in both orders -/

theorem keepsWays_pair : ∀ name ∈ ["plot", "ui"], pairSettings.KeepsWays name := by
  intro name hName target front hFront target'
  revert name front
  cases target <;> cases target' <;> decide

theorem sharesNoPath_pair :
    pairSettings.SharesNoPath [plotDocuments, uiDocuments false] := by
  have hApart : ∀ target target',
      pairSettings.outputPath target "plot" ≠ pairSettings.outputPath target' "ui" := by
    intro target target'
    cases target <;> cases target' <;> decide
  have hPair : ∀ d ∈ [plotDocuments, uiDocuments false], d.name = "plot" ∨ d.name = "ui" := by
    decide
  intro d hd other hOther hName target target'
  rcases hPair d hd with hd | hd
  · rcases hPair other hOther with hOther | hOther
    · exact absurd (hOther.trans hd.symm) hName
    · rw [hd, hOther]
      exact hApart target target'
  · rcases hPair other hOther with hOther | hOther
    · rw [hd, hOther]
      exact (hApart target' target).symm
    · exact absurd (hOther.trans hd.symm) hName

/-- The document of the second comm is no JSON text. With the first comm or without it, before it or
after it, it fails alike. -/
theorem independent_invalidDocument :
    let w := pairWorkspace false "\x7b"
    ∃ w' report, pairSettings.generate .identity w = (w', .ok report) ∧
      (∃ w'' failures, pairSettings.generateInOrder .identity w [uiDocuments false, plotDocuments] =
          (w'', .ok { report with failures := failures }) ∧
        List.Forall₂ (pairSettings.AlikeFailures w) report.failures failures ∧
        ∀ q, w''.file? q = w'.file? q) ∧
      ∃ w'' part, (pairSettings.onlyOn ["ui"]).generate .identity w = (w'', .ok part) ∧
        pairSettings.Restricts w report part ["ui"].contains := by
  intro w
  have hPlan : pairSettings.plan w = .ok ([plotDocuments, uiDocuments false], true) :=
    plan_pair false _
  have hOk : (pairSettings.generate .identity w).2.isOk = true := by
    rw [Settings.generate, hPlan]
    decide +kernel
  have hWays : ∀ d ∈ [plotDocuments, uiDocuments false], pairSettings.KeepsWays d.name :=
    fun d hd => keepsWays_pair d.name (List.mem_map_of_mem (f := CommDocuments.name) hd)
  cases hRun : pairSettings.generate .identity w with
  | mk w' outcome =>
    rw [hRun] at hOk
    cases outcome with
    | error fault => cases hOk
    | ok report =>
        obtain ⟨hOrder, hPart⟩ := generate_independent hPlan hRun hWays
        obtain ⟨w'', failures, hSwapped, hFailures, hFiles⟩ := hOrder _ (List.Perm.swap ..)
        exact ⟨w', report, rfl, ⟨w'', failures, hSwapped, hFailures, hFiles sharesNoPath_pair⟩,
          hPart ["ui"] (List.cons_ne_nil _ _) (by decide)⟩

/-- Settings with an output directory that cannot be made, for a file is on the way to it. What is
missing of the way to the file can be made. -/
def halfwaySettings : Settings :=
  { pairSettings with
    typeScriptDir := ⟨["new", "..", "comms", "plot-backend-openrpc.json", "c"]⟩ }

/-- Of two comms that fail on such a directory, the first makes what is missing and is told of the
file. The second is told of the whole path, unless it runs alone or first. -/
theorem fault_ofFirstComm :
    let w := pairWorkspace false "\x7b\"methods\": []\x7d"
    let file := ["new", "..", "comms", "plot-backend-openrpc.json"]
    let first : Fault := .file ⟨.alreadyThere, ⟨file⟩, none⟩
    let second : Fault := .file ⟨.notDirectory, ⟨file ++ ["c"]⟩, none⟩
    (∀ d ∈ [plotDocuments, uiDocuments false], halfwaySettings.KeepsWays d.name) ∧
      (∃ w' report, halfwaySettings.generate .identity w = (w', .ok report) ∧
        report.failures = [("plot", first), ("ui", second)]) ∧
      (∃ w' report, halfwaySettings.generateInOrder .identity w
          [uiDocuments false, plotDocuments] = (w', .ok report) ∧
        report.failures = [("plot", second), ("ui", first)]) ∧
      (∃ w' report, (halfwaySettings.onlyOn ["ui"]).generate .identity w = (w', .ok report) ∧
        report.failures = [("ui", first)]) ∧
      first.message ≠ second.message := by
  intro w file first second
  have hPlan : halfwaySettings.plan w = .ok ([plotDocuments, uiDocuments false], true) :=
    plan_pair false _
  obtain ⟨independent, hPlanUi⟩ := plan_onlyOn hPlan (List.cons_ne_nil "ui" []) (by decide)
  have hWays : ∀ name ∈ ["plot", "ui"], halfwaySettings.KeepsWays name := by
    intro name hName target front hFront target'
    revert name front
    cases target <;> cases target' <;> decide
  have hReport : ∀ {run : Workspace × Except Fault Report} {failures : List (String × Fault)},
      run.2.toOption.map Report.failures = some failures →
        ∃ w' report, run = (w', .ok report) ∧ report.failures = failures := by
    intro run failures h
    obtain ⟨report, hOk, hFailures⟩ := Option.map_eq_some_iff.mp h
    exact ⟨run.1, report, Prod.ext rfl (ok_of_toOption hOk), hFailures⟩
  refine ⟨?_, hReport ?_, hReport ?_, hReport ?_, by decide⟩
  · exact fun d hd => hWays d.name (List.mem_map_of_mem (f := CommDocuments.name) hd)
  · rw [Settings.generate, hPlan]
    decide +kernel
  · rw [Settings.generateInOrder, hPlan]
    decide +kernel
  · rw [Settings.generate, hPlanUi]
    cases independent <;> decide +kernel

end CommBindings
