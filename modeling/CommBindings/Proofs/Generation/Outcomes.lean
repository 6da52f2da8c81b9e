import CommBindings.Proofs.Generation.Discovery

set_option autoImplicit false

/-! # The report is that of the outcomes

Where every outcome of a run is a success or a fault that is reported, there is one for every comm
of the run, in the order of the comms (`processAll_names`), and the report puts them together one
after another (`report_eq`). Only the list of what is out of date needs the workspace.
-/

namespace CommBindings

variable {settings : Settings} {formatter : Formatter}

theorem lookup_of_mem {β : Type} {entries : List (String × β)}
    (hNodup : (entries.map Prod.fst).Nodup) {name : String} {value : β}
    (h : (name, value) ∈ entries) : entries.lookup name = some value := by
  induction entries with
  | nil => exact absurd h List.not_mem_nil
  | cons first rest ih =>
      obtain ⟨key, found⟩ := first
      rw [List.map_cons, List.nodup_cons] at hNodup
      rcases List.mem_cons.mp h with hFirst | hRest
      · cases hFirst
        exact List.lookup_cons_self
      · have hOther : (name == key) = false := by
          apply beq_eq_false_iff_ne.mpr
          rintro rfl
          exact hNodup.1 (List.mem_map.mpr ⟨_, hRest, rfl⟩)
        rw [List.lookup_cons, hOther]
        exact ih hNodup.2 hRest

/-! ## The outcomes -/

theorem processAll_cons {independent : Bool} {w : Workspace} {documents : CommDocuments}
    {rest : List CommDocuments}
    (h : Settings.unreported? (settings.process formatter w documents).2 = none) :
    settings.processAll formatter independent w (documents :: rest) =
      let turn := settings.process formatter w documents
      let others := settings.processAll formatter independent turn.1 rest
      (others.1, (documents.name, turn.2) :: others.2) := by
  rw [Settings.processAll]
  simp only [h, Option.isSome_none, Bool.false_and, Bool.false_eq_true, if_false]

theorem reported_of_ok {outcomes : List (String × Outcome)}
    (h : ∀ entry ∈ outcomes, ∃ rendition, entry.2 = .ok rendition) :
    ∀ entry ∈ outcomes, Settings.unreported? entry.2 = none := by
  intro entry hEntry
  obtain ⟨rendition, hRendition⟩ := h entry hEntry
  rw [hRendition]
  rfl

/-- The head of the outcomes is that of the first comm, whatever happens later. -/
theorem processAll_head {independent : Bool} {w w' : Workspace} {documents : CommDocuments}
    {rest : List CommDocuments} {outcomes : List (String × Outcome)}
    (h : settings.processAll formatter independent w (documents :: rest) = (w', outcomes)) :
    (documents.name, (settings.process formatter w documents).2) ∈ outcomes := by
  rw [Settings.processAll] at h
  simp only at h
  split at h
  · cases h
    exact List.mem_cons_self
  · cases h
    exact List.mem_cons_self

/-- Without a fault that is not reported every comm has its turn. -/
theorem processAll_names {independent : Bool} {selected : List CommDocuments}
    {w w' : Workspace} {outcomes : List (String × Outcome)}
    (h : settings.processAll formatter independent w selected = (w', outcomes))
    (hReported : ∀ entry ∈ outcomes, Settings.unreported? entry.2 = none) :
    outcomes.map Prod.fst = selected.map CommDocuments.name := by
  induction selected generalizing w w' outcomes with
  | nil =>
      cases h
      rfl
  | cons documents rest ih =>
      have hFirst := hReported _ (processAll_head h)
      rw [processAll_cons hFirst] at h
      cases h
      exact congrArg (List.cons documents.name)
        (ih rfl fun entry hEntry => hReported entry (List.mem_cons_of_mem _ hEntry))

/-! ## The report -/

namespace Report

/-- What one outcome adds to a report but for the files that are out of date. -/
def ofOutcome (name : String) : Outcome → Report
  | .error fault => ⟨[], [(name, fault)], [], [], []⟩
  | .ok rendition => ⟨[name], [], rendition.files, rendition.warnings, []⟩

/-- The report of outcomes but for the files that are out of date. -/
def ofOutcomes : List (String × Outcome) → Report
  | [] => empty
  | (name, outcome) :: rest => (ofOutcome name outcome).append (ofOutcomes rest)

end Report

theorem staleAmong_append (w : Workspace) (files others : List GeneratedFile) :
    Settings.staleAmong w (files ++ others) = (do
      let first ← Settings.staleAmong w files
      let second ← Settings.staleAmong w others
      pure (first ++ second)) := by
  induction files with
  | nil =>
      rw [List.nil_append]
      show _ = Settings.staleAmong w others >>= pure
      rw [bind_pure]
  | cons g rest ih =>
      rw [List.cons_append, Settings.staleAmong, Settings.staleAmong, ih]
      cases g.file.isCurrent w with
      | error failure => rfl
      | ok isCurrent =>
          cases Settings.staleAmong w rest with
          | error fault => rfl
          | ok first =>
              cases Settings.staleAmong w others with
              | error fault => rfl
              | ok second => cases isCurrent <;> rfl

/-- Whether the file can be read and has another content. -/
def GeneratedFile.isOld (w : Workspace) (g : GeneratedFile) : Bool :=
  match g.file.isCurrent w with
  | .ok isCurrent => !isCurrent
  | .error _ => false

/-- Where every file can be read as a text, those that differ are listed. -/
theorem staleAmong_of_current {w : Workspace} {files : List GeneratedFile}
    (h : ∀ g ∈ files, ∃ isCurrent, g.file.isCurrent w = .ok isCurrent) :
    Settings.staleAmong w files =
      .ok ((files.filter (GeneratedFile.isOld w)).map fun g => g.file.path) := by
  induction files with
  | nil => rfl
  | cons g rest ih =>
      obtain ⟨⟨isCurrent, hCurrent⟩, hRest⟩ := List.forall_mem_cons.mp h
      have hOld : g.isOld w = !isCurrent := by rw [GeneratedFile.isOld, hCurrent]
      rw [Settings.staleAmong, hCurrent, ih hRest, List.filter_cons, hOld]
      cases isCurrent <;> rfl

theorem current_of_staleAmong {w : Workspace} {files : List GeneratedFile} {stale : List Path}
    (h : Settings.staleAmong w files = .ok stale) :
    ∀ g ∈ files, ∃ isCurrent, g.file.isCurrent w = .ok isCurrent := by
  induction files generalizing stale with
  | nil => exact List.forall_mem_nil _
  | cons g rest ih =>
      rw [Settings.staleAmong] at h
      split at h
      · cases h
      · next isCurrent hCurrent =>
        obtain ⟨others, hOthers, -⟩ := bind_eq_ok.mp h
        exact List.forall_mem_cons.mpr ⟨⟨isCurrent, hCurrent⟩, ih hOthers⟩

/-- The files that a report lists as out of date. A run that writes lists none. -/
def Settings.staleIn (settings : Settings) (w : Workspace) (files : List GeneratedFile) :
    Except Fault (List Path) :=
  if settings.checkOnly then staleAmong w files else .ok []

theorem staleIn_nil (w : Workspace) : settings.staleIn w [] = .ok [] := by
  rw [Settings.staleIn]
  split <;> rfl

theorem staleIn_append (w : Workspace) (files others : List GeneratedFile) :
    settings.staleIn w (files ++ others) = (do
      let first ← settings.staleIn w files
      let second ← settings.staleIn w others
      pure (first ++ second)) := by
  unfold Settings.staleIn
  split
  · exact staleAmong_append w files others
  · rfl

/-- Whether a file is listed does not depend on the other files. -/
theorem staleIn_filter {w : Workspace} {files : List GeneratedFile} {stale : List Path}
    (h : settings.staleIn w files = .ok stale) :
    ∃ isStale : GeneratedFile → Bool, stale = (files.filter isStale).map (fun g => g.file.path) ∧
      ∀ keep : GeneratedFile → Bool, settings.staleIn w (files.filter keep) =
        .ok (((files.filter keep).filter isStale).map fun g => g.file.path) := by
  unfold Settings.staleIn at h ⊢
  split at h
  · next hCheck =>
    have hCurrent := current_of_staleAmong h
    refine ⟨GeneratedFile.isOld w, ?_, fun keep => ?_⟩
    · rw [staleAmong_of_current hCurrent] at h
      exact (Except.ok.inj h).symm
    · rw [if_pos hCheck]
      exact staleAmong_of_current fun g hg => hCurrent g (List.mem_filter.mp hg).1
  · next hWrites =>
    cases h
    have hNone : ∀ others : List GeneratedFile, others.filter (fun _ => false) = [] := by simp
    refine ⟨fun _ => false, ?_, fun keep => ?_⟩
    · rw [hNone]
      rfl
    · rw [if_neg hWrites, hNone]
      rfl

theorem reportOne_eq (w : Workspace) (name : String) (outcome : Outcome) :
    settings.reportOne w name outcome =
      (settings.staleIn w (Report.ofOutcome name outcome).files).map fun stale =>
        { Report.ofOutcome name outcome with stale := stale } := by
  cases outcome with
  | error fault =>
      show _ = (settings.staleIn w []).map _
      rw [staleIn_nil]
      rfl
  | ok rendition =>
      rw [Settings.reportOne, Settings.staleIn, Report.ofOutcome]
      split
      · cases Settings.staleAmong w rendition.files <;> rfl
      · rfl

/-- The report on comms that have the outcomes of a part of a run. -/
theorem report_part (w : Workspace) {all part : List (String × Outcome)}
    {selected : List CommDocuments}
    (hNames : part.map Prod.fst = selected.map CommDocuments.name)
    (hLookup : ∀ name outcome, (name, outcome) ∈ part → all.lookup name = some outcome) :
    settings.report w all selected =
      (settings.staleIn w (Report.ofOutcomes part).files).map fun stale =>
        { Report.ofOutcomes part with stale := stale } := by
  induction selected generalizing part with
  | nil =>
      have hNil : part = [] := List.map_eq_nil_iff.mp hNames
      subst hNil
      show _ = (settings.staleIn w []).map _
      rw [staleIn_nil]
      rfl
  | cons documents rest ih =>
      obtain ⟨⟨name, outcome⟩, others, rfl, rfl, hOthers⟩ := List.map_eq_cons_iff.mp hNames
      have hFirst : all.lookup documents.name = some outcome :=
        hLookup documents.name outcome List.mem_cons_self
      have hRest := ih hOthers fun name outcome hMem =>
        hLookup name outcome (List.mem_cons_of_mem _ hMem)
      rw [Settings.report, hFirst, hRest]
      simp only
      rw [reportOne_eq, Report.ofOutcomes, Report.append, staleIn_append]
      cases settings.staleIn w (Report.ofOutcome documents.name outcome).files with
      | error fault => rfl
      | ok first => cases settings.staleIn w (Report.ofOutcomes others).files <;> rfl

/-- The report on the comms of a run is that of its outcomes. -/
theorem report_eq (w : Workspace) {outcomes : List (String × Outcome)}
    {selected : List CommDocuments} (hNodup : (selected.map CommDocuments.name).Nodup)
    (hNames : outcomes.map Prod.fst = selected.map CommDocuments.name) :
    settings.report w outcomes selected =
      (settings.staleIn w (Report.ofOutcomes outcomes).files).map fun stale =>
        { Report.ofOutcomes outcomes with stale := stale } := by
  rw [← hNames] at hNodup
  exact report_part w hNames fun name outcome => lookup_of_mem hNodup

theorem mem_files_ofOutcomes {outcomes : List (String × Outcome)} {g : GeneratedFile} :
    g ∈ (Report.ofOutcomes outcomes).files ↔
      ∃ name rendition, (name, .ok rendition) ∈ outcomes ∧ g ∈ rendition.files := by
  induction outcomes with
  | nil => simp [Report.ofOutcomes, Report.empty]
  | cons entry rest ih =>
      obtain ⟨name, outcome⟩ := entry
      rw [Report.ofOutcomes, Report.append]
      simp only [List.mem_append, ih, List.mem_cons, Prod.mk.injEq]
      cases outcome with
      | error fault => simp [Report.ofOutcome]
      | ok rendition =>
          constructor
          · rintro (hHere | ⟨other, found, hMem, hg⟩)
            · exact ⟨name, rendition, Or.inl ⟨rfl, rfl⟩, hHere⟩
            · exact ⟨other, found, Or.inr hMem, hg⟩
          · rintro ⟨other, found, ⟨-, hSame⟩ | hMem, hg⟩
            · cases hSame
              exact Or.inl hg
            · exact Or.inr ⟨other, found, hMem, hg⟩

/-- Nothing failed exactly if every outcome is a success. -/
theorem failures_eq_nil_iff {outcomes : List (String × Outcome)} :
    (Report.ofOutcomes outcomes).failures = [] ↔
      ∀ entry ∈ outcomes, ∃ rendition, entry.2 = .ok rendition := by
  induction outcomes with
  | nil => simp [Report.ofOutcomes, Report.empty]
  | cons entry rest ih =>
      obtain ⟨name, outcome⟩ := entry
      rw [Report.ofOutcomes, Report.append, List.forall_mem_cons, ← ih]
      cases outcome <;> simp [Report.ofOutcome]

/-- The comms that were processed are in the order of the outcomes, and so are those that failed. -/
theorem sublist_ofOutcomes (outcomes : List (String × Outcome)) :
    (Report.ofOutcomes outcomes).processed.Sublist (outcomes.map Prod.fst) ∧
      ((Report.ofOutcomes outcomes).failures.map Prod.fst).Sublist (outcomes.map Prod.fst) := by
  induction outcomes with
  | nil => exact ⟨List.Sublist.slnil, List.Sublist.slnil⟩
  | cons entry rest ih =>
      obtain ⟨name, outcome⟩ := entry
      obtain ⟨hProcessed, hFailures⟩ := ih
      cases outcome with
      | error fault => exact ⟨hProcessed.cons name, hFailures.cons_cons name⟩
      | ok rendition => exact ⟨hProcessed.cons_cons name, hFailures.cons name⟩

/-- Every outcome is that of a comm that was processed or of one that failed. -/
theorem perm_ofOutcomes (outcomes : List (String × Outcome)) :
    ((Report.ofOutcomes outcomes).processed ++
      (Report.ofOutcomes outcomes).failures.map Prod.fst).Perm (outcomes.map Prod.fst) := by
  induction outcomes with
  | nil => exact List.Perm.nil
  | cons entry rest ih =>
      obtain ⟨name, outcome⟩ := entry
      cases outcome with
      | error fault => exact List.perm_middle.trans (ih.cons name)
      | ok rendition => exact ih.cons name

/-- What holds of the files of each success holds of the files of the report. -/
theorem map_files_ofOutcomes {β : Type} {f : GeneratedFile → β} {ofComm : String → List β}
    {outcomes : List (String × Outcome)}
    (h : ∀ name rendition, (name, .ok rendition) ∈ outcomes →
      rendition.files.map f = ofComm name) :
    (Report.ofOutcomes outcomes).files.map f =
      (Report.ofOutcomes outcomes).processed.flatMap ofComm := by
  induction outcomes with
  | nil => rfl
  | cons entry rest ih =>
      obtain ⟨name, outcome⟩ := entry
      have hRest := ih fun other rendition hMem => h other rendition (List.mem_cons_of_mem _ hMem)
      cases outcome with
      | error fault => exact hRest
      | ok rendition =>
          have hFirst := h name rendition List.mem_cons_self
          show (rendition.files ++ (Report.ofOutcomes rest).files).map f =
            ofComm name ++ (Report.ofOutcomes rest).processed.flatMap ofComm
          rw [List.map_append, hFirst, hRest]

/-- The warnings are those of the comms that were processed. -/
theorem warnings_ofOutcomes {ofComm : String → List String} {outcomes : List (String × Outcome)}
    (h : ∀ name rendition, (name, .ok rendition) ∈ outcomes → rendition.warnings = ofComm name) :
    (Report.ofOutcomes outcomes).warnings =
      (Report.ofOutcomes outcomes).processed.flatMap ofComm := by
  induction outcomes with
  | nil => rfl
  | cons entry rest ih =>
      obtain ⟨name, outcome⟩ := entry
      have hRest := ih fun other rendition hMem => h other rendition (List.mem_cons_of_mem _ hMem)
      cases outcome with
      | error fault => exact hRest
      | ok rendition =>
          have hFirst := h name rendition List.mem_cons_self
          show rendition.warnings ++ (Report.ofOutcomes rest).warnings =
            ofComm name ++ (Report.ofOutcomes rest).processed.flatMap ofComm
          rw [hFirst, hRest]

/-- The report of the outcomes for some of the comms is that part of the report of all. -/
theorem ofOutcomes_filter {outcomes : List (String × Outcome)} (keep : String → Bool)
    (h : ∀ name rendition, (name, .ok rendition) ∈ outcomes → ∀ g ∈ rendition.files, g.comm = name) :
    let whole := Report.ofOutcomes outcomes
    let part := Report.ofOutcomes (outcomes.filter fun entry => keep entry.1)
    part.processed = whole.processed.filter keep ∧
      part.failures = (whole.failures.filter fun failure => keep failure.1) ∧
      part.files = whole.files.filter fun g => keep g.comm := by
  induction outcomes with
  | nil => exact ⟨rfl, rfl, rfl⟩
  | cons entry rest ih =>
      obtain ⟨name, outcome⟩ := entry
      obtain ⟨hProcessed, hFailures, hFiles⟩ :=
        ih fun other rendition hMem => h other rendition (List.mem_cons_of_mem _ hMem)
      rw [List.filter_cons]
      cases outcome with
      | error fault =>
          by_cases hKeep : keep name = true
          · simp [Report.ofOutcomes, Report.append, Report.ofOutcome, hKeep, hProcessed, hFailures,
              hFiles]
          · simp [Report.ofOutcomes, Report.append, Report.ofOutcome, hKeep, hProcessed, hFailures,
              hFiles]
      | ok rendition =>
          have hOfComm := h name rendition List.mem_cons_self
          by_cases hKeep : keep name = true
          · have hKept : rendition.files.filter (fun g => keep g.comm) = rendition.files :=
              List.filter_eq_self.mpr fun g hg => by rw [hOfComm g hg, hKeep]
            simp [Report.ofOutcomes, Report.append, Report.ofOutcome, hKeep, hProcessed, hFailures,
              hFiles, hKept]
          · have hDropped : rendition.files.filter (fun g => keep g.comm) = [] :=
              List.filter_eq_nil_iff.mpr fun g hg => by rwa [hOfComm g hg]
            simp [Report.ofOutcomes, Report.append, Report.ofOutcome, hKeep, hProcessed, hFailures,
              hFiles, hDropped]

/-! ## The run -/

/-- What a run comes to whose outcomes are all successes or reported faults. -/
theorem generate_of_outcomes {w w' : Workspace} {selected : List CommDocuments}
    {independent : Bool} {outcomes : List (String × Outcome)}
    (hPlan : settings.plan w = .ok (selected, independent))
    (hAll : settings.processAll formatter independent w selected = (w', outcomes))
    (hReported : ∀ entry ∈ outcomes, Settings.unreported? entry.2 = none) :
    settings.generate formatter w =
      (w', (settings.staleIn w' (Report.ofOutcomes outcomes).files).map fun stale =>
        { Report.ofOutcomes outcomes with stale := stale }) := by
  have hNone : outcomes.findSome? (fun entry => Settings.unreported? entry.2) = none :=
    List.findSome?_eq_none_iff.mpr hReported
  rw [Settings.generate, hPlan]
  simp only [hAll, hNone]
  rw [report_eq w' (nodup_plan hPlan) (processAll_names hAll hReported)]

/-- A run that writes comes to the report of its outcomes. -/
theorem generate_of_writes (hWrites : settings.checkOnly = false) {w w' : Workspace}
    {selected : List CommDocuments} {independent : Bool} {outcomes : List (String × Outcome)}
    (hPlan : settings.plan w = .ok (selected, independent))
    (hAll : settings.processAll formatter independent w selected = (w', outcomes))
    (hReported : ∀ entry ∈ outcomes, Settings.unreported? entry.2 = none) :
    settings.generate formatter w =
      (w', .ok { Report.ofOutcomes outcomes with stale := [] }) := by
  rw [generate_of_outcomes hPlan hAll hReported, Settings.staleIn, hWrites]
  rfl

/-- A run with a report has a plan, and outcomes that are reported. -/
theorem generate_ok {w w' : Workspace} {report : Report}
    (h : settings.generate formatter w = (w', .ok report)) :
    ∃ selected independent outcomes, settings.plan w = .ok (selected, independent) ∧
      settings.processAll formatter independent w selected = (w', outcomes) ∧
      ∀ entry ∈ outcomes, Settings.unreported? entry.2 = none := by
  rw [Settings.generate] at h
  cases hPlan : settings.plan w with
  | error fault =>
      rw [hPlan] at h
      cases h
  | ok planned =>
      obtain ⟨selected, independent⟩ := planned
      rw [hPlan] at h
      cases hAll : settings.processAll formatter independent w selected with
      | mk w₁ outcomes =>
        simp only [hAll] at h
        cases hNone : outcomes.findSome? fun entry => Settings.unreported? entry.2 with
        | some fault =>
            rw [hNone] at h
            cases h
        | none =>
            rw [hNone] at h
            obtain ⟨rfl, -⟩ := Prod.mk.inj h
            exact ⟨selected, independent, outcomes, rfl, hAll,
              List.findSome?_eq_none_iff.mp hNone⟩

end CommBindings
