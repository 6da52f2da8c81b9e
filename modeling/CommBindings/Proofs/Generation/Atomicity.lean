import CommBindings.Proofs.Generation.Discovery
import CommBindings.Proofs.Generation.OutputPaths

set_option autoImplicit false

/-! # The comms of a run succeed or fail on their own

A run that writes gives every processed comm its three files and leaves those of a failed comm as
they were, and it touches no other file (`generate_allOrNothing`). The work on one comm is
described by `process_spec`; a comm's files survive the work on the comms before and after it
because that work stays inside the paths of those comms (`processAll_outside`).
-/

namespace CommBindings

open Outputs

variable {settings : Settings} {formatter : Formatter}

/-! ## One comm -/

/-- The file is that of a target for the comm with a name. -/
def Settings.IsFileOf (settings : Settings) (name : String) (target : Target)
    (generated : GeneratedFile) : Prop :=
  generated.comm = name ∧ generated.target = target ∧
    generated.file.path = settings.outputPath target name

theorem loadComm_name {w : Workspace} {documents : CommDocuments} {comm : Comm}
    (h : loadComm w documents = .ok comm) : comm.name = documents.name := by
  unfold loadComm at h
  obtain ⟨frontend, -, h⟩ := bind_eq_ok.mp h
  obtain ⟨backend, -, h⟩ := bind_eq_ok.mp h
  unfold Comm.ofContracts at h
  split at h
  · cases h
    rfl
  · cases h

theorem renderFile_isFileOf {comm : Comm} {target : Target} {generated : GeneratedFile}
    (h : settings.renderFile formatter comm target = .ok generated) :
    settings.IsFileOf comm.name target generated := by
  unfold Settings.renderFile at h
  obtain ⟨text, -, h⟩ := bind_eq_ok.mp h
  have hPath : (settings.outputDir target).child (target.fileName comm) =
      settings.outputPath target comm.name := by
    rw [Settings.outputPath, ← Target.fileName_eq]
  simp only at h
  split at h
  · obtain ⟨content, -, h⟩ := bind_eq_ok.mp h
    cases h
    exact ⟨rfl, rfl, hPath⟩
  · cases h
    exact ⟨rfl, rfl, hPath⟩

/-- The files of a comm are one for each target. -/
theorem rendition_files {w : Workspace} {documents : CommDocuments} {rendition : Rendition}
    (h : settings.rendition formatter w documents = .ok rendition) :
    List.Forall₂ (settings.IsFileOf documents.name) Target.all rendition.files := by
  unfold Settings.rendition at h
  obtain ⟨comm, hComm, h⟩ := bind_eq_ok.mp h
  obtain ⟨warnings, -, h⟩ := bind_eq_ok.mp h
  obtain ⟨files, hFiles, h⟩ := bind_eq_ok.mp h
  cases h
  rw [← loadComm_name hComm]
  exact (mapM_eq_ok.mp hFiles).imp fun target generated => renderFile_isFileOf

theorem exists_target {name : String} {targets : List Target} {files : List GeneratedFile}
    (h : List.Forall₂ (settings.IsFileOf name) targets files) :
    ∀ g ∈ files, ∃ target, settings.IsFileOf name target g := by
  induction h with
  | nil => exact fun g hg => absurd hg List.not_mem_nil
  | cons hFirst _ ih => exact List.forall_mem_cons.mpr ⟨⟨_, hFirst⟩, ih⟩

theorem exists_file {name : String} {targets : List Target} {files : List GeneratedFile}
    (h : List.Forall₂ (settings.IsFileOf name) targets files) :
    ∀ target ∈ targets, ∃ g ∈ files, settings.IsFileOf name target g := by
  induction h with
  | nil => exact fun target hTarget => absurd hTarget List.not_mem_nil
  | cons hFirst _ ih =>
      refine List.forall_mem_cons.mpr ⟨⟨_, List.mem_cons_self, hFirst⟩, ?_⟩
      intro target hTarget
      obtain ⟨g, hg, hFile⟩ := ih target hTarget
      exact ⟨g, List.mem_cons_of_mem _ hg, hFile⟩

theorem mem_all (target : Target) : target ∈ Target.all := by
  cases target <;> decide

/-- All that is written for a comm goes to the paths of this comm. -/
theorem rendition_paths {w : Workspace} {documents : CommDocuments} {rendition : Rendition}
    (h : settings.rendition formatter w documents = .ok rendition) :
    ∀ f ∈ rendition.files.map GeneratedFile.file,
      ∃ target, f.path = settings.outputPath target documents.name := by
  intro f hf
  obtain ⟨g, hg, rfl⟩ := List.mem_map.mp hf
  obtain ⟨target, -, -, hPath⟩ := exists_target (rendition_files h) g hg
  exact ⟨target, hPath⟩

/-- No file of a comm goes where another one of its files is staged. -/
theorem rendition_apart {w : Workspace} {documents : CommDocuments} {rendition : Rendition}
    (h : settings.rendition formatter w documents = .ok rendition) :
    ∀ f ∈ rendition.files.map GeneratedFile.file, ∀ g ∈ rendition.files.map GeneratedFile.file,
      f.path.place ≠ stagingPlace g.path := by
  intro f hf g hg
  obtain ⟨target, hPath⟩ := rendition_paths h f hf
  obtain ⟨other, hPath'⟩ := rendition_paths h g hg
  rw [hPath, hPath']
  exact outputPath_apart settings target other documents.name documents.name

/-- What the work on a comm leaves of its files: the old ones after a failure, and the rendered ones
after a success. -/
def Settings.Leaves (settings : Settings) (name : String) (w w' : Workspace) :
    Outcome → Prop
  | .error _ => ∀ target, w'.file? (settings.outputPath target name).place =
      w.file? (settings.outputPath target name).place
  | .ok rendition => List.Forall₂ (settings.IsFileOf name) Target.all rendition.files ∧
      ∀ g ∈ rendition.files, w'.file? g.file.path.place = some (Utf8.encode g.file.content)

theorem process_spec (hWrites : settings.checkOnly = false) (w : Workspace)
    (documents : CommDocuments) :
    (∀ q, settings.Outside documents.name q →
      (settings.process formatter w documents).1.file? q = w.file? q) ∧
    settings.Leaves documents.name w (settings.process formatter w documents).1
      (settings.process formatter w documents).2 := by
  unfold Settings.process
  cases hRendition : settings.rendition formatter w documents with
  | error fault => exact ⟨fun q _ => rfl, fun target => rfl⟩
  | ok rendition =>
      have hFiles := rendition_files hRendition
      have hPaths := rendition_paths hRendition
      simp only [hWrites, Bool.false_eq_true, if_false]
      cases hWrite : Outputs.write w (rendition.files.map GeneratedFile.file) with
      | mk w' outcome =>
        cases outcome with
        | error error =>
            have hLeft := leftAlone_of_write_error hWrite
            constructor
            · intro q hq
              apply hLeft.kept
              intro f hf
              obtain ⟨target, hPath⟩ := hPaths f hf
              rw [hPath]
              exact (hq target).2
            · intro target
              apply hLeft.kept
              intro f hf
              obtain ⟨other, hPath⟩ := hPaths f hf
              rw [hPath]
              exact outputPath_apart settings target other documents.name documents.name
        | ok done =>
            have hWritten := written_of_write_ok (rendition_apart hRendition) hWrite
            refine ⟨?_, hFiles, fun g hg => hWritten.written _ (List.mem_map_of_mem hg)⟩
            intro q hq
            apply hWritten.kept
            intro f hf
            obtain ⟨target, hPath⟩ := hPaths f hf
            rw [hPath]
            exact hq target

/-- Where the work on a comm succeeds, what came out is what was rendered. -/
theorem rendition_of_process {w : Workspace} {d : CommDocuments} {rendition : Rendition}
    (h : (settings.process formatter w d).2 = .ok rendition) :
    settings.rendition formatter w d = .ok rendition := by
  unfold Settings.process at h
  cases hRendition : settings.rendition formatter w d with
  | error fault =>
      rw [hRendition] at h
      cases h
  | ok found =>
      rw [hRendition] at h
      simp only at h
      split at h
      · exact h
      · split at h
        · exact h
        · cases h

/-- A run that only checks writes nothing. -/
theorem process_checkOnly (hCheck : settings.checkOnly = true) (w : Workspace)
    (d : CommDocuments) :
    settings.process formatter w d = (w, settings.rendition formatter w d) := by
  unfold Settings.process
  cases settings.rendition formatter w d with
  | error fault => rfl
  | ok rendition => simp only [hCheck, if_true]

/-- The work on a comm stays inside its paths. -/
theorem process_outside (w : Workspace) (d : CommDocuments) {q : Place}
    (hq : settings.Outside d.name q) :
    (settings.process formatter w d).1.file? q = w.file? q := by
  cases hCheck : settings.checkOnly with
  | true => rw [process_checkOnly hCheck]
  | false => exact (process_spec hCheck w d).1 q hq

/-! ## All comms -/

/-- The work on comms stays inside the paths of these comms. -/
theorem processAll_outside (independent : Bool)
    (selected : List CommDocuments) (w : Workspace) {q : Place}
    (hq : ∀ d ∈ selected, settings.Outside d.name q) :
    (settings.processAll formatter independent w selected).1.file? q = w.file? q := by
  induction selected generalizing w with
  | nil => rfl
  | cons documents rest ih =>
      have hFirst : (settings.process formatter w documents).1.file? q = w.file? q :=
        process_outside w documents (hq documents List.mem_cons_self)
      -- the run may stop after the first comm, or go on from what it left
      have hRest : ∀ d ∈ rest, settings.Outside d.name q :=
        fun d hd => hq d (List.mem_cons_of_mem _ hd)
      rw [Settings.processAll]
      simp only
      split
      · exact hFirst
      · exact (ih _ hRest).trans hFirst

theorem leaves_of_kept {name : String} {w w₁ w' : Workspace} {outcome : Outcome}
    (hKept : ∀ target, w'.file? (settings.outputPath target name).place =
      w₁.file? (settings.outputPath target name).place)
    (h : settings.Leaves name w w₁ outcome) : settings.Leaves name w w' outcome := by
  cases outcome with
  | error fault => exact fun target => (hKept target).trans (h target)
  | ok rendition =>
      refine ⟨h.1, fun g hg => ?_⟩
      obtain ⟨target, -, -, hPath⟩ := exists_target h.1 g hg
      calc w'.file? g.file.path.place = w₁.file? g.file.path.place := by rw [hPath, hKept target]
        _ = some (Utf8.encode g.file.content) := h.2 g hg

theorem leaves_of_earlier {name : String} {w w₁ w' : Workspace} {outcome : Outcome}
    (hKept : ∀ target, w₁.file? (settings.outputPath target name).place =
      w.file? (settings.outputPath target name).place)
    (h : settings.Leaves name w₁ w' outcome) : settings.Leaves name w w' outcome := by
  cases outcome with
  | error fault => exact fun target => (h target).trans (hKept target)
  | ok rendition => exact h

/-- What a comm's turn leaves of its files is still there at the end, if no other comm has its
paths. -/
theorem processAll_leaves (hWrites : settings.checkOnly = false) (independent : Bool)
    {selected : List CommDocuments} {w w' : Workspace} {outcomes : List (String × Outcome)}
    (hNodup : (selected.map CommDocuments.name).Nodup)
    (h : settings.processAll formatter independent w selected = (w', outcomes))
    (hReported : ∀ entry ∈ outcomes, Settings.unreported? entry.2 = none)
    {d : CommDocuments} (hd : d ∈ selected)
    (hOthers : ∀ other ∈ selected, other.name ≠ d.name →
      ∀ target, settings.Outside other.name (settings.outputPath target d.name).place) :
    ∃ outcome, outcomes.lookup d.name = some outcome ∧ settings.Leaves d.name w w' outcome := by
  induction selected generalizing w w' outcomes with
  | nil => exact absurd hd List.not_mem_nil
  | cons first rest ih =>
      have hSpec : (∀ q, settings.Outside first.name q →
            (settings.process formatter w first).1.file? q = w.file? q) ∧
          settings.Leaves first.name w (settings.process formatter w first).1
            (settings.process formatter w first).2 :=
        process_spec hWrites w first
      rw [List.map_cons, List.nodup_cons] at hNodup
      rw [Settings.processAll] at h
      cases hFirst : settings.process formatter w first with
      | mk w₁ outcome =>
        rw [hFirst] at h hSpec
        simp only at h hSpec
        split at h
        · -- a fault that is not reported is no outcome of this run
          next hStop =>
          cases h
          have hNone := hReported (first.name, outcome) List.mem_cons_self
          rw [Bool.and_eq_true, hNone] at hStop
          cases hStop.1
        · cases hRest : settings.processAll formatter independent w₁ rest with
          | mk w₂ others =>
            rw [hRest] at h
            cases h
            by_cases hSame : d.name = first.name
            · -- this was the comm's turn: what it left survives the comms after it
              have hName : first.name = d.name := hSame.symm
              have hRestOutside : ∀ other ∈ rest, ∀ target,
                  settings.Outside other.name (settings.outputPath target d.name).place := by
                intro other hOther
                refine hOthers other (List.mem_cons_of_mem _ hOther) fun hOtherName => ?_
                apply hNodup.1
                rw [hName, ← hOtherName]
                exact List.mem_map_of_mem hOther
              have hKept : ∀ target, w₂.file? (settings.outputPath target d.name).place =
                  w₁.file? (settings.outputPath target d.name).place := by
                intro target
                have hEnd : (settings.processAll formatter independent w₁ rest).1 = w₂ := by
                  rw [hRest]
                rw [← hEnd]
                exact processAll_outside independent rest w₁
                  fun other hOther => hRestOutside other hOther target
              refine ⟨outcome, ?_, ?_⟩
              · rw [hSame, List.lookup_cons_self]
              · rw [hName] at hSpec
                exact leaves_of_kept hKept hSpec.2
            · -- the turn is still to come: the first comm leaves the paths alone
              have hLater : d ∈ rest := by
                rcases List.mem_cons.mp hd with rfl | hLater
                · exact absurd rfl hSame
                · exact hLater
              obtain ⟨found, hFound, hLeaves⟩ := ih hNodup.2 hRest
                (fun entry hEntry => hReported entry (List.mem_cons_of_mem _ hEntry)) hLater
                fun other hOther => hOthers other (List.mem_cons_of_mem _ hOther)
              have hEarlier : ∀ target, w₁.file? (settings.outputPath target d.name).place =
                  w.file? (settings.outputPath target d.name).place := by
                intro target
                exact hSpec.1 _ (hOthers first List.mem_cons_self (Ne.symm hSame) target)
              refine ⟨found, ?_, leaves_of_earlier hEarlier hLeaves⟩
              have hne : (d.name == first.name) = false := beq_eq_false_iff_ne.mpr hSame
              rw [List.lookup_cons, hne]
              exact hFound

/-! ## The report -/

/-- Every rendition among the outcomes has the files of its comm. -/
theorem processAll_files (independent : Bool) {selected : List CommDocuments}
    {w w' : Workspace} {outcomes : List (String × Outcome)}
    (h : settings.processAll formatter independent w selected = (w', outcomes)) :
    ∀ name rendition, (name, .ok rendition) ∈ outcomes →
      List.Forall₂ (settings.IsFileOf name) Target.all rendition.files := by
  induction selected generalizing w w' outcomes with
  | nil =>
      cases h
      exact fun name rendition hMem => absurd hMem List.not_mem_nil
  | cons first rest ih =>
      have hFirst : ∀ rendition,
          (settings.process formatter w first).2 = .ok rendition →
            List.Forall₂ (settings.IsFileOf first.name) Target.all rendition.files :=
        fun rendition hOk => rendition_files (rendition_of_process hOk)
      rw [Settings.processAll] at h
      simp only at h
      intro name rendition hMem
      split at h
      · cases h
        rw [List.mem_singleton, Prod.mk.injEq] at hMem
        rw [hMem.1]
        exact hFirst rendition hMem.2.symm
      · cases h
        rcases List.mem_cons.mp hMem with hHead | hTail
        · rw [Prod.mk.injEq] at hHead
          rw [hHead.1]
          exact hFirst rendition hHead.2.symm
        · exact ih rfl name rendition hTail

/-- A report tells of the outcomes only, and of each success with all of its files. -/
structure Report.TellsOf (report : Report) (outcomes : List (String × Outcome)) : Prop where
  failed : ∀ name fault, (name, fault) ∈ report.failures →
    outcomes.lookup name = some (.error fault)
  processed : ∀ name ∈ report.processed, ∃ rendition,
    outcomes.lookup name = some (.ok rendition) ∧ rendition.files ⊆ report.files
  files : ∀ g ∈ report.files, ∃ name rendition,
    outcomes.lookup name = some (.ok rendition) ∧ g ∈ rendition.files

theorem tellsOf_empty (outcomes : List (String × Outcome)) : Report.empty.TellsOf outcomes where
  failed := fun _ _ hMem => absurd hMem List.not_mem_nil
  processed := fun _ hMem => absurd hMem List.not_mem_nil
  files := fun _ hMem => absurd hMem List.not_mem_nil

theorem tellsOf_append {first second : Report} {outcomes : List (String × Outcome)}
    (hFirst : first.TellsOf outcomes) (hSecond : second.TellsOf outcomes) :
    (first.append second).TellsOf outcomes where
  failed := by
    intro name fault hMem
    rcases List.mem_append.mp hMem with hMem | hMem
    · exact hFirst.failed name fault hMem
    · exact hSecond.failed name fault hMem
  processed := by
    intro name hMem
    rcases List.mem_append.mp hMem with hMem | hMem
    · obtain ⟨rendition, hLookup, hFiles⟩ := hFirst.processed name hMem
      exact ⟨rendition, hLookup, List.subset_append_of_subset_left _ hFiles⟩
    · obtain ⟨rendition, hLookup, hFiles⟩ := hSecond.processed name hMem
      exact ⟨rendition, hLookup, List.subset_append_of_subset_right _ hFiles⟩
  files := by
    intro g hMem
    rcases List.mem_append.mp hMem with hMem | hMem
    · exact hFirst.files g hMem
    · exact hSecond.files g hMem

theorem tellsOf_reportOne {w : Workspace} {name : String} {outcome : Outcome}
    {outcomes : List (String × Outcome)} {report : Report}
    (hLookup : outcomes.lookup name = some outcome)
    (h : settings.reportOne w name outcome = .ok report) : report.TellsOf outcomes := by
  cases outcome with
  | error fault =>
      cases h
      refine ⟨?_, fun _ hMem => absurd hMem List.not_mem_nil,
        fun _ hMem => absurd hMem List.not_mem_nil⟩
      intro other fault' hMem
      cases List.mem_singleton.mp hMem
      exact hLookup
  | ok rendition =>
      have hReport : ∃ stale, report = ⟨[name], [], rendition.files, rendition.warnings, stale⟩ := by
        rw [Settings.reportOne] at h
        split at h
        · obtain ⟨stale, -, h⟩ := bind_eq_ok.mp h
          exact ⟨stale, (Except.ok.inj h).symm⟩
        · exact ⟨[], (Except.ok.inj h).symm⟩
      obtain ⟨stale, rfl⟩ := hReport
      refine ⟨fun _ _ hMem => absurd hMem List.not_mem_nil, ?_, ?_⟩
      · intro other hMem
        rw [List.mem_singleton.mp hMem]
        exact ⟨rendition, hLookup, fun g hg => hg⟩
      · exact fun g hg => ⟨name, rendition, hLookup, hg⟩

theorem report_tellsOf {w : Workspace} {outcomes : List (String × Outcome)}
    {selected : List CommDocuments} {report : Report}
    (h : settings.report w outcomes selected = .ok report) : report.TellsOf outcomes := by
  induction selected generalizing report with
  | nil =>
      cases h
      exact tellsOf_empty outcomes
  | cons documents rest ih =>
      rw [Settings.report] at h
      cases hLookup : outcomes.lookup documents.name with
      | none =>
          rw [hLookup] at h
          obtain ⟨first, hFirst, h⟩ := bind_eq_ok.mp h
          obtain ⟨others, hOthers, h⟩ := bind_eq_ok.mp h
          cases hFirst
          cases h
          exact tellsOf_append (tellsOf_empty outcomes) (ih hOthers)
      | some outcome =>
          rw [hLookup] at h
          obtain ⟨first, hFirst, h⟩ := bind_eq_ok.mp h
          obtain ⟨others, hOthers, h⟩ := bind_eq_ok.mp h
          cases h
          exact tellsOf_append (tellsOf_reportOne hLookup hFirst) (ih hOthers)

/-! ## A whole run -/

/-- What a run with a report did to the files of one comm: after a failure they are as they were,
and after a success each of them is reported and holds what is reported for it. -/
structure Settings.AllOrNothing (settings : Settings) (w w' : Workspace) (report : Report)
    (name : String) : Prop where
  failed : ∀ fault, (name, fault) ∈ report.failures → ∀ target,
    w'.file? (settings.outputPath target name).place =
      w.file? (settings.outputPath target name).place
  listed : name ∈ report.processed → ∀ target, ∃ g ∈ report.files,
    settings.IsFileOf name target g
  processed : name ∈ report.processed → ∀ g ∈ report.files, g.comm = name →
    g.file.path = settings.outputPath g.target name ∧
      w'.file? g.file.path.place = some (Utf8.encode g.file.content)

theorem allOrNothing_of_outcomes {w w' : Workspace} {outcomes : List (String × Outcome)}
    {report : Report} {name : String} {outcome : Outcome} (hReport : report.TellsOf outcomes)
    (hFiles : ∀ other rendition, (other, .ok rendition) ∈ outcomes →
      List.Forall₂ (settings.IsFileOf other) Target.all rendition.files)
    (hLookup : outcomes.lookup name = some outcome)
    (hLeaves : settings.Leaves name w w' outcome) :
    settings.AllOrNothing w w' report name where
  failed := by
    intro fault hMem
    have hOutcome := hReport.failed name fault hMem
    rw [hLookup] at hOutcome
    cases hOutcome
    exact hLeaves
  listed := by
    intro hMem target
    obtain ⟨rendition, hOutcome, hSubset⟩ := hReport.processed name hMem
    rw [hLookup] at hOutcome
    cases hOutcome
    obtain ⟨g, hg, hFile⟩ := exists_file hLeaves.1 target (mem_all target)
    exact ⟨g, hSubset hg, hFile⟩
  processed := by
    intro hMem g hg hName
    obtain ⟨other, rendition, hOther, hgOther⟩ := hReport.files g hg
    obtain ⟨before, after, hOutcomes, -⟩ := List.lookup_eq_some_iff.mp hOther
    have hMemOther : (other, Except.ok rendition) ∈ outcomes := by
      rw [hOutcomes]
      exact List.mem_append_right before List.mem_cons_self
    obtain ⟨target, hComm, hTarget, hPath⟩ :=
      exists_target (hFiles other rendition hMemOther) g hgOther
    -- a reported file names its comm, and a comm has one outcome
    have hSame : other = name := hComm.symm.trans hName
    rw [hSame, hLookup] at hOther
    obtain ⟨found, hOutcome, -⟩ := hReport.processed name hMem
    rw [hLookup] at hOutcome
    cases hOutcome
    cases hOther
    rw [← hSame, hTarget]
    exact ⟨hPath, hLeaves.2 g hgOther⟩

/-- In a run that writes and reports, each comm with paths of its own gets all of its files or
keeps what it had, and nothing else changes. -/
theorem generate_allOrNothing {settings : Settings} {formatter : Formatter} {w w' : Workspace}
    {report : Report} (hWrites : settings.checkOnly = false)
    (h : settings.generate formatter w = (w', .ok report)) :
    ∃ selected independent, settings.plan w = .ok (selected, independent) ∧
      (∀ d ∈ selected,
        (∀ other ∈ selected, other.name ≠ d.name → ∀ target target',
          settings.outputPath target d.name ≠ settings.outputPath target' other.name) →
        settings.AllOrNothing w w' report d.name) ∧
      (∀ q, (∀ d ∈ selected, settings.Outside d.name q) → w'.file? q = w.file? q) ∧
      ∀ directory name comm direction, Discovery.classify? name = some (comm, direction) →
        w'.file? (directory ++ [name]) = w.file? (directory ++ [name]) := by
  unfold Settings.generate at h
  cases hPlan : settings.plan w with
  | error fault =>
      rw [hPlan] at h
      cases h
  | ok planned =>
      obtain ⟨selected, independent⟩ := planned
      rw [hPlan] at h
      cases hAll : settings.processAll formatter independent w selected with
      | mk w₁ outcomes =>
        simp only [hAll] at h
        cases hUnreported : outcomes.findSome? fun entry => Settings.unreported? entry.2 with
        | some fault =>
            rw [hUnreported] at h
            cases h
        | none =>
            rw [hUnreported] at h
            obtain ⟨rfl, hReport⟩ := Prod.mk.inj h
            have hReported : ∀ entry ∈ outcomes, Settings.unreported? entry.2 = none :=
              List.findSome?_eq_none_iff.mp hUnreported
            have hOutside : ∀ q, (∀ d ∈ selected, settings.Outside d.name q) →
                w₁.file? q = w.file? q := by
              intro q hq
              have hEnd : (settings.processAll formatter independent w selected).1 = w₁ := by
                rw [hAll]
              rw [← hEnd]
              exact processAll_outside independent selected w hq
            refine ⟨selected, independent, rfl, ?_, hOutside, ?_⟩
            · intro d hd hApart
              obtain ⟨outcome, hLookup, hLeaves⟩ := processAll_leaves hWrites independent
                (nodup_plan hPlan) hAll hReported hd fun other hOther hName target =>
                  outside_output settings (hApart other hOther hName target)
              exact allOrNothing_of_outcomes (report_tellsOf hReport)
                (processAll_files independent hAll) hLookup hLeaves
            · intro directory name comm direction hDocument
              exact hOutside _ fun d _ =>
                outside_document settings hDocument directory d.name

/-- Two comms, of which the second has a document that is no JSON text. -/
theorem allOrNothing_invalidDocument :
    let w : Workspace :=
      ⟨[(["comms"], .directory), (["out"], .directory),
        (["comms", "plot-backend-openrpc.json"], .file (Utf8.encode "\x7b\"methods\": []\x7d")),
        (["comms", "ui-backend-openrpc.json"], .file (Utf8.encode "\x7b"))]⟩
    let settings : Settings :=
      ⟨⟨["comms"]⟩, ⟨["out"]⟩, ⟨["out"]⟩, ⟨["out"]⟩, [], false, false, none⟩
    let run := settings.generate .identity w
    ∃ report, run.2 = .ok report ∧
      report.processed = ["plot"] ∧ report.failures.map Prod.fst = ["ui"] ∧
      settings.AllOrNothing w run.1 report "plot" ∧
      settings.AllOrNothing w run.1 report "ui" := by
  intro w settings run
  let plot : CommDocuments := ⟨"plot", some ⟨["comms", "plot-backend-openrpc.json"]⟩, none⟩
  let ui : CommDocuments := ⟨"ui", some ⟨["comms", "ui-backend-openrpc.json"]⟩, none⟩
  have hNames : Discovery.fileNames w ["comms"] =
      ["plot-backend-openrpc.json", "ui-backend-openrpc.json"] := by
    cbv
  have hGathered : ((Discovery.fileNames w ["comms"]).map settings.commsDir.child).foldlM
      Discovery.add [] = .ok [plot, ui] := by
    rw [hNames]
    decide +kernel
  have hSorted : [plot, ui].mergeSort (fun a b => decide (a.name ≤ b.name)) = [plot, ui] := by
    cbv
  have hDiscover : discover w settings.commsDir = .ok [plot, ui] := by
    have hDirectory : w.isDirectory settings.commsDir = .ok true := by
      decide +kernel
    have hPlace : w.locate settings.commsDir = .ok ["comms"] := by
      decide +kernel
    rw [discover, hDirectory, hPlace]
    simp only [hGathered]
    exact congrArg Except.ok hSorted
  have hPlan : settings.plan w = .ok ([plot, ui], false) := by
    rw [Settings.plan, hDiscover]
    rfl
  have hReport : (run.2.toOption.map fun report =>
      (report.processed, report.failures.map Prod.fst)) = some (["plot"], ["ui"]) := by
    show ((settings.generate .identity w).2.toOption.map _) = _
    rw [Settings.generate, hPlan]
    decide +kernel
  cases hOutcome : run.2 with
  | error fault =>
      rw [hOutcome] at hReport
      cases hReport
  | ok report =>
      rw [hOutcome] at hReport
      obtain ⟨hProcessed, hFailures⟩ := Prod.mk.inj (Option.some.inj hReport)
      have hRun : settings.generate .identity w = (run.1, .ok report) := Prod.ext rfl hOutcome
      obtain ⟨selected, independent, hSelected, hEach, -⟩ := generate_allOrNothing rfl hRun
      rw [hPlan] at hSelected
      cases hSelected
      have hApart : ∀ target target',
          settings.outputPath target "plot" ≠ settings.outputPath target' "ui" := by
        intro target target'
        cases target <;> cases target' <;> decide +kernel
      refine ⟨report, rfl, hProcessed, hFailures, hEach plot ?_ ?_, hEach ui ?_ ?_⟩
      · exact List.mem_cons_self
      · exact List.forall_mem_cons.mpr
          ⟨fun hName => absurd rfl hName, List.forall_mem_singleton.mpr fun _ => hApart⟩
      · exact List.mem_cons_of_mem _ List.mem_cons_self
      · refine List.forall_mem_cons.mpr
          ⟨?_, List.forall_mem_singleton.mpr fun hName => absurd rfl hName⟩
        exact fun _ target target' => (hApart target' target).symm

end CommBindings
