import CommBindings.Proofs.Generation.Turns
import CommBindings.Proofs.Generation.UpToDate

set_option autoImplicit false

/-! # Generating again

Where a comm's turn succeeded, its files can be read, so all paths on the ways to the output
directories are directories by then, and no file of the comm and none staged for it is among them
(`keepsWays_of_ok`). So a second turn finds the same documents and a way to all of its files: it
comes to the same rendition, and the places of its files hold the same afterwards
(`process_again`). By induction this holds of all turns of a run, and a run that is repeated
reports the same and leaves everything as it is (`generate_idempotent`).
-/

namespace CommBindings

open Outputs Workspace

namespace Workspace

variable {w : Workspace}

/-- A way goes through directories, up to its last name. -/
theorem hasDirectory_of_walkFrom {names rest : List String} {name : String} {place q : Place}
    (h : w.walkFrom place (names ++ name :: rest) = .ok q) :
    w.HasDirectory (names.foldl Path.descend place) := by
  induction names generalizing place with
  | nil =>
      rw [List.nil_append, walkFrom] at h
      split at h
      · cases h
      · next inside hEnter => exact (enter_ok_iff.mp hEnter).1
  | cons first names ih =>
      rw [List.cons_append, walkFrom] at h
      split at h
      · cases h
      · next inside hEnter =>
        obtain ⟨-, -, hNext⟩ := enter_ok_iff.mp hEnter
        rw [List.foldl_cons, ← hNext]
        exact ih h

theorem hasDirectory_front {p front : Path} {name : String} {q : Place}
    (h : w.walk (p.child name) = .ok q) (hFront : front ∈ p.fronts) :
    w.HasDirectory front.place := by
  obtain ⟨rest, hNames⟩ := Path.mem_fronts.mp hFront
  have hWalk := walk_eq_walkFrom h
  rw [Path.child, ← hNames, List.append_assoc] at hWalk
  cases rest with
  | nil => exact hasDirectory_of_walkFrom hWalk
  | cons next rest => exact hasDirectory_of_walkFrom hWalk

/-- Two workspaces with the same directories and the same files are the same at each place. -/
theorem SameDirectories.entry_eq {w' : Workspace} (h : SameDirectories w w') {q : Place}
    (hFile : w'.file? q = w.file? q) : w'.entry? q = w.entry? q := by
  by_cases hDir : w.HasDirectory q
  · have hDir' : w'.HasDirectory q := (h q).mpr hDir
    exact Eq.trans hDir' (Eq.symm hDir)
  · have hDir' : ¬ w'.HasDirectory q := fun hMade => hDir ((h q).mp hMade)
    rw [entry?_of_not_directory hDir, entry?_of_not_directory hDir', hFile]

end Workspace

namespace Outputs

/-- Where files were written, no directory stands at a place where one of them was staged. -/
theorem not_hasDirectory_staging {w w' : Workspace} {files : List OutputFile}
    (h : write w files = (w', .ok ())) :
    ∀ f ∈ files, ¬ w'.HasDirectory (stagingPlace f.path) := by
  obtain ⟨staged, failed, hBegun, hStages, hOk⟩ := stage_spec w files
  have hDirs := write_sameDirectories w files
  rw [h] at hDirs
  cases hStage : stage w files with
  | mk w₁ result =>
    obtain ⟨begun, staging⟩ := result
    rw [hStage] at hBegun hStages hOk hDirs
    cases staging with
    | error error =>
        rw [write, hStage] at h
        simp only at h
        split at h <;> cases h
    | ok done =>
        obtain ⟨hAll, -, -⟩ := stage_ok hStage
        have hStaged : staged = files.map OutputFile.path := by
          rw [← hAll, show begun = staged ++ failed from hBegun, hOk rfl, List.append_nil]
        intro f hf hDir
        -- where it was staged there was a file then, and no directory was made since
        have hOpen := hStages.isOpen f.path (hStaged ▸ List.mem_map_of_mem hf)
        exact hOpen.notDirectory ((hDirs _).mp hDir)

end Outputs

variable {settings : Settings} {formatter : Formatter} {w v v' : Workspace} {d : CommDocuments}
  {rendition : Rendition}

/-! ## One comm -/

/-- A turn that succeeded has rendered the files and has written them. -/
theorem write_of_process_ok (hWrites : settings.checkOnly = false)
    (hOk : (settings.process formatter v d).2 = .ok rendition) :
    settings.rendition formatter v d = .ok rendition ∧
      write v (rendition.files.map GeneratedFile.file) =
        ((settings.process formatter v d).1, .ok ()) := by
  cases hRendition : settings.rendition formatter v d with
  | error fault =>
      rw [process_of_rendition_error hRendition] at hOk
      cases hOk
  | ok found =>
      rw [process_of_rendition hWrites hRendition] at hOk ⊢
      cases hWrite : (write v (found.files.map GeneratedFile.file)).2 with
      | error error =>
          rw [hWrite] at hOk
          cases hOk
      | ok done =>
          rw [hWrite] at hOk
          cases hOk
          exact ⟨rfl, Prod.ext rfl hWrite⟩

theorem written_of_process_ok (hWrites : settings.checkOnly = false)
    (hOk : (settings.process formatter v d).2 = .ok rendition) :
    Written v (settings.process formatter v d).1 (rendition.files.map GeneratedFile.file) := by
  obtain ⟨hRendition, hWrite⟩ := write_of_process_ok hWrites hOk
  exact written_of_write_ok (rendition_apart hRendition) hWrite

/-- A comm has a file for each target. -/
theorem exists_output (hOk : settings.rendition formatter v d = .ok rendition) (target : Target) :
    ∃ f ∈ rendition.files.map GeneratedFile.file, f.path = settings.outputPath target d.name := by
  obtain ⟨g, hg, -, -, hPath⟩ := exists_file (rendition_files hOk) target (mem_all target)
  exact ⟨g.file, List.mem_map_of_mem hg, hPath⟩

/-- After a turn that succeeded the ways to the output directories are made. -/
theorem hasDirectory_of_onWay (hWrites : settings.checkOnly = false)
    (hOk : (settings.process formatter v d).2 = .ok rendition) {q : Place}
    (hq : OnWay settings.outputDirs q) : (settings.process formatter v d).1.HasDirectory q := by
  obtain ⟨dir, hDir, front, hFront, rfl⟩ := hq
  obtain ⟨target, -, rfl⟩ := List.mem_map.mp hDir
  obtain ⟨f, hf, hPath⟩ := exists_output (write_of_process_ok hWrites hOk).1 target
  have hRead := (written_of_process_ok hWrites hOk).readable f hf
  rw [hPath] at hRead
  exact hasDirectory_front (read_ok hRead).1.walk hFront

/-- Where a comm's turn succeeded, none of its files is on the way to an output directory. -/
theorem keepsWays_of_ok (hWrites : settings.checkOnly = false)
    (hOk : (settings.process formatter v d).2 = .ok rendition) : settings.KeepsWays d.name := by
  obtain ⟨hRendition, hWrite⟩ := write_of_process_ok hWrites hOk
  intro target front hFront
  have hDir : (settings.process formatter v d).1.HasDirectory front.place :=
    hasDirectory_of_onWay hWrites hOk
      ⟨_, List.mem_map_of_mem (mem_all target), front, hFront, rfl⟩
  intro other
  obtain ⟨f, hf, hPath⟩ := exists_output hRendition other
  rw [← hPath]
  constructor
  · intro hPlace
    have hFile := (written_of_process_ok hWrites hOk).written f hf
    rw [← hPlace, file?_of_directory hDir] at hFile
    cases hFile
  · intro hPlace
    rw [hPlace] at hDir
    exact not_hasDirectory_staging hWrite f hf hDir

/-- The places of a comm's files hold what was rendered, and nothing stays staged. -/
theorem file?_of_not_outside {u u' : Workspace} {files : List OutputFile} {name : String}
    (hFiles : ∀ target, ∃ f ∈ files, f.path = settings.outputPath target name)
    (h : Written v u files) (h' : Written v' u' files) {q : Place}
    (hq : ¬ settings.Outside name q) : u'.file? q = u.file? q := by
  obtain ⟨target, hTarget⟩ := not_forall.mp hq
  obtain ⟨f, hf, hPath⟩ := hFiles target
  rw [← hPath] at hTarget
  by_cases hPlace : q = f.path.place
  · rw [hPlace, h.written f hf, h'.written f hf]
  · have hStaging : q = stagingPlace f.path := by
      by_contra hOther
      exact hTarget ⟨hPlace, hOther⟩
    rw [hStaging, h.cleared f hf, h'.cleared f hf]

theorem eq_ok_of_alike {outcome : Outcome} (h : settings.AlikeOutcomes w (.ok rendition) outcome) :
    outcome = .ok rendition := by
  cases h
  rfl

/-- **A turn that succeeded succeeds again in every later workspace**, with the same rendition. The
files of the comm hold the same again, whatever they held in between. -/
theorem process_again (hWrites : settings.checkOnly = false)
    (hDir : w.isDirectory settings.commsDir = .ok true) (hIn : d.IsIn w settings.commsDir)
    (h : settings.Later w v) (h' : settings.Later w v')
    (hOk : (settings.process formatter v d).2 = .ok rendition) :
    (settings.process formatter v' d).2 = .ok rendition ∧
      ∀ q, (settings.Outside d.name q → v'.file? q = v.file? q) →
        (settings.process formatter v' d).1.file? q =
          (settings.process formatter v d).1.file? q := by
  obtain ⟨hAlike, hSame⟩ := process_alike hDir hIn (keepsWays_of_ok hWrites hOk) h h'
  have hOk' : (settings.process formatter v' d).2 = .ok rendition := by
    rw [hOk] at hAlike
    exact eq_ok_of_alike hAlike
  refine ⟨hOk', fun q hq => ?_⟩
  by_cases hOutside : settings.Outside d.name q
  · exact hSame q (hq hOutside)
  · exact file?_of_not_outside (exists_output (write_of_process_ok hWrites hOk).1)
      (written_of_process_ok hWrites hOk) (written_of_process_ok hWrites hOk') hOutside

/-! ## All comms -/

variable {order : List CommDocuments} {independent : Bool}

/-- The outcomes are successes. -/
def AllOk (outcomes : List (String × Outcome)) : Prop :=
  ∀ entry ∈ outcomes, ∃ rendition, entry.2 = .ok rendition

/-- The first of several turns that all succeed is followed by the others. -/
theorem allOk_cons (h : AllOk (settings.processAll formatter independent v (d :: order)).2) :
    ∃ rendition, (settings.process formatter v d).2 = .ok rendition ∧
      settings.processAll formatter independent v (d :: order) =
        (let others := settings.processAll formatter independent
            (settings.process formatter v d).1 order
        (others.1, (d.name, .ok rendition) :: others.2)) ∧
      AllOk (settings.processAll formatter independent
        (settings.process formatter v d).1 order).2 := by
  obtain ⟨rendition, hFirst⟩ :
      ∃ rendition, (settings.process formatter v d).2 = .ok rendition :=
    h _ (processAll_head (Prod.eta _).symm)
  have hReported : Settings.unreported? (settings.process formatter v d).2 = none := by
    rw [hFirst]
    rfl
  have hTurns := @processAll_cons settings formatter independent v d order hReported
  rw [hTurns] at h
  simp only [hFirst] at hTurns
  exact ⟨rendition, hFirst, hTurns, fun entry hEntry => h entry (List.mem_cons_of_mem _ hEntry)⟩

/-- After turns that all succeed the workspace is later. -/
theorem later_processAll (hWrites : settings.checkOnly = false)
    (hOk : AllOk (settings.processAll formatter independent v order).2)
    (h : settings.Later w v) :
    settings.Later w (settings.processAll formatter independent v order).1 := by
  induction order generalizing v with
  | nil => exact h
  | cons first rest ih =>
      obtain ⟨rendition, hFirst, hTurns, hRest⟩ := allOk_cons hOk
      rw [hTurns]
      exact ih hRest (later_process (keepsWays_of_ok hWrites hFirst) h)

/-- **Turns that all succeed come to the same in every later workspace.** The files are the same
afterwards if they were before, but for those of the comms. -/
theorem processAll_again (hWrites : settings.checkOnly = false)
    (hDir : w.isDirectory settings.commsDir = .ok true)
    (hIn : ∀ d ∈ order, d.IsIn w settings.commsDir)
    (h : settings.Later w v) (h' : settings.Later w v')
    (hOk : AllOk (settings.processAll formatter independent v order).2) :
    (settings.processAll formatter independent v' order).2 =
        (settings.processAll formatter independent v order).2 ∧
      ∀ q, ((∀ d ∈ order, settings.Outside d.name q) → v'.file? q = v.file? q) →
        (settings.processAll formatter independent v' order).1.file? q =
          (settings.processAll formatter independent v order).1.file? q := by
  induction order generalizing v v' with
  | nil => exact ⟨rfl, fun q hq => hq (List.forall_mem_nil _)⟩
  | cons first rest ih =>
      obtain ⟨hInFirst, hInRest⟩ := List.forall_mem_cons.mp hIn
      obtain ⟨rendition, hFirst, hTurns, hRest⟩ := allOk_cons hOk
      obtain ⟨hFirst', hSame⟩ := process_again hWrites hDir hInFirst h h' hFirst
      have hWays := keepsWays_of_ok hWrites hFirst
      obtain ⟨hOutcomes, hFiles⟩ :=
        ih hInRest (later_process hWays h) (later_process hWays h') hRest
      have hTurns' : settings.processAll formatter independent v' (first :: rest) = _ :=
        processAll_cons (by rw [hFirst']; rfl)
      rw [hTurns, hTurns']
      refine ⟨?_, fun q hq => ?_⟩
      · show _ :: _ = _ :: _
        rw [hFirst', hOutcomes]
      · -- what neither the first comm nor the others write was the same before
        refine hFiles q fun hOthers => hSame q fun hOutside => hq ?_
        exact List.forall_mem_cons.mpr ⟨hOutside, hOthers⟩

/-- Repeating turns that all succeed makes no directory. -/
theorem processAll_sameDirectories (hWrites : settings.checkOnly = false)
    (hEnd : (settings.processAll formatter independent v order).1 = v')
    (hOk : AllOk (settings.processAll formatter independent v order).2)
    (hOk' : AllOk (settings.processAll formatter independent v' order).2) :
    SameDirectories v' (settings.processAll formatter independent v' order).1 := by
  have hLater := later_processAll hWrites hOk' (later_refl settings v')
  intro q
  refine ⟨fun hDir => ?_, hLater.continues.keeps q⟩
  by_cases hq : OnWay settings.outputDirs q
  · -- the ways to the output directories were made in the first turn, if there was one
    cases order with
    | nil => exact hDir
    | cons first rest =>
        obtain ⟨rendition, hFirst, hTurns, -⟩ := allOk_cons hOk
        rw [← hEnd, hTurns]
        exact (processAll_kept formatter hWrites independent rest _).directories q
          (hasDirectory_of_onWay hWrites hFirst hq)
  · exact hLater.continues.made q hq hDir

/-- **Generating again comes to the same.** After a run that wrote everything, a run with the same
settings gives the same report and leaves at each place of the workspace what stood there. -/
theorem generate_idempotent {settings : Settings} {formatter : Formatter} {w w' : Workspace}
    {report : Report} (hWrites : settings.checkOnly = false)
    (h : settings.generate formatter w = (w', .ok report)) (hOk : report.isOk = true) :
    (settings.generate formatter w').2 = .ok report ∧
      ∀ place, Workspace.entry? (settings.generate formatter w').1 place = w'.entry? place := by
  obtain ⟨selected, independent, outcomes, hPlan, hAll, hReported⟩ := generate_ok h
  have hReport : { Report.ofOutcomes outcomes with stale := [] } = report := by
    rw [generate_of_writes hWrites hPlan hAll hReported] at h
    exact Except.ok.inj (Prod.mk.inj h).2
  subst hReport
  have hSuccess : AllOk outcomes := by
    rw [Report.isOk, Bool.and_eq_true, List.isEmpty_iff] at hOk
    exact failures_eq_nil_iff.mp hOk.1
  obtain ⟨hDir, hIn⟩ := isIn_plan hPlan
  have hEnd : (settings.processAll formatter independent w selected).1 = w' := by
    rw [hAll]
  have hTurns : AllOk (settings.processAll formatter independent w selected).2 := by
    rw [hAll]
    exact hSuccess
  have hLater : settings.Later w w' := by
    rw [← hEnd]
    exact later_processAll hWrites hTurns (later_refl settings w)
  obtain ⟨hSame, hFiles⟩ :=
    processAll_again hWrites hDir hIn (later_refl settings w) hLater hTurns
  have hTurns' : AllOk (settings.processAll formatter independent w' selected).2 := by
    rw [hSame]
    exact hTurns
  -- what is planned does not depend on whether the run only checks
  have hPlan' : settings.plan w' = .ok (selected, independent) :=
    plan_checking hLater.documents hPlan
  have hAll' : settings.processAll formatter independent w' selected =
      ((settings.processAll formatter independent w' selected).1, outcomes) := by
    rw [hAll] at hSame
    exact Prod.ext rfl hSame
  rw [generate_of_writes hWrites hPlan' hAll' hReported]
  refine ⟨rfl, fun place => ?_⟩
  refine SameDirectories.entry_eq (processAll_sameDirectories hWrites hEnd hTurns hTurns') ?_
  rw [hFiles place, hEnd]
  -- a place where no comm writes was left alone by the first run
  intro hOutside
  rw [← hEnd]
  exact processAll_outside independent selected w hOutside

/-- A comm with one method is written twice. -/
theorem idempotent_oneMethod :
    let w := loneWorkspace
      "\x7b\"methods\": [\x7b\"name\": \"a\", \"summary\": \"s\", \"description\": \"d\"\x7d]\x7d"
    let run := loneSettings.generate .identity w
    let again := loneSettings.generate .identity run.1
    ∃ report, run.2 = .ok report ∧ report.isOk = true ∧ report.processed = ["ui"] ∧
      again.2 = .ok report ∧
        ∀ place, Workspace.entry? again.1 place = Workspace.entry? run.1 place := by
  intro w run again
  have hOk : (loneSettings.process .identity w loneDocuments).2.isOk = true := by
    decide +kernel
  cases hTurn : (loneSettings.process .identity w loneDocuments).2 with
  | error fault =>
      rw [hTurn] at hOk
      cases hOk
  | ok rendition =>
      have hRun : run = (_, .ok _) := generate_lone hTurn
      have hEnd := congrArg Prod.fst hRun
      obtain ⟨hReport, hPlaces⟩ := generate_idempotent rfl hRun rfl
      rw [← show run.1 = _ from hEnd] at hReport hPlaces
      exact ⟨_, congrArg Prod.snd hRun, rfl, rfl, hReport, hPlaces⟩

end CommBindings
