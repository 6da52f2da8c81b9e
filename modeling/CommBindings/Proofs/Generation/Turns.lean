import CommBindings.Proofs.Generation.Documents
import CommBindings.Proofs.Generation.Outcomes
import CommBindings.Proofs.Workspace.Independence

set_option autoImplicit false

/-! # A comm's turn does not depend on the others

While the comms of a run have their turns, the workspace only gets *later* (`Settings.Later`): the
documents stay the same, and so does all that matters on the ways to the output directories. In two
later workspaces the work on a comm comes to the same (`process_alike`), but for the error that
names an output directory that cannot be made. So each comm of a run has a turn like the one it has
in any other run (`processAll_turn`).
-/

namespace CommBindings

open Outputs Workspace

variable {settings : Settings} {formatter : Formatter}

/-! ## The ways to the output directories -/

/-- The output directories of a run. -/
def Settings.outputDirs (settings : Settings) : List Path := Target.all.map settings.outputDir

/-- No file of the comm, and none staged for it, is on the way to an output directory or in its
place. -/
def Settings.KeepsWays (settings : Settings) (name : String) : Prop :=
  ∀ target, ∀ front ∈ (settings.outputDir target).fronts, settings.Outside name front.place

theorem outside_of_onWay {name : String} (h : settings.KeepsWays name) {q : Place}
    (hq : OnWay settings.outputDirs q) : settings.Outside name q := by
  obtain ⟨dir, hDir, front, hFront, rfl⟩ := hq
  obtain ⟨target, -, rfl⟩ := List.mem_map.mp hDir
  exact h target front hFront

theorem isClear_outputPath {name : String} (h : settings.KeepsWays name) (target : Target) :
    IsClear settings.outputDirs (settings.outputPath target name) where
  named := by
    rw [outputPath_name]
    exact outputName_ne target name
  parent := by
    have hDir : (settings.outputPath target name).parent = settings.outputDir target := by
      apply Path.parent_snoc
      intro hDouble
      apply (outputName_ne target name).1
      rw [← outputPath_name settings target name, Path.name, Settings.outputPath, Path.child,
        hDouble]
      rfl
    rw [hDir]
    exact List.mem_map_of_mem (mem_all target)
  place := fun hq => (outside_of_onWay h hq target).1 rfl
  staging := fun hq => (outside_of_onWay h hq target).2 rfl

theorem map_stagingPlace {name : String} {targets : List Target} {files : List GeneratedFile}
    (h : List.Forall₂ (settings.IsFileOf name) targets files) :
    (files.map GeneratedFile.file).map (fun f => stagingPlace f.path) =
      targets.map fun target => stagingPlace (settings.outputPath target name) := by
  induction h with
  | nil => rfl
  | cons hFirst _ ih => rw [List.map_cons, List.map_cons, List.map_cons, hFirst.2.2, ih]

/-- The files of a comm can be written together. -/
theorem areClear_rendition {w : Workspace} {d : CommDocuments} {rendition : Rendition}
    (h : settings.KeepsWays d.name) (hOk : settings.rendition formatter w d = .ok rendition) :
    AreClear settings.outputDirs (rendition.files.map GeneratedFile.file) where
  each := by
    intro f hf
    obtain ⟨target, hPath⟩ := rendition_paths hOk f hf
    rw [hPath]
    exact isClear_outputPath h target
  apart := rendition_apart hOk
  nodup := by
    rw [map_stagingPlace (rendition_files hOk)]
    refine List.Nodup.map_on ?_ (by decide)
    intro target _ other _ hSame
    -- the last three characters of the name tell the target
    have hName := congrArg (fun p => lastThree p.name) (outputPath_staging_inj settings hSame)
    simp only [outputPath_name, lastThree_outputName] at hName
    revert hName
    cases target <;> cases other <;> decide

/-! ## Later workspaces -/

/-- What the comms of a run can have made of a workspace: it has the same documents, and on the ways
to the output directories nothing but directories is new. -/
structure Settings.Later (settings : Settings) (w v : Workspace) : Prop where
  documents : KeepsDocuments w v
  continues : Continues settings.outputDirs w v

theorem later_refl (settings : Settings) (w : Workspace) : settings.Later w w where
  documents := KeepsDocuments.refl w
  continues := Continues.refl _ w

/-- What the work on a comm comes to that has been rendered, from how the writing ended. -/
def Rendition.written (rendition : Rendition) : Except FileError Unit → Outcome
  | .ok _ => .ok rendition
  | .error error => .error (.file error)

theorem process_of_rendition (hWrites : settings.checkOnly = false) {w : Workspace}
    {d : CommDocuments} {rendition : Rendition}
    (hOk : settings.rendition formatter w d = .ok rendition) :
    settings.process formatter w d =
      ((write w (rendition.files.map GeneratedFile.file)).1,
        rendition.written (write w (rendition.files.map GeneratedFile.file)).2) := by
  unfold Settings.process
  rw [hOk]
  simp only [hWrites, Bool.false_eq_true, if_false]
  cases write w (rendition.files.map GeneratedFile.file) with
  | mk w' outcome => cases outcome <;> rfl

theorem process_of_rendition_error {w : Workspace} {d : CommDocuments} {fault : Fault}
    (h : settings.rendition formatter w d = .error fault) :
    settings.process formatter w d = (w, .error fault) := by
  rw [Settings.process, h]

/-- After a comm's turn the workspace is later. -/
theorem later_process {w v : Workspace} {d : CommDocuments} (hWays : settings.KeepsWays d.name)
    (h : settings.Later w v) : settings.Later w (settings.process formatter v d).1 := by
  cases hCheck : settings.checkOnly with
  | true =>
      rw [process_checkOnly hCheck]
      exact h
  | false =>
      refine ⟨h.documents.trans (process_kept formatter hCheck v d), h.continues.trans ?_⟩
      cases hRendition : settings.rendition formatter v d with
      | error fault =>
          rw [process_of_rendition_error hRendition]
          exact Continues.refl _ v
      | ok rendition =>
          rw [process_of_rendition hCheck hRendition]
          exact continues_write (areClear_rendition hWays hRendition) v

/-! ## Outcomes that are alike -/

/-- The two faults are the same, or they are those of two attempts at making one output
directory. -/
def Settings.AlikeFaults (settings : Settings) (w : Workspace) (fault fault' : Fault) : Prop :=
  fault' = fault ∨ ∃ target error error', fault = .file error ∧ fault' = .file error' ∧
    w.FailsToMake (settings.outputDir target) error ∧
      w.FailsToMake (settings.outputDir target) error'

/-- Both outcomes are the same success, or failures with faults that are alike. -/
inductive Settings.AlikeOutcomes (settings : Settings) (w : Workspace) : Outcome → Outcome → Prop
  where
  | ok (rendition : Rendition) : AlikeOutcomes settings w (.ok rendition) (.ok rendition)
  | error {fault fault' : Fault} (h : settings.AlikeFaults w fault fault') :
    AlikeOutcomes settings w (.error fault) (.error fault')

theorem alikeOutcomes_refl (w : Workspace) (outcome : Outcome) :
    settings.AlikeOutcomes w outcome outcome := by
  cases outcome with
  | error fault => exact .error (Or.inl rfl)
  | ok rendition => exact .ok rendition

theorem isReported_congr {w : Workspace} {fault fault' : Fault}
    (h : settings.AlikeFaults w fault fault') : fault'.isReported = fault.isReported := by
  rcases h with rfl | ⟨target, error, error', rfl, rfl, hFails, hFails'⟩
  · rfl
  · exact (isFound_of_failsToMake hFails hFails').symm

theorem unreported?_error {fault : Fault} :
    Settings.unreported? (.error fault) = none ↔ fault.isReported = true := by
  rw [Settings.unreported?]
  split
  · next h => exact iff_of_true rfl h
  · next h => exact iff_of_false (Option.some_ne_none _) h

/-- An outcome is reported if one that is alike is. -/
theorem unreported?_congr {w : Workspace} {outcome outcome' : Outcome}
    (h : settings.AlikeOutcomes w outcome outcome')
    (hReported : Settings.unreported? outcome = none) : Settings.unreported? outcome' = none := by
  cases h with
  | ok rendition => rfl
  | error hFaults =>
      rw [unreported?_error, isReported_congr hFaults]
      exact unreported?_error.mp hReported

/-- The outcome of the work on a comm is that of writing its files. -/
theorem alikeOutcomes_of_write {w : Workspace} {rendition : Rendition}
    {outcome outcome' : Except FileError Unit}
    (h : AlikeOutcome settings.outputDirs w outcome outcome') :
    settings.AlikeOutcomes w (rendition.written outcome) (rendition.written outcome') := by
  rcases h with rfl | ⟨dir, hDir, error, error', rfl, rfl, hFails, hFails'⟩
  · exact alikeOutcomes_refl w _
  · obtain ⟨target, -, rfl⟩ := List.mem_map.mp hDir
    exact .error (Or.inr ⟨target, error, error', rfl, rfl, hFails, hFails'⟩)

/-- **The work on a comm comes to the same in two later workspaces**: the outcomes are alike, and
wherever the files were the same they are again. -/
theorem process_alike {w v v' : Workspace} {d : CommDocuments}
    (hDir : w.isDirectory settings.commsDir = .ok true) (hIn : d.IsIn w settings.commsDir)
    (hWays : settings.KeepsWays d.name) (h : settings.Later w v) (h' : settings.Later w v') :
    settings.AlikeOutcomes w (settings.process formatter v d).2
        (settings.process formatter v' d).2 ∧
      ∀ q, v'.file? q = v.file? q →
        (settings.process formatter v' d).1.file? q =
          (settings.process formatter v d).1.file? q := by
  have hSame : settings.rendition formatter v' d = settings.rendition formatter v d := by
    rw [rendition_kept h.documents hDir hIn, rendition_kept h'.documents hDir hIn]
  cases hCheck : settings.checkOnly with
  | true =>
      rw [process_checkOnly hCheck, process_checkOnly hCheck, hSame]
      exact ⟨alikeOutcomes_refl w _, fun q hq => hq⟩
  | false =>
      cases hRendition : settings.rendition formatter v d with
      | error fault =>
          rw [process_of_rendition_error hRendition,
            process_of_rendition_error (hSame.trans hRendition)]
          exact ⟨alikeOutcomes_refl w _, fun q hq => hq⟩
      | ok rendition =>
          have hWrite := write_alike (areClear_rendition hWays hRendition) h.continues h'.continues
          rw [process_of_rendition hCheck hRendition,
            process_of_rendition hCheck (hSame.trans hRendition)]
          exact ⟨alikeOutcomes_of_write hWrite.outcome, hWrite.same⟩

/-! ## All comms -/

/-- Where every turn in a later workspace comes to a reported outcome, so do all of them in a
run. -/
theorem processAll_reportedLater {w v : Workspace} {order : List CommDocuments} (independent : Bool)
    (hWays : ∀ d ∈ order, settings.KeepsWays d.name) (h : settings.Later w v)
    (hReported : ∀ d ∈ order, ∀ u, settings.Later w u →
      Settings.unreported? (settings.process formatter u d).2 = none) :
    ∀ entry ∈ (settings.processAll formatter independent v order).2,
      Settings.unreported? entry.2 = none := by
  induction order generalizing v with
  | nil => exact List.forall_mem_nil _
  | cons first rest ih =>
      obtain ⟨hWaysFirst, hWaysRest⟩ := List.forall_mem_cons.mp hWays
      obtain ⟨hFirst, hRest⟩ := List.forall_mem_cons.mp hReported
      rw [processAll_cons (hFirst v h)]
      exact List.forall_mem_cons.mpr
        ⟨hFirst v h, ih hWaysRest (later_process hWaysFirst h) hRest⟩

/-- **Each comm of a run has its turn in a later workspace.** At a place that is none of another
comm's, its turn starts with what was there before the run and leaves what is there after it. -/
theorem processAll_turn {w v : Workspace} {order : List CommDocuments} {independent : Bool}
    (hWays : ∀ d ∈ order, settings.KeepsWays d.name)
    (hNodup : (order.map CommDocuments.name).Nodup) (h : settings.Later w v)
    (hReported : ∀ entry ∈ (settings.processAll formatter independent v order).2,
      Settings.unreported? entry.2 = none)
    {d : CommDocuments} (hd : d ∈ order) :
    ∃ u, settings.Later w u ∧ (d.name, (settings.process formatter u d).2) ∈
        (settings.processAll formatter independent v order).2 ∧
      ∀ q, (∀ other ∈ order, other.name ≠ d.name → settings.Outside other.name q) →
        u.file? q = v.file? q ∧ (settings.processAll formatter independent v order).1.file? q =
          (settings.process formatter u d).1.file? q := by
  induction order generalizing v with
  | nil => exact absurd hd List.not_mem_nil
  | cons first rest ih =>
      obtain ⟨hWaysFirst, hWaysRest⟩ := List.forall_mem_cons.mp hWays
      rw [List.map_cons, List.nodup_cons] at hNodup
      have hFirst := hReported _ (processAll_head (Prod.eta _).symm)
      rw [processAll_cons hFirst] at hReported ⊢
      have hRest := fun entry hEntry => hReported entry (List.mem_cons_of_mem _ hEntry)
      rcases List.mem_cons.mp hd with rfl | hLater
      · -- it is the comm's turn now, and the comms after it leave the place alone
        refine ⟨v, h, List.mem_cons_self, fun q hq => ⟨rfl, ?_⟩⟩
        refine processAll_outside independent rest _ fun other hOther => ?_
        refine hq other (List.mem_cons_of_mem _ hOther) fun hSame => hNodup.1 ?_
        rw [← hSame]
        exact List.mem_map_of_mem hOther
      · have hOther : first.name ≠ d.name := by
          intro hSame
          apply hNodup.1
          rw [hSame]
          exact List.mem_map_of_mem hLater
        obtain ⟨u, hLaterU, hMem, hFiles⟩ :=
          ih hWaysRest hNodup.2 (later_process hWaysFirst h) hRest hLater
        refine ⟨u, hLaterU, List.mem_cons_of_mem _ hMem, fun q hq => ?_⟩
        obtain ⟨hBefore, hAfter⟩ :=
          hFiles q fun other hMem => hq other (List.mem_cons_of_mem _ hMem)
        -- the first comm leaves the place alone
        exact ⟨hBefore.trans (process_outside v first (hq first List.mem_cons_self hOther)), hAfter⟩

end CommBindings
