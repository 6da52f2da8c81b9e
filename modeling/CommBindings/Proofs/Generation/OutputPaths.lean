import CommBindings.Generation.Report
import CommBindings.Proofs.Text.Ending
import CommBindings.Proofs.Workspace.Atomicity

set_option autoImplicit false

/-! # Where the files of a comm go

The name of a generated file depends on the name of the comm only, and its last three characters
tell the target. So the files of a comm, the places where they are staged and the contract
documents never meet (`outputPath_apart`, `outside_document`), and two comms share a place only if
they share a path (`outputPath_inj`).
-/

namespace CommBindings

open Outputs

/-! ## Names -/

/-- The name of the file of a target for a comm with a name. -/
def Target.outputName (target : Target) (name : String) : String :=
  match target with
  | .typeScript => "positron" ++ Naming.pascalCase name ++ "Comm.ts"
  | .rust => Naming.moduleName name ++ "_comm.rs"
  | .python => Naming.moduleName name ++ "_comm.py"

theorem Target.fileName_eq (target : Target) (comm : Comm) :
    target.fileName comm = target.outputName comm.name := by
  cases target with
  | typeScript => rfl
  | rust => rfl
  | python => rfl

/-- The last three characters of the files of a target, the last first. -/
def Target.extension : Target → List Char
  | .typeScript => ['s', 't', '.']
  | .rust => ['s', 'r', '.']
  | .python => ['y', 'p', '.']

theorem lastThree_outputName (target : Target) (name : String) :
    lastThree (target.outputName name) = target.extension := by
  cases target with
  | typeScript => exact lastThree_append _ _ (by decide)
  | rust => exact lastThree_append _ _ (by decide)
  | python => exact lastThree_append _ _ (by decide)

theorem outputName_ne (target : Target) (name : String) :
    target.outputName name ≠ "" ∧ target.outputName name ≠ ".." := by
  constructor
  · apply ne_of_lastThree
    rw [lastThree_outputName]
    cases target <;> decide
  · apply ne_of_lastThree
    rw [lastThree_outputName]
    cases target <;> decide

theorem lastThree_staged (name : String) : lastThree (name ++ ".tmp") = ['p', 'm', 't'] :=
  lastThree_append _ _ (by decide)

/-- The name of a document is that of its comm, with the direction and an ending after it. -/
theorem document_name {name comm : String} {direction : Direction}
    (h : Discovery.classify? name = some (comm, direction)) :
    ∃ ending ∈ Discovery.endings, name = comm ++ ("-" ++ direction.word ++ ending) := by
  unfold Discovery.classify? at h
  split at h
  · cases h
  · obtain ⟨d, -, hComm⟩ := List.exists_of_findSome?_eq_some h
    obtain ⟨found, hFound, hTold⟩ := Option.map_eq_some_iff.mp hComm
    cases hTold
    obtain ⟨ending, hEnding, hBefore⟩ := List.exists_of_findSome?_eq_some hFound
    obtain ⟨before, hSome, rfl⟩ := Option.map_eq_some_iff.mp hBefore
    unfold Discovery.beforeEnding? at hSome
    split at hSome
    · next hSuffix =>
      rw [Bool.and_eq_true] at hSuffix
      obtain ⟨front, hName⟩ := List.isSuffixOf_iff_suffix.mp hSuffix.1
      have hFront : before = front := by
        rw [← Option.some.inj hSome, ← hName, List.length_append, Nat.add_sub_cancel,
          List.take_left]
      refine ⟨ending, hEnding, ?_⟩
      rw [hFront, ← String.toList_inj, String.toList_append, String.toList_ofList, hName]
    · cases hSome

theorem lastThree_document {name comm : String} {direction : Direction}
    (h : Discovery.classify? name = some (comm, direction)) :
    lastThree name ∈ Discovery.endings.map lastThree := by
  obtain ⟨ending, hEnding, rfl⟩ := document_name h
  have hLong : ∀ e ∈ Discovery.endings, 3 ≤ e.toList.length := by
    decide
  rw [← String.append_assoc, lastThree_append _ _ (hLong ending hEnding)]
  exact List.mem_map_of_mem hEnding

/-! ## Paths -/

/-- The path of the file of a target for a comm with a name. -/
def Settings.outputPath (settings : Settings) (target : Target) (name : String) : Path :=
  (settings.outputDir target).child (target.outputName name)

variable (settings : Settings)

theorem outputPath_name (target : Target) (name : String) :
    (settings.outputPath target name).name = target.outputName name := by
  rw [Path.name, Settings.outputPath, Path.child, List.getLast?_concat, Option.getD_some]

theorem outputPath_place (target : Target) (name : String) :
    (settings.outputPath target name).place =
      (settings.outputDir target).place ++ [target.outputName name] :=
  Path.place_child _ (outputName_ne target name).1 (outputName_ne target name).2

theorem outputPath_stagingPlace (target : Target) (name : String) :
    stagingPlace (settings.outputPath target name) =
      (settings.outputDir target).place ++ [target.outputName name ++ ".tmp"] := by
  rw [stagingPlace_eq, outputPath_name, Settings.outputPath, Path.child, List.dropLast_concat]

theorem last_eq_of_append {place other : Place} {name name' : String}
    (h : place ++ [name] = other ++ [name']) : name = name' :=
  List.singleton_inj.mp (List.append_inj' h rfl).2

/-- No file of a comm is staged where another one goes. -/
theorem outputPath_apart (target other : Target) (name name' : String) :
    (settings.outputPath target name).place ≠
      stagingPlace (settings.outputPath other name') := by
  rw [outputPath_place, outputPath_stagingPlace]
  intro h
  -- a staged name ends in `.tmp`, and no file of a target does
  have hLast := congrArg lastThree (last_eq_of_append h)
  rw [lastThree_outputName, lastThree_staged] at hLast
  revert hLast
  cases target <;> decide

/-- Two files of comms that go to one place have one path. -/
theorem outputPath_inj {target other : Target} {name name' : String}
    (h : (settings.outputPath target name).place = (settings.outputPath other name').place) :
    settings.outputPath target name = settings.outputPath other name' := by
  rw [outputPath_place, outputPath_place] at h
  have hName := last_eq_of_append h
  have hTarget : target = other := by
    have hLast := congrArg lastThree hName
    rw [lastThree_outputName, lastThree_outputName] at hLast
    revert hLast
    cases target <;> cases other <;> decide
  subst hTarget
  rw [Settings.outputPath, Settings.outputPath, hName]

/-- Two files of comms that are staged at one place have one path. -/
theorem outputPath_staging_inj {target other : Target} {name name' : String}
    (h : stagingPlace (settings.outputPath target name) =
      stagingPlace (settings.outputPath other name')) :
    settings.outputPath target name = settings.outputPath other name' := by
  rw [outputPath_stagingPlace, outputPath_stagingPlace] at h
  obtain ⟨hDir, hStaged⟩ := List.append_inj' h rfl
  have hName : target.outputName name = other.outputName name' := by
    have hChars := congrArg String.toList (List.singleton_inj.mp hStaged)
    rw [String.toList_append, String.toList_append] at hChars
    exact String.toList_inj.mp (List.append_cancel_right hChars)
  apply outputPath_inj
  rw [outputPath_place, outputPath_place, hDir, hName]

/-- A place that is neither a file of the comm nor staged for one. -/
def Settings.Outside (settings : Settings) (name : String) (q : Place) : Prop :=
  ∀ target, q ≠ (settings.outputPath target name).place ∧
    q ≠ stagingPlace (settings.outputPath target name)

/-- The place of a contract document is outside of what is written for any comm. -/
theorem outside_document {document comm : String} {direction : Direction}
    (h : Discovery.classify? document = some (comm, direction)) (directory : Place)
    (name : String) : settings.Outside name (directory ++ [document]) := by
  have hDocument := lastThree_document h
  intro target
  constructor
  · rw [outputPath_place]
    intro hPlace
    rw [last_eq_of_append hPlace, lastThree_outputName] at hDocument
    revert hDocument
    cases target <;> decide
  · rw [outputPath_stagingPlace]
    intro hPlace
    rw [last_eq_of_append hPlace, lastThree_staged] at hDocument
    revert hDocument
    decide

/-- A file of a comm is outside of what is written for a comm with other paths. -/
theorem outside_output {name other : String} {target : Target}
    (h : ∀ target', settings.outputPath target name ≠ settings.outputPath target' other) :
    settings.Outside other (settings.outputPath target name).place :=
  fun target' =>
    ⟨fun hPlace => h target' (outputPath_inj settings hPlace),
      outputPath_apart settings target target' name other⟩

/-- What is staged for a comm is outside of a comm with other paths. -/
theorem outside_staging {name other : String} {target : Target}
    (h : ∀ target', settings.outputPath target name ≠ settings.outputPath target' other) :
    settings.Outside other (stagingPlace (settings.outputPath target name)) :=
  fun target' =>
    ⟨fun hPlace => outputPath_apart settings target' target other name hPlace.symm,
      fun hPlace => h target' (outputPath_staging_inj settings hPlace)⟩

end CommBindings
