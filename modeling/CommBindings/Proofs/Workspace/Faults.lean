import CommBindings.Proofs.Workspace.Contents
import CommBindings.Proofs.Results

set_option autoImplicit false

/-! # Failures that are found in the workspace

An operation on a path that holds no NUL fails only for what it finds in the workspace, never for
the path itself. So does the writing of several files together (`write_found`), for it works on
their paths, on the directories above them and on the paths beside them at which they are staged.
-/

namespace CommBindings

/-- If the operation fails, it does so for what it found in the workspace. -/
abbrev FailsFound {α : Type} (x : Except FileError α) : Prop :=
  FailsWith (fun error => error.isFound = true) x

theorem isFound_of_ne {cause : FileCause} (h : cause ≠ .noPath) (path : Path)
    (target : Option Path) : (⟨cause, path, target⟩ : FileError).isFound = true :=
  decide_eq_true h

namespace Path

theorem holdsNul_eq_false_iff {p : Path} :
    p.holdsNul = false ↔ ∀ name ∈ p.names, '\x00' ∉ name.toList := by
  simp [holdsNul]

theorem holdsNul_parent {p : Path} (h : p.holdsNul = false) : p.parent.holdsNul = false := by
  unfold parent
  split
  · exact h
  · rw [holdsNul_eq_false_iff] at h ⊢
    exact fun name hName => h name (List.mem_of_mem_dropLast hName)

theorem holdsNul_child {p : Path} (h : p.holdsNul = false) {name : String}
    (hName : '\x00' ∉ name.toList) : (p.child name).holdsNul = false := by
  rw [holdsNul_eq_false_iff] at h ⊢
  rw [child]
  exact List.forall_mem_append.mpr ⟨h, List.forall_mem_singleton.mpr hName⟩

theorem holdsNul_stagingPath {p : Path} (h : p.holdsNul = false) :
    (Outputs.stagingPath p).holdsNul = false := by
  rw [holdsNul_eq_false_iff] at h ⊢
  have hName : '\x00' ∉ p.name.toList := by
    rw [name]
    cases hLast : p.names.getLast? with
    | none => exact List.not_mem_nil
    | some last => exact h last (List.mem_of_getLast? hLast)
  rw [Outputs.stagingPath, withName]
  refine List.forall_mem_append.mpr ⟨fun name hName => h name (List.mem_of_mem_dropLast hName),
    List.forall_mem_singleton.mpr ?_⟩
  rw [String.toList_append, List.mem_append, not_or]
  exact ⟨hName, by decide⟩

end Path

namespace Workspace

/-! ## Operations on single paths -/

theorem enter_found {w : Workspace} {place : Place} {name : String} :
    FailsWith (fun cause => cause ≠ .noPath) (w.enter place name) := by
  unfold enter
  split
  · exact failsWith_error (by decide)
  · exact failsWith_error (by decide)
  · split
    · exact failsWith_error (by decide)
    · split
      · exact failsWith_ok _
      · split <;> exact failsWith_ok _

theorem walkFrom_found {w : Workspace} {place : Place} {names : List String} :
    FailsWith (fun cause => cause ≠ .noPath) (w.walkFrom place names) := by
  induction names generalizing place with
  | nil => exact failsWith_ok _
  | cons name rest ih =>
      rw [walkFrom]
      split
      · next cause hEnter => exact failsWith_error (enter_found cause hEnter)
      · exact ih

variable {w : Workspace} {p : Path}

theorem walk_found (h : p.holdsNul = false) :
    FailsWith (fun cause => cause ≠ .noPath) (w.walk p) := by
  rw [walk, h, if_neg Bool.false_ne_true]
  split
  · exact failsWith_error (by decide)
  · exact walkFrom_found

theorem locate_found (h : p.holdsNul = false) : FailsFound (w.locate p) := by
  unfold locate
  split
  · exact failsWith_ok _
  · next cause hWalk => exact failsWith_error (isFound_of_ne (walk_found h cause hWalk) p none)

theorem status_found (h : p.holdsNul = false) : FailsFound (w.status p) := by
  unfold status
  split
  · exact failsWith_ok _
  · next error hLocate =>
    split
    · exact failsWith_ok _
    · exact failsWith_ok _
    · exact failsWith_ok _
    · exact failsWith_error (locate_found h error hLocate)

theorem isDirectory_found (h : p.holdsNul = false) : FailsFound (w.isDirectory p) :=
  failsWith_map _ (status_found h)

theorem isFile_found (h : p.holdsNul = false) : FailsFound (w.isFile p) :=
  failsWith_map _ (status_found h)

theorem read_found (h : p.holdsNul = false) : FailsFound (w.read p) := by
  unfold read
  refine failsWith_bind (locate_found h) fun place _ => ?_
  split
  · exact failsWith_ok _
  · exact failsWith_error rfl
  · exact failsWith_error rfl

theorem write_found (h : p.holdsNul = false) (content : ByteArray) :
    FailsFound (w.write p content) := by
  unfold write
  refine failsWith_bind (locate_found h) fun place _ => ?_
  split
  · exact failsWith_error rfl
  · exact failsWith_ok _

theorem makeDirectory_found (h : p.holdsNul = false) : FailsFound (w.makeDirectory p) := by
  unfold makeDirectory
  refine failsWith_bind (locate_found h) fun place _ => ?_
  split
  · exact failsWith_error rfl
  · exact failsWith_ok _

theorem remove_found (h : p.holdsNul = false) : FailsFound (w.remove p) := by
  unfold remove
  refine failsWith_bind (locate_found h) fun place _ => ?_
  split
  · exact failsWith_ok _
  · exact failsWith_error rfl
  · exact failsWith_error rfl

theorem removeIfThere_found (h : p.holdsNul = false) : FailsFound (w.removeIfThere p) := by
  unfold removeIfThere
  split
  · exact failsWith_ok _
  · next error hRemove =>
    split
    · exact failsWith_ok _
    · exact failsWith_error (remove_found h error hRemove)

theorem move_found {target : Path} (h : p.holdsNul = false) (hTarget : target.holdsNul = false) :
    FailsFound (w.move p target) := by
  unfold move
  split
  · next cause hWalk =>
    exact failsWith_error (isFound_of_ne (walk_found h cause hWalk) p (some target))
  · next cause hWalk _ =>
    exact failsWith_error (isFound_of_ne (walk_found hTarget cause hWalk) p (some target))
  · split
    · exact failsWith_error rfl
    · split
      · exact failsWith_error rfl
      · exact failsWith_error rfl
      · exact failsWith_ok _

theorem acceptDirectory_found {error : FileError} (h : p.holdsNul = false)
    (hError : error.isFound = true) : FailsFound (w.acceptDirectory p error) := by
  unfold acceptDirectory
  refine failsWith_bind (isDirectory_found h) fun isThere _ => ?_
  split
  · exact failsWith_ok _
  · exact failsWith_error hError

theorem makeDirectories_found (h : p.holdsNul = false) :
    FailsFound (w.makeDirectories p).2 := by
  -- the attempts on the path itself and on those above it fail with what they find
  fun_induction w.makeDirectories p with
  | case1 => exact failsWith_ok _
  | case2 path error hError => exact failsWith_error (makeDirectory_found h error hError)
  | case3 path error hError hMissing hLower w' above hAbove ih =>
      have hFound := ih (Path.holdsNul_parent h)
      rw [hAbove] at hFound
      exact hFound
  | case4 => exact failsWith_ok _
  | case5 path error hError hMissing hLower w' made hAbove again hAgain =>
      exact failsWith_error (makeDirectory_found h again hAgain)
  | case6 path error hError hMissing hLower w' made hAbove again hAgain =>
      exact failsWith_map _ (acceptDirectory_found h (makeDirectory_found h again hAgain))
  | case7 path error hError =>
      exact failsWith_map _ (acceptDirectory_found h (makeDirectory_found h error hError))

end Workspace

namespace Outputs

open Workspace

/-! ## Writing files together -/

/-- Staging comes to targets of the files only. -/
theorem stage_begun (w : Workspace) (files : List OutputFile) :
    ∀ p ∈ (stage w files).2.1, p ∈ files.map OutputFile.path := by
  induction files generalizing w with
  | nil => exact fun p hp => hp
  | cons file rest ih =>
      rw [stage]
      split
      · exact fun p hp => absurd hp List.not_mem_nil
      · split
        · exact fun p hp => absurd hp List.not_mem_nil
        · split
          · exact List.forall_mem_singleton.mpr List.mem_cons_self
          · exact List.forall_mem_cons.mpr
              ⟨List.mem_cons_self, fun p hp => List.mem_cons_of_mem _ (ih _ p hp)⟩

theorem stage_found {files : List OutputFile} (w : Workspace)
    (h : ∀ f ∈ files, f.path.holdsNul = false ∧ f.path.name ≠ "") :
    FailsFound (stage w files).2.2 := by
  induction files generalizing w with
  | nil => exact failsWith_ok _
  | cons file rest ih =>
      obtain ⟨⟨hFile, hName⟩, hRest⟩ := List.forall_mem_cons.mp h
      have hParent := makeDirectories_found (w := w) (Path.holdsNul_parent hFile)
      rw [stage]
      split
      · next w₁ error hMade =>
        rw [hMade] at hParent
        exact hParent
      · rw [if_neg hName]
        split
        · next error hWrite =>
          exact failsWith_error (Workspace.write_found (Path.holdsNul_stagingPath hFile) _ _ hWrite)
        · exact ih _ hRest

theorem restore_found {w : Workspace} {p : Path} (h : p.holdsNul = false)
    (content : Option ByteArray) : FailsFound (restore w p content) := by
  cases content with
  | none => exact removeIfThere_found h
  | some content => exact Workspace.write_found h content

theorem rollBack_found {w : Workspace} {done : List (Path × Option ByteArray)}
    (h : ∀ e ∈ done, e.1.holdsNul = false) : FailsFound (rollBack w done).2 := by
  induction done generalizing w with
  | nil => exact failsWith_ok _
  | cons entry rest ih =>
      obtain ⟨hFirst, hRest⟩ := List.forall_mem_cons.mp h
      rw [rollBack]
      split
      · next error hRestore => exact failsWith_error (restore_found hFirst _ _ hRestore)
      · exact ih hRest

theorem replace_found {w : Workspace} {target : Path} (h : target.holdsNul = false) :
    FailsFound (replace w target) := by
  have hPrevious : FailsFound (previous w target) := by
    unfold previous
    refine failsWith_bind (isFile_found h) fun isThere _ => ?_
    split
    · exact failsWith_map _ (read_found h)
    · exact failsWith_ok _
  unfold replace
  refine failsWith_bind hPrevious fun content _ => ?_
  exact failsWith_bind (move_found (Path.holdsNul_stagingPath h) h) fun w' _ => failsWith_ok _

theorem replaceAll_found {w : Workspace} {done : List (Path × Option ByteArray)}
    {targets : List Path} (hDone : ∀ e ∈ done, e.1.holdsNul = false)
    (hTargets : ∀ t ∈ targets, t.holdsNul = false) : FailsFound (replaceAll w done targets).2 := by
  induction targets generalizing w done with
  | nil => exact failsWith_ok _
  | cons target rest ih =>
      obtain ⟨hTarget, hRest⟩ := List.forall_mem_cons.mp hTargets
      rw [replaceAll]
      split
      · next w₁ replaced hReplace =>
        refine ih (List.forall_mem_cons.mpr ⟨?_, hDone⟩) hRest
        unfold replace at hReplace
        obtain ⟨content, -, hReplace⟩ := bind_eq_ok.mp hReplace
        obtain ⟨w₂, -, hReplace⟩ := bind_eq_ok.mp hReplace
        cases hReplace
        exact hTarget
      · next error hReplace =>
        have hUndo := rollBack_found (w := w) hDone
        split
        · exact failsWith_error (replace_found hTarget error hReplace)
        · next w₁ worse hRollBack =>
          rw [hRollBack] at hUndo
          exact hUndo

theorem cleanUp_found {w : Workspace} {targets : List Path}
    (h : ∀ t ∈ targets, t.holdsNul = false) : FailsFound (cleanUp w targets).2 := by
  induction targets generalizing w with
  | nil => exact failsWith_ok _
  | cons target rest ih =>
      obtain ⟨hTarget, hRest⟩ := List.forall_mem_cons.mp h
      rw [cleanUp]
      split
      · next error hRemove =>
        exact failsWith_error
          (removeIfThere_found (Path.holdsNul_stagingPath hTarget) error hRemove)
      · exact ih hRest

/-- A failure of the whole is one of the staging, of the replacing or of the cleaning up. -/
theorem write_error {w : Workspace} {files : List OutputFile} {error : FileError}
    (h : (write w files).2 = .error error) :
    (stage w files).2.2 = .error error ∨
      (∃ w₁, (replaceAll w₁ [] (stage w files).2.1).2 = .error error) ∨
      ∃ w₁, (cleanUp w₁ (stage w files).2.1).2 = .error error := by
  unfold write at h
  cases hStage : stage w files with
  | mk w₁ staging =>
    obtain ⟨begun, staged⟩ := staging
    rw [hStage] at h
    simp only at h
    split at h
    · -- the cleaning up leaves an earlier failure as it is
      cases staged with
      | error stageError => exact Or.inl h
      | ok done => exact Or.inr (Or.inl ⟨w₁, h⟩)
    · next hClean => exact Or.inr (Or.inr ⟨_, (congrArg Prod.snd hClean).trans h⟩)

/-- Writing files at paths with names and without NUL fails only for what is found in the
workspace. -/
theorem write_found {files : List OutputFile} (w : Workspace)
    (h : ∀ f ∈ files, f.path.holdsNul = false ∧ f.path.name ≠ "") :
    FailsFound (write w files).2 := by
  have hBegun : ∀ p ∈ (stage w files).2.1, p.holdsNul = false := by
    intro p hp
    obtain ⟨f, hf, rfl⟩ := List.mem_map.mp (stage_begun w files p hp)
    exact (h f hf).1
  intro error hError
  rcases write_error hError with hStage | ⟨w₁, hReplace⟩ | ⟨w₁, hClean⟩
  · exact stage_found w h error hStage
  · exact replaceAll_found (List.forall_mem_nil _) hBegun error hReplace
  · exact cleanUp_found hBegun error hClean

end Outputs

end CommBindings
