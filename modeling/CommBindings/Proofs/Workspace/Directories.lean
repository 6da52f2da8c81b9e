import CommBindings.Proofs.Workspace.Atomicity

set_option autoImplicit false

/-! # No directory is lost

Writing files together makes directories and removes none (`write_directories`), whether it
succeeds or fails. So what could be walked before can be walked after it, and a file that is as it
was is still read at its path (`read_kept`).
-/

namespace CommBindings

namespace Workspace

/-- Every directory of the first workspace is one of the second. -/
def KeepsDirectories (w w' : Workspace) : Prop := ∀ q, w.HasDirectory q → w'.HasDirectory q

theorem KeepsDirectories.refl (w : Workspace) : KeepsDirectories w w := fun _ hDir => hDir

theorem KeepsDirectories.trans {w w' w'' : Workspace} (h : KeepsDirectories w w')
    (h' : KeepsDirectories w' w'') : KeepsDirectories w w'' := fun q hDir => h' q (h q hDir)

theorem SameDirectories.keeps {w w' : Workspace} (h : SameDirectories w w') :
    KeepsDirectories w w' := fun q => (h q).mpr

/-- A path that was open is open where a file stands at its place. -/
theorem IsOpen.kept {w w' : Workspace} (h : KeepsDirectories w w') {p : Path}
    (hOpen : w.IsOpen p) (hFile : (w'.file? p.place).isSome) : w'.IsOpen p where
  walk := walk_mono h hOpen.walk
  notDirectory := by
    intro hDir
    rw [file?_of_directory hDir] at hFile
    cases hFile

theorem read_ok {w : Workspace} {p : Path} {content : ByteArray} (h : w.read p = .ok content) :
    w.IsOpen p ∧ w.file? p.place = some content := by
  unfold read at h
  obtain ⟨place, hLocate, h⟩ := bind_eq_ok.mp h
  have hWalk : w.walk p = .ok place := locate_ok_iff.mp hLocate
  have hPlace : place = p.place := walk_place hWalk
  subst hPlace
  split at h
  · next found hEntry =>
    cases h
    refine ⟨⟨hWalk, fun hDir => ?_⟩, file?_eq_some_iff.mpr hEntry⟩
    rw [HasDirectory, hEntry] at hDir
    cases hDir
  · cases h
  · cases h

/-- A file that is as it was is still read at its path. -/
theorem read_kept {w w' : Workspace} (h : KeepsDirectories w w') {p : Path}
    (hFile : w'.file? p.place = w.file? p.place) {content : ByteArray}
    (hRead : w.read p = .ok content) : w'.read p = .ok content := by
  obtain ⟨hOpen, hContent⟩ := read_ok hRead
  rw [hContent] at hFile
  have hSome : (w'.file? p.place).isSome := by
    rw [hFile]
    rfl
  exact read_of_isOpen (hOpen.kept h hSome) hFile

theorem isDirectory_iff {w : Workspace} {p : Path} :
    w.isDirectory p = .ok true ↔ w.locate p = .ok p.place ∧ w.HasDirectory p.place := by
  rw [isDirectory, status, HasDirectory]
  cases hLocate : w.locate p with
  | error error =>
      -- where the way is blocked nothing is found, and nothing is no directory
      simp only
      split <;> simp [Except.map]
  | ok place =>
      have hPlace : place = p.place := walk_place (locate_ok_iff.mp hLocate)
      subst hPlace
      simp [Except.map]

theorem isDirectory_kept {w w' : Workspace} (h : KeepsDirectories w w') {p : Path}
    (hDir : w.isDirectory p = .ok true) : w'.isDirectory p = .ok true := by
  obtain ⟨hLocate, hHere⟩ := isDirectory_iff.mp hDir
  exact isDirectory_iff.mpr
    ⟨locate_ok_iff.mpr (walk_mono h (locate_ok_iff.mp hLocate)), h _ hHere⟩

theorem walkFrom_append {w : Workspace} (names : List String) (name : String) (place : Place) :
    w.walkFrom place (names ++ [name]) = (w.walkFrom place names).bind (w.enter · name) := by
  induction names generalizing place with
  | nil =>
      simp only [List.nil_append, walkFrom, Except.bind]
      cases w.enter place name <;> rfl
  | cons first rest ih =>
      rw [List.cons_append, walkFrom, walkFrom]
      cases w.enter place first with
      | error cause => rfl
      | ok next => exact ih next

/-- Whether there is a way to an entry of a directory depends on its name only. -/
theorem walk_child {w w' : Workspace} (h : KeepsDirectories w w') {p : Path}
    (hDir : w.isDirectory p = .ok true) (name : String) :
    w'.walk (p.child name) = w.walk (p.child name) := by
  obtain ⟨hLocate, hHere⟩ := isDirectory_iff.mp hDir
  obtain ⟨hLocate', hHere'⟩ := isDirectory_iff.mp (isDirectory_kept h hDir)
  have hEnter : w'.enter p.place name = w.enter p.place name := by
    unfold HasDirectory at hHere hHere'
    rw [enter, enter, hHere, hHere']
  rw [walk, walk, Path.child, walkFrom_append, walkFrom_append,
    walk_eq_walkFrom (locate_ok_iff.mp hLocate), walk_eq_walkFrom (locate_ok_iff.mp hLocate')]
  simp only [Except.bind, hEnter]

/-- An entry of a directory that is as it was is read, or cannot be read, as before. -/
theorem read_child_kept {w w' : Workspace} (h : KeepsDirectories w w') {p : Path}
    (hDir : w.isDirectory p = .ok true) {name : String}
    (hEntry : w'.entry? (p.child name).place = w.entry? (p.child name).place) :
    w'.read (p.child name) = w.read (p.child name) := by
  rw [read, read, locate, locate, walk_child h hDir name]
  cases hWalk : w.walk (p.child name) with
  | error cause => rfl
  | ok place =>
      have hPlace : place = (p.child name).place := walk_place hWalk
      subst hPlace
      simp only [bind, Except.bind, hEntry]

end Workspace

namespace Outputs

open Workspace

theorem stage_directories (w : Workspace) (files : List OutputFile) :
    KeepsDirectories w (stage w files).1 := by
  induction files generalizing w with
  | nil => exact KeepsDirectories.refl w
  | cons file rest ih =>
      have hMade : KeepsDirectories w (w.makeDirectories file.path.parent).1 :=
        fun q => (makeDirectories_grows w file.path.parent).directory
      rw [stage]
      cases hParent : w.makeDirectories file.path.parent with
      | mk w₁ outcome =>
        rw [hParent] at hMade
        cases outcome with
        | error error => exact hMade
        | ok made =>
            simp only
            split
            · exact hMade
            · cases hWrite : w₁.write (stagingPath file.path) (Utf8.encode file.content) with
              | error error => exact hMade
              | ok w₂ =>
                  obtain ⟨hOpen, rfl⟩ := write_ok hWrite
                  exact (hMade.trans (hOpen.sameDirectories_put _).keeps).trans (ih _)

/-- Once the files are staged, no directory is made or removed. -/
theorem write_sameDirectories (w : Workspace) (files : List OutputFile) :
    SameDirectories (stage w files).1 (write w files).1 := by
  obtain ⟨staged, failed, hBegun, hStages, hOk⟩ := stage_spec w files
  cases hStage : stage w files with
  | mk w₁ result =>
    obtain ⟨begun, staging⟩ := result
    rw [hStage] at hBegun hStages hOk
    simp only at hBegun
    subst hBegun
    cases staging with
    | error error =>
        obtain ⟨w₂, hClean, hDirs, -⟩ := cleanUp_append hStages.isOpen failed
        have hClosed : failed = [] ∨ ∃ p, failed = [p] ∧ ¬ w₂.IsOpen (stagingPath p) := by
          rcases hStages.closed with hNil | ⟨p, hFailed, hClosed⟩
          · exact Or.inl hNil
          · exact Or.inr ⟨p, hFailed, fun hOpen => hClosed (hDirs.symm.isOpen hOpen)⟩
        rw [write_of_stage_error hStage, hClean, cleanUp_failed hClosed]
        exact hDirs
    | ok done =>
        have hNil : failed = [] := hOk rfl
        subst hNil
        rw [List.append_nil] at hStage
        obtain ⟨w₂, hWrite, hSame, -⟩ := write_of_stage_ok hStage hStages.isOpen
        have hReplaced : SameDirectories w₁ (replaceAll w₁ [] staged).1 :=
          replaceAll_directories hStages.isOpen (by simp)
        rw [hWrite]
        exact hReplaced.trans hSame

/-- However the writing ends, no directory is removed. -/
theorem write_directories (w : Workspace) (files : List OutputFile) :
    KeepsDirectories w (write w files).1 :=
  (stage_directories w files).trans (write_sameDirectories w files).keeps

end Outputs

end CommBindings
