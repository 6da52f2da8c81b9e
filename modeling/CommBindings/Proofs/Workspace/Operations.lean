import CommBindings.Proofs.Results
import CommBindings.Proofs.Workspace.Contents

set_option autoImplicit false

/-! # The operations on single files

What walking a path depends on, and what each operation does to the directories and the files of a
workspace. Operations on files keep the directories (`SameDirectories`), and making directories
only fills places where nothing stood (`Grows`); both keep paths open.
-/

namespace CommBindings.Workspace

/-! ## Walking -/

theorem enter_ok_iff {w : Workspace} {place q : Place} {name : String} :
    w.enter place name = .ok q ↔
      w.HasDirectory place ∧ name.utf8ByteSize ≤ maxNameLength ∧ q = Path.descend place name := by
  rw [enter, HasDirectory]
  split
  · next h => simp [h]
  · next h => simp [h]
  · next h =>
    rw [h, Path.descend]
    by_cases hLong : name.utf8ByteSize > maxNameLength
    · rw [if_pos hLong]
      constructor
      · intro hOk
        cases hOk
      · rintro ⟨-, hShort, -⟩
        omega
    · rw [if_neg hLong]
      have hShort : name.utf8ByteSize ≤ maxNameLength := by omega
      split
      · simp [hShort, eq_comm]
      · split <;> simp [hShort, eq_comm]

theorem walkFrom_place {w : Workspace} {names : List String} {place q : Place}
    (h : w.walkFrom place names = .ok q) : q = names.foldl Path.descend place := by
  induction names generalizing place with
  | nil =>
      rw [walkFrom] at h
      exact (Except.ok.inj h).symm
  | cons name rest ih =>
      rw [walkFrom] at h
      split at h
      · cases h
      · next next hNext =>
        obtain ⟨-, -, hStep⟩ := enter_ok_iff.mp hNext
        rw [List.foldl_cons, ← hStep]
        exact ih h

/-- A way that can be walked can be walked wherever its directories are. -/
theorem walkFrom_mono {w w' : Workspace} (hDirs : ∀ q, w.HasDirectory q → w'.HasDirectory q)
    {names : List String} {place q : Place} (h : w.walkFrom place names = .ok q) :
    w'.walkFrom place names = .ok q := by
  induction names generalizing place with
  | nil => exact h
  | cons name rest ih =>
      rw [walkFrom] at h
      split at h
      · cases h
      · next next hNext =>
        obtain ⟨hDir, hShort, hStep⟩ := enter_ok_iff.mp hNext
        have hNext' : w'.enter place name = .ok next :=
          enter_ok_iff.mpr ⟨hDirs place hDir, hShort, hStep⟩
        rw [walkFrom, hNext']
        exact ih h

theorem walk_eq_walkFrom {w : Workspace} {p : Path} {q : Place} (h : w.walk p = .ok q) :
    w.walkFrom [] p.names = .ok q := by
  rw [walk] at h
  split at h
  · cases h
  · split at h
    · cases h
    · exact h

theorem walk_place {w : Workspace} {p : Path} {q : Place} (h : w.walk p = .ok q) : q = p.place :=
  walkFrom_place (walk_eq_walkFrom h)

theorem walk_mono {w w' : Workspace} (hDirs : ∀ q, w.HasDirectory q → w'.HasDirectory q)
    {p : Path} {q : Place} (h : w.walk p = .ok q) : w'.walk p = .ok q := by
  have hFrom := walkFrom_mono hDirs (walk_eq_walkFrom h)
  rw [walk] at h ⊢
  split at h
  · cases h
  · next hNul =>
    rw [if_neg hNul]
    split at h
    · cases h
    · next hShort =>
      rw [if_neg hShort]
      exact hFrom

theorem locate_ok_iff {w : Workspace} {p : Path} {q : Place} :
    w.locate p = .ok q ↔ w.walk p = .ok q := by
  rw [locate]
  split
  · next h => rw [h, Except.ok.injEq, Except.ok.injEq]
  · next h =>
    rw [h]
    constructor <;> intro hOk <;> cases hOk

/-! ## Open paths -/

/-- The path can be walked and leads to a place where a file stands or nothing. -/
structure IsOpen (w : Workspace) (p : Path) : Prop where
  walk : w.walk p = .ok p.place
  notDirectory : ¬ w.HasDirectory p.place

theorem IsOpen.ne_root {w : Workspace} {p : Path} (h : w.IsOpen p) : p.place ≠ [] := by
  intro hRoot
  apply h.notDirectory
  rw [hRoot]
  exact w.hasDirectory_root

theorem IsOpen.locate {w : Workspace} {p : Path} (h : w.IsOpen p) :
    w.locate p = .ok p.place := locate_ok_iff.mpr h.walk

theorem IsOpen.entry_eq {w : Workspace} {p : Path} (h : w.IsOpen p) :
    w.entry? p.place = (w.file? p.place).map Entry.file := entry?_of_not_directory h.notDirectory

/-- The two workspaces have the same directories. -/
def SameDirectories (w w' : Workspace) : Prop := ∀ q, w'.HasDirectory q ↔ w.HasDirectory q

/-- The second workspace is the first with directories where nothing stood. -/
def Grows (w w' : Workspace) : Prop :=
  ∀ q, w'.entry? q = w.entry? q ∨ (w.entry? q = none ∧ w'.HasDirectory q)

theorem SameDirectories.refl (w : Workspace) : SameDirectories w w := fun _ => Iff.rfl

theorem SameDirectories.trans {w w' w'' : Workspace} (h : SameDirectories w w')
    (h' : SameDirectories w' w'') : SameDirectories w w'' := fun q => (h' q).trans (h q)

theorem SameDirectories.symm {w w' : Workspace} (h : SameDirectories w w') :
    SameDirectories w' w := fun q => (h q).symm

theorem SameDirectories.isOpen {w w' : Workspace} (h : SameDirectories w w') {p : Path}
    (hOpen : w.IsOpen p) : w'.IsOpen p where
  walk := walk_mono (fun q => (h q).mpr) hOpen.walk
  notDirectory := fun hDir => hOpen.notDirectory ((h p.place).mp hDir)

theorem Grows.refl (w : Workspace) : Grows w w := fun _ => Or.inl rfl

theorem Grows.trans {w w' w'' : Workspace} (h : Grows w w') (h' : Grows w' w'') :
    Grows w w'' := by
  intro q
  rcases h' q with hSame | ⟨hNone, hDir⟩
  · rcases h q with hOld | ⟨hNone, hDir⟩
    · exact Or.inl (hSame.trans hOld)
    · exact Or.inr ⟨hNone, hSame.trans hDir⟩
  · rcases h q with hOld | ⟨hNone', hDir'⟩
    · exact Or.inr ⟨hOld.symm.trans hNone, hDir⟩
    · rw [HasDirectory, hNone] at hDir'
      cases hDir'

theorem Grows.directory {w w' : Workspace} (h : Grows w w') {q : Place}
    (hDir : w.HasDirectory q) : w'.HasDirectory q := by
  rcases h q with hSame | ⟨-, hNew⟩
  · exact hSame.trans hDir
  · exact hNew

theorem Grows.file? {w w' : Workspace} (h : Grows w w') (q : Place) :
    w'.file? q = w.file? q := by
  rcases h q with hSame | ⟨hNone, hDir⟩
  · exact file?_congr hSame
  · rw [file?_of_directory hDir, file?_of_none hNone]

/-- Where a file stands, no directory is made. -/
theorem Grows.isOpen {w w' : Workspace} (h : Grows w w') {p : Path} (hOpen : w.IsOpen p)
    (hFile : (w.file? p.place).isSome) : w'.IsOpen p where
  walk := walk_mono (fun _ => h.directory) hOpen.walk
  notDirectory := by
    intro hDir
    rw [← h.file? p.place, file?_of_directory hDir] at hFile
    cases hFile

/-! ## Writing, reading and removing -/

theorem IsOpen.file?_put {w : Workspace} {p : Path} (h : w.IsOpen p) (content : ByteArray) :
    (w.put p.place (.file content)).file? = Function.update w.file? p.place (some content) := by
  funext q
  by_cases hq : q = p.place
  · rw [Function.update_apply, if_pos hq, file?, entry?_put w h.ne_root, if_pos hq]
  · rw [Function.update_apply, if_neg hq]
    exact file?_congr (by rw [entry?_put w h.ne_root, if_neg hq])

theorem IsOpen.file?_erase {w : Workspace} {p : Path} (h : w.IsOpen p) :
    (w.erase p.place).file? = Function.update w.file? p.place none := by
  funext q
  by_cases hq : q = p.place
  · rw [Function.update_apply, if_pos hq, file?, entry?_erase w h.ne_root, if_pos hq]
  · rw [Function.update_apply, if_neg hq]
    exact file?_congr (by rw [entry?_erase w h.ne_root, if_neg hq])

theorem IsOpen.sameDirectories_put {w : Workspace} {p : Path} (h : w.IsOpen p)
    (content : ByteArray) : SameDirectories w (w.put p.place (.file content)) := by
  intro q
  rw [HasDirectory, entry?_put w h.ne_root]
  by_cases hq : q = p.place
  · rw [if_pos hq, hq]
    constructor
    · intro hFile
      cases hFile
    · intro hDir
      exact absurd hDir h.notDirectory
  · rw [if_neg hq]
    rfl

theorem IsOpen.sameDirectories_erase {w : Workspace} {p : Path} (h : w.IsOpen p) :
    SameDirectories w (w.erase p.place) := by
  intro q
  rw [HasDirectory, entry?_erase w h.ne_root]
  by_cases hq : q = p.place
  · rw [if_pos hq, hq]
    constructor
    · intro hNone
      cases hNone
    · intro hDir
      exact absurd hDir h.notDirectory
  · rw [if_neg hq]
    rfl

theorem write_ok {w w' : Workspace} {p : Path} {content : ByteArray}
    (h : w.write p content = .ok w') : w.IsOpen p ∧ w' = w.put p.place (.file content) := by
  unfold write at h
  obtain ⟨place, hLocate, h⟩ := bind_eq_ok.mp h
  have hWalk : w.walk p = .ok place := locate_ok_iff.mp hLocate
  have hPlace : place = p.place := walk_place hWalk
  subst hPlace
  split at h
  · cases h
  · next hNotDir => exact ⟨⟨hWalk, hNotDir⟩, (Except.ok.inj h).symm⟩

theorem write_of_isOpen {w : Workspace} {p : Path} (h : w.IsOpen p) (content : ByteArray) :
    w.write p content = .ok (w.put p.place (.file content)) := by
  unfold write
  rw [h.locate]
  simp only [bind, Except.bind]
  split
  · next hDir => exact absurd hDir h.notDirectory
  · rfl

theorem read_of_isOpen {w : Workspace} {p : Path} (h : w.IsOpen p) {content : ByteArray}
    (hFile : w.file? p.place = some content) : w.read p = .ok content := by
  unfold read
  rw [h.locate]
  simp only [bind, Except.bind]
  rw [file?_eq_some_iff.mp hFile]
  rfl

/-- At an open path a file is removed, whether it is there or not. -/
theorem removeIfThere_of_isOpen {w : Workspace} {p : Path} (h : w.IsOpen p) :
    w.removeIfThere p = .ok (w.erase p.place) := by
  unfold removeIfThere remove
  rw [h.locate]
  simp only [bind, Except.bind]
  cases hFile : w.file? p.place with
  | none =>
      have hNone : w.entry? p.place = none := by
        rw [h.entry_eq, hFile]
        rfl
      rw [hNone, erase_of_none hNone]
      rfl
  | some content =>
      rw [file?_eq_some_iff.mp hFile]
      rfl

/-- At a path that is not open nothing is removed. -/
theorem removeIfThere_of_not_isOpen {w w' : Workspace} {p : Path} (hClosed : ¬ w.IsOpen p)
    (h : w.removeIfThere p = .ok w') : w' = w := by
  have hRemove : ∀ w₁, w.remove p ≠ .ok w₁ := by
    intro w₁ hRemove
    unfold remove at hRemove
    obtain ⟨place, hLocate, hRemove⟩ := bind_eq_ok.mp hRemove
    have hWalk : w.walk p = .ok place := locate_ok_iff.mp hLocate
    have hPlace : place = p.place := walk_place hWalk
    subst hPlace
    split at hRemove
    · next content hFile =>
      -- what can be removed is a file, and then the path is open
      apply hClosed
      refine ⟨hWalk, fun hDir => ?_⟩
      rw [HasDirectory, hFile] at hDir
      cases hDir
    · cases hRemove
    · cases hRemove
  unfold removeIfThere at h
  split at h
  · next w₁ hRemoved => exact absurd hRemoved (hRemove w₁)
  · split at h
    · exact (Except.ok.inj h).symm
    · cases h

theorem isFile_of_isOpen {w : Workspace} {p : Path} (h : w.IsOpen p) :
    w.isFile p = .ok (w.file? p.place).isSome := by
  unfold isFile status
  rw [h.locate]
  have hEntry := h.entry_eq
  cases hFile : w.file? p.place with
  | none =>
      rw [hFile] at hEntry
      simp only [hEntry]
      rfl
  | some content =>
      rw [hFile] at hEntry
      simp only [hEntry]
      rfl

/-! ## Moving -/

/-- A move takes what stands at the source to the target, which is open. -/
theorem move_ok {w w' : Workspace} {source target : Path} (h : w.move source target = .ok w') :
    target.name ≠ ".." ∧ w.IsOpen target ∧
      ∃ entry, w.entry? source.place = some entry ∧
        w' = (w.erase source.place).put target.place entry := by
  unfold move at h
  split at h
  · cases h
  · cases h
  · next sourcePlace targetPlace hSource hTarget =>
    have hSourcePlace : sourcePlace = source.place := walk_place hSource
    have hTargetPlace : targetPlace = target.place := walk_place hTarget
    subst hSourcePlace hTargetPlace
    split at h
    · cases h
    · next hNames =>
      rw [Bool.or_eq_true, decide_eq_true_eq, decide_eq_true_eq, not_or] at hNames
      split at h
      · cases h
      · cases h
      · next entry hEntry hNotDir =>
        exact ⟨hNames.2, ⟨hTarget, hNotDir⟩, entry, hEntry, (Except.ok.inj h).symm⟩

/-! ## Making directories -/

theorem makeDirectory_grows {w w' : Workspace} {p : Path} (h : w.makeDirectory p = .ok w') :
    Grows w w' := by
  unfold makeDirectory at h
  obtain ⟨place, -, h⟩ := bind_eq_ok.mp h
  split at h
  · cases h
  · next hNone =>
    have hMade : w' = w.put place .directory := (Except.ok.inj h).symm
    have hRoot : place ≠ [] := by
      intro hRoot
      rw [hRoot, w.hasDirectory_root] at hNone
      cases hNone
    intro q
    rw [hMade, HasDirectory, entry?_put w hRoot]
    by_cases hq : q = place
    · rw [if_pos hq, hq]
      exact Or.inr ⟨hNone, rfl⟩
    · rw [if_neg hq]
      exact Or.inl rfl

/-- However far making directories comes, it only adds directories where nothing stood. -/
theorem makeDirectories_grows (w : Workspace) (p : Path) : Grows w (w.makeDirectories p).1 := by
  -- the parent is made first; only the attempts that succeed change the workspace
  fun_induction w.makeDirectories p with
  | case1 path w' hMade => exact makeDirectory_grows hMade
  | case2 => exact Grows.refl w
  | case3 path error hError hMissing hLower w' above hAbove ih =>
      rw [hAbove] at ih
      exact ih
  | case4 path error hError hMissing hLower w' made hAbove w'' hMade ih =>
      rw [hAbove] at ih
      exact ih.trans (makeDirectory_grows hMade)
  | case5 path error hError hMissing hLower w' made hAbove again hAgain hMissing' ih =>
      rw [hAbove] at ih
      exact ih
  | case6 path error hError hMissing hLower w' made hAbove again hAgain hThere ih =>
      rw [hAbove] at ih
      exact ih
  | case7 => exact Grows.refl w

end CommBindings.Workspace
