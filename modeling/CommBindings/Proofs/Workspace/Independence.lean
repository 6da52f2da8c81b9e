import CommBindings.Proofs.Workspace.MakingDirectories

set_option autoImplicit false

/-! # Writing files in workspaces that others wrote in

Several writings make directories on the way to theirs and change files that are not on these ways.
What they make of a workspace *continues* it (`Continues`), and so does each of them in turn
(`continues_write`). In two workspaces that continue one, the same files are written with the same
outcome, or else the same directory cannot be made in either, and wherever the two had the same file
they have it again (`write_alike`).
-/

namespace CommBindings

open Workspace

namespace Workspace

/-! ## Continuing a workspace -/

/-- The place is one on the way to a directory in the list, or the place of such a directory. -/
def OnWay (dirs : List Path) (q : Place) : Prop :=
  ∃ dir ∈ dirs, ∃ front ∈ dir.fronts, q = front.place

/-- The second workspace has the directories of the first one, and more only on the ways to the
directories in the list. The files on these ways are the same. -/
structure Continues (dirs : List Path) (w v : Workspace) : Prop where
  keeps : KeepsDirectories w v
  made : ∀ q, ¬ OnWay dirs q → v.HasDirectory q → w.HasDirectory q
  files : ∀ q, OnWay dirs q → v.file? q = w.file? q

variable {dirs : List Path} {w v v' : Workspace}

theorem Continues.refl (dirs : List Path) (w : Workspace) : Continues dirs w w where
  keeps := KeepsDirectories.refl w
  made := fun _ _ hDir => hDir
  files := fun _ _ => rfl

theorem Continues.trans (h : Continues dirs w v) (h' : Continues dirs v v') :
    Continues dirs w v' where
  keeps := h.keeps.trans h'.keeps
  made := fun q hq hDir => h.made q hq (h'.made q hq hDir)
  files := fun q hq => (h'.files q hq).trans (h.files q hq)

theorem Continues.sameOnWay (h : Continues dirs w v) {dir : Path} (hDir : dir ∈ dirs) :
    SameOnWay w v dir := fun front hFront => h.files front.place ⟨dir, hDir, front, hFront, rfl⟩

/-- Off the ways two workspaces that continue one have the same directories. -/
theorem Continues.hasDirectory_iff (h : Continues dirs w v) (h' : Continues dirs w v') {q : Place}
    (hq : ¬ OnWay dirs q) : v'.HasDirectory q ↔ v.HasDirectory q :=
  ⟨fun hDir => h.keeps q (h'.made q hq hDir), fun hDir => h'.keeps q (h.made q hq hDir)⟩

theorem continues_of_sameDirectories (hDirs : SameDirectories w v)
    (hFiles : ∀ q, OnWay dirs q → v.file? q = w.file? q) : Continues dirs w v where
  keeps := hDirs.keeps
  made := fun q _ => (hDirs q).mp
  files := hFiles

theorem continues_makeDirectories (w : Workspace) {dir : Path} (hDir : dir ∈ dirs) :
    Continues dirs w (w.makeDirectories dir).1 where
  keeps := fun _ => (makeDirectories_grows w dir).directory
  made := by
    intro q hq hMade
    rwa [HasDirectory, makeDirectories_entry? w dir fun front hFront hPlace =>
      hq ⟨dir, hDir, front, hFront, hPlace⟩] at hMade
  files := fun q _ => (makeDirectories_grows w dir).file? q

theorem continues_put {p : Path} (hOpen : w.IsOpen p) (hOff : ¬ OnWay dirs p.place)
    (content : ByteArray) : Continues dirs w (w.put p.place (.file content)) := by
  refine continues_of_sameDirectories (hOpen.sameDirectories_put content) fun q hq => ?_
  rw [hOpen.file?_put, Function.update_of_ne]
  rintro rfl
  exact hOff hq

/-! ## Operations that come to the same -/

/-- The directory above the path is there in both workspaces, and at the path both have a directory
or neither has. -/
structure AlikeAt (v v' : Workspace) (p : Path) : Prop where
  here : v.isDirectory p.parent = .ok true
  there : v'.isDirectory p.parent = .ok true
  directory : v'.HasDirectory p.place ↔ v.HasDirectory p.place

theorem AlikeAt.mono {v₁ v₁' : Workspace} {p : Path} (h : AlikeAt v v' p)
    (hDirs : SameDirectories v v₁) (hDirs' : SameDirectories v' v₁') : AlikeAt v₁ v₁' p where
  here := isDirectory_kept hDirs.keeps h.here
  there := isDirectory_kept hDirs'.keeps h.there
  directory := (hDirs' p.place).trans (h.directory.trans (hDirs p.place).symm)

/-- What the way to the path meets with is the same in both workspaces. -/
theorem AlikeAt.walk {p : Path} (h : AlikeAt v v' p) (hName : p.name ≠ "") :
    v'.walk p = v.walk p := by
  obtain ⟨hLocate, hHere⟩ := isDirectory_iff.mp h.here
  obtain ⟨hLocate', hHere'⟩ := isDirectory_iff.mp h.there
  -- both ways come to the directory above, and there only the last name matters
  rw [← Path.child_parent hName, Workspace.walk, Workspace.walk, Path.child, walkFrom_append,
    walkFrom_append, walk_eq_walkFrom (locate_ok_iff.mp hLocate),
    walk_eq_walkFrom (locate_ok_iff.mp hLocate')]
  simp only [Except.bind, enter_of_directory hHere, enter_of_directory hHere']

/-- At such a path both workspaces are walked to the same end: to none, to a directory, or to where
a file can be written. -/
theorem AlikeAt.cases {p : Path} (h : AlikeAt v v' p) (hName : p.name ≠ "") :
    (∃ cause, v.walk p = .error cause ∧ v'.walk p = .error cause) ∨
      ((v.walk p = .ok p.place ∧ v.HasDirectory p.place) ∧
        v'.walk p = .ok p.place ∧ v'.HasDirectory p.place) ∨
      (v.IsOpen p ∧ v'.IsOpen p) := by
  have hSame := h.walk hName
  cases hWalk : v.walk p with
  | error cause => exact Or.inl ⟨cause, rfl, hSame.trans hWalk⟩
  | ok q =>
      have hPlace : q = p.place := walk_place hWalk
      subst hPlace
      by_cases hDir : v.HasDirectory p.place
      · exact Or.inr (Or.inl ⟨⟨rfl, hDir⟩, hSame.trans hWalk, h.directory.mpr hDir⟩)
      · exact Or.inr (Or.inr ⟨⟨hWalk, hDir⟩, hSame.trans hWalk, fun hDir' =>
          hDir (h.directory.mp hDir')⟩)

theorem write_of_walk_error {p : Path} {cause : FileCause} (h : w.walk p = .error cause)
    (content : ByteArray) : w.write p content = .error ⟨cause, p, none⟩ := by
  rw [write, locate, h]
  rfl

theorem write_of_directory {p : Path} (h : w.walk p = .ok p.place) (hDir : w.HasDirectory p.place)
    (content : ByteArray) : w.write p content = .error ⟨.isDirectory, p, none⟩ := by
  rw [write, locate_ok_iff.mpr h]
  unfold HasDirectory at hDir
  simp only [bind, Except.bind, hDir]

/-- A file is written in both workspaces or fails to be with the same error. -/
theorem AlikeAt.write {p : Path} (h : AlikeAt v v' p) (hName : p.name ≠ "") (content : ByteArray) :
    (∃ error, v.write p content = .error error ∧ v'.write p content = .error error) ∨
      (v.IsOpen p ∧ v'.IsOpen p) := by
  rcases h.cases hName with ⟨cause, hWalk, hWalk'⟩ | ⟨⟨hWalk, hDir⟩, hWalk', hDir'⟩ | hOpen
  · exact Or.inl ⟨_, write_of_walk_error hWalk content, write_of_walk_error hWalk' content⟩
  · exact Or.inl ⟨_, write_of_directory hWalk hDir content, write_of_directory hWalk' hDir' content⟩
  · exact Or.inr hOpen

theorem removeIfThere_of_walk_error {p : Path} {cause : FileCause}
    (h : w.walk p = .error cause) :
    w.removeIfThere p = if cause = .missing then .ok w else .error ⟨cause, p, none⟩ := by
  rw [removeIfThere, remove, locate, h]
  rfl

theorem removeIfThere_of_directory {p : Path} (h : w.walk p = .ok p.place)
    (hDir : w.HasDirectory p.place) : w.removeIfThere p = .error ⟨.isDirectory, p, none⟩ := by
  rw [removeIfThere, remove, locate_ok_iff.mpr h]
  unfold HasDirectory at hDir
  simp only [bind, Except.bind, hDir]
  rfl

/-- A file is removed in both workspaces, or in neither, or fails to be with the same error. -/
theorem AlikeAt.removeIfThere {p : Path} (h : AlikeAt v v' p) (hName : p.name ≠ "") :
    (∃ error, v.removeIfThere p = .error error ∧ v'.removeIfThere p = .error error) ∨
      (v.removeIfThere p = .ok v ∧ v'.removeIfThere p = .ok v') ∨
      (v.IsOpen p ∧ v'.IsOpen p) := by
  rcases h.cases hName with ⟨cause, hWalk, hWalk'⟩ | ⟨⟨hWalk, hDir⟩, hWalk', hDir'⟩ | hOpen
  · rw [removeIfThere_of_walk_error hWalk, removeIfThere_of_walk_error hWalk']
    by_cases hMissing : cause = .missing
    · rw [if_pos hMissing, if_pos hMissing]
      exact Or.inr (Or.inl ⟨rfl, rfl⟩)
    · rw [if_neg hMissing, if_neg hMissing]
      exact Or.inl ⟨_, rfl, rfl⟩
  · exact Or.inl ⟨_, removeIfThere_of_directory hWalk hDir, removeIfThere_of_directory hWalk' hDir'⟩
  · exact Or.inr (Or.inr hOpen)

end Workspace

namespace Outputs

variable {dirs : List Path} {w v v' : Workspace}

/-! ## Cleaning up -/

theorem stagingPath_name (p : Path) : (stagingPath p).name = p.name ++ ".tmp" := by
  rw [stagingPath, Path.withName, Path.name_snoc]

theorem stagingPath_name_ne (p : Path) :
    (stagingPath p).name ≠ "" ∧ (stagingPath p).name ≠ ".." := by
  rw [stagingPath_name]
  exact stagedName_ne p.name

theorem cleanUp_alike {targets : List Path} (h : ∀ p ∈ targets, AlikeAt v v' (stagingPath p)) :
    (cleanUp v' targets).2 = (cleanUp v targets).2 ∧
      ∀ q, v'.file? q = v.file? q →
        (cleanUp v' targets).1.file? q = (cleanUp v targets).1.file? q := by
  induction targets generalizing v v' with
  | nil => exact ⟨rfl, fun q hq => hq⟩
  | cons target rest ih =>
      obtain ⟨hTarget, hRest⟩ := List.forall_mem_cons.mp h
      rw [cleanUp, cleanUp]
      rcases hTarget.removeIfThere (stagingPath_name_ne target).1 with
        ⟨error, hRemove, hRemove'⟩ | ⟨hRemove, hRemove'⟩ | ⟨hOpen, hOpen'⟩
      · rw [hRemove, hRemove']
        exact ⟨rfl, fun q hq => hq⟩
      · rw [hRemove, hRemove']
        exact ih hRest
      · rw [removeIfThere_of_isOpen hOpen, removeIfThere_of_isOpen hOpen']
        have hAll : ∀ p ∈ rest, AlikeAt (v.erase (stagingPath target).place)
            (v'.erase (stagingPath target).place) (stagingPath p) :=
          fun p hp => (hRest p hp).mono hOpen.sameDirectories_erase hOpen'.sameDirectories_erase
        refine ⟨(ih hAll).1, fun q hq => (ih hAll).2 q ?_⟩
        rw [hOpen.file?_erase, hOpen'.file?_erase, Function.update_apply, Function.update_apply, hq]

/-! ## Replacing -/

theorem previous_of_walk_error {p : Path} {cause : FileCause} (h : w.walk p = .error cause) :
    previous w p =
      if cause = .missing ∨ cause = .notDirectory ∨ cause = .noPath then .ok none
      else .error ⟨cause, p, none⟩ := by
  rw [previous, isFile, status, locate, h]
  cases cause <;> rfl

theorem previous_of_directory {p : Path} (h : w.walk p = .ok p.place)
    (hDir : w.HasDirectory p.place) : previous w p = .ok none := by
  rw [previous, isFile, status, locate_ok_iff.mpr h]
  unfold HasDirectory at hDir
  simp only [hDir]
  rfl

theorem move_of_walk_error {source target : Path} {cause : FileCause} (hSource : w.IsOpen source)
    (h : w.walk target = .error cause) :
    w.move source target = .error ⟨cause, source, some target⟩ := by
  rw [move, hSource.walk, h]

theorem move_of_directory {source target : Path} (hSource : w.IsOpen source)
    (hThere : (w.file? source.place).isSome) (hNames : source.name ≠ ".." ∧ target.name ≠ "..")
    (h : w.walk target = .ok target.place) (hDir : w.HasDirectory target.place) :
    w.move source target = .error ⟨.isDirectory, source, some target⟩ := by
  obtain ⟨content, hContent⟩ := Option.isSome_iff_exists.mp hThere
  unfold HasDirectory at hDir
  rw [move, hSource.walk, h]
  simp [hNames.1, hNames.2, file?_eq_some_iff.mp hContent, hDir]

theorem move_of_isOpen {source target : Path} (hSource : w.IsOpen source)
    (hThere : (w.file? source.place).isSome) (hNames : source.name ≠ ".." ∧ target.name ≠ "..")
    (hTarget : w.IsOpen target) : ∃ w', w.move source target = .ok w' := by
  obtain ⟨content, hContent⟩ := Option.isSome_iff_exists.mp hThere
  refine ⟨(w.erase source.place).put target.place (.file content), ?_⟩
  have hEntry := hTarget.entry_eq
  rw [move, hSource.walk, hTarget.walk]
  cases hFile : w.file? target.place with
  | none =>
      rw [hFile] at hEntry
      simp [hNames.1, hNames.2, file?_eq_some_iff.mp hContent, hEntry]
  | some old =>
      rw [hFile] at hEntry
      simp [hNames.1, hNames.2, file?_eq_some_iff.mp hContent, hEntry]

/-- A target is replaced in both workspaces or fails to be with the same error. -/
theorem replace_alike {target : Path} (hName : target.name ≠ "") (hUp : target.name ≠ "..")
    (h : AlikeAt v v' target)
    (hStaging : v.IsOpen (stagingPath target)) (hThere : (v.file? (stagingPlace target)).isSome)
    (hStaging' : v'.IsOpen (stagingPath target))
    (hThere' : (v'.file? (stagingPlace target)).isSome) :
    (∃ error, replace v target = .error error ∧ replace v' target = .error error) ∨
      ∃ result result', replace v target = .ok result ∧ replace v' target = .ok result' := by
  have hNames := And.intro (stagingPath_name_ne target).2 hUp
  unfold replace
  rcases h.cases hName with
    ⟨cause, hWalk, hWalk'⟩ | ⟨⟨hWalk, hDir⟩, hWalk', hDir'⟩ | ⟨hOpen, hOpen'⟩
  · rw [previous_of_walk_error hWalk, previous_of_walk_error hWalk',
      move_of_walk_error hStaging hWalk, move_of_walk_error hStaging' hWalk']
    split
    · exact Or.inl ⟨_, rfl, rfl⟩
    · exact Or.inl ⟨_, rfl, rfl⟩
  · rw [previous_of_directory hWalk hDir, previous_of_directory hWalk' hDir',
      move_of_directory hStaging hThere hNames hWalk hDir,
      move_of_directory hStaging' hThere' hNames hWalk' hDir']
    exact Or.inl ⟨_, rfl, rfl⟩
  · obtain ⟨w₁, hMove⟩ := move_of_isOpen hStaging hThere hNames hOpen
    obtain ⟨w₁', hMove'⟩ := move_of_isOpen hStaging' hThere' hNames hOpen'
    rw [previous_of_isOpen hOpen, previous_of_isOpen hOpen', hMove, hMove']
    exact Or.inr ⟨_, _, rfl, rfl⟩

/-- Staged files are there for the targets. -/
structure Ready (v : Workspace) (targets : List Path) : Prop where
  isOpen : ∀ t ∈ targets, v.IsOpen (stagingPath t)
  there : ∀ t ∈ targets, (v.file? (stagingPlace t)).isSome

/-- What a replacement leaves ready are the targets after it. -/
theorem Ready.rest {target : Path} {rest : List Path} {replaced : Path × Option ByteArray}
    (h : Ready v (target :: rest)) (hReplace : replace v target = .ok (v', replaced))
    (hNodup : ((target :: rest).map stagingPlace).Nodup)
    (hApart : ∀ t ∈ rest, target.place ≠ stagingPlace t) : Ready v' rest := by
  obtain ⟨-, -, -, hDirs, content, -, hFiles⟩ :=
    replace_ok (h.isOpen target List.mem_cons_self) hReplace
  refine ⟨fun t ht => hDirs.isOpen (h.isOpen t (List.mem_cons_of_mem _ ht)), fun t ht => ?_⟩
  have hOther : stagingPlace t ≠ stagingPlace target := by
    intro hSame
    rw [List.map_cons, List.nodup_cons] at hNodup
    apply hNodup.1
    rw [← hSame]
    exact List.mem_map_of_mem ht
  rw [hFiles, Function.update_of_ne (hApart t ht).symm, Function.update_of_ne hOther]
  exact h.there t (List.mem_cons_of_mem _ ht)

/-- All targets are replaced in both workspaces, or the replacing fails with the same error. -/
theorem replaceAll_alike {targets : List Path} {done done' : List (Path × Option ByteArray)}
    (hNames : ∀ t ∈ targets, t.name ≠ "" ∧ t.name ≠ "..")
    (hNodup : (targets.map stagingPlace).Nodup)
    (hApart : ∀ t ∈ targets, ∀ t' ∈ targets, t.place ≠ stagingPlace t')
    (hAlike : ∀ t ∈ targets, AlikeAt v v' t) (hReady : Ready v targets) (hReady' : Ready v' targets)
    (hDone : ∀ e ∈ done, v.IsOpen e.1) (hDone' : ∀ e ∈ done', v'.IsOpen e.1) :
    (replaceAll v' done' targets).2 = (replaceAll v done targets).2 := by
  induction targets generalizing v v' done done' with
  | nil => rfl
  | cons target rest ih =>
      have hHere := List.mem_cons_self (a := target) (l := rest)
      have hStaging := hReady.isOpen target hHere
      have hStaging' := hReady'.isOpen target hHere
      rw [replaceAll, replaceAll]
      rcases replace_alike (hNames target hHere).1 (hNames target hHere).2 (hAlike target hHere)
        hStaging (hReady.there target hHere) hStaging' (hReady'.there target hHere) with
        ⟨error, hReplace, hReplace'⟩ | ⟨⟨w₁, replaced⟩, ⟨w₁', replaced'⟩, hReplace, hReplace'⟩
      · -- what was done before can be undone in both
        obtain ⟨w₁, hUndone, -⟩ := rollBack_spec hDone
        obtain ⟨w₁', hUndone', -⟩ := rollBack_spec hDone'
        rw [hReplace, hReplace', hUndone, hUndone']
      · rw [hReplace, hReplace']
        obtain ⟨-, -, -, hDirs, -⟩ := replace_ok hStaging hReplace
        obtain ⟨-, -, -, hDirs', -⟩ := replace_ok hStaging' hReplace'
        have hApart₁ : ∀ t ∈ rest, target.place ≠ stagingPlace t :=
          fun t ht => hApart target hHere t (List.mem_cons_of_mem _ ht)
        apply ih
        · exact fun t ht => hNames t (List.mem_cons_of_mem _ ht)
        · exact (List.nodup_cons.mp hNodup).2
        · exact fun t ht t' ht' =>
            hApart t (List.mem_cons_of_mem _ ht) t' (List.mem_cons_of_mem _ ht')
        · exact fun t ht => (hAlike t (List.mem_cons_of_mem _ ht)).mono hDirs hDirs'
        · exact hReady.rest hReplace hNodup hApart₁
        · exact hReady'.rest hReplace' hNodup hApart₁
        · exact isOpen_replaced hStaging hDone hReplace
        · exact isOpen_replaced hStaging' hDone' hReplace'

/-! ## Staging -/

/-- The target lies in a directory in the list, and neither the target nor its staged file is on the
way to one of them. -/
structure IsClear (dirs : List Path) (target : Path) : Prop where
  named : target.name ≠ "" ∧ target.name ≠ ".."
  parent : target.parent ∈ dirs
  place : ¬ OnWay dirs target.place
  staging : ¬ OnWay dirs (stagingPlace target)

/-- The outcomes are the same, or the same directory could not be made. -/
def AlikeOutcome (dirs : List Path) (w : Workspace) (outcome outcome' : Except FileError Unit) :
    Prop :=
  outcome' = outcome ∨ ∃ dir ∈ dirs, ∃ error error', outcome = .error error ∧
    outcome' = .error error' ∧ w.FailsToMake dir error ∧ w.FailsToMake dir error'

theorem stagingPath_parent {p : Path} (hName : p.name ≠ "") :
    (stagingPath p).parent = p.parent := by
  rw [Path.parent_of_name hName, Path.parent_of_name (stagingPath_name_ne p).1, stagingPath,
    Path.withName, List.dropLast_concat]

theorem alikeAt_stagingPath {p : Path} (hName : p.name ≠ "")
    (h : v.isDirectory p.parent = .ok true) (h' : v'.isDirectory p.parent = .ok true)
    (hDirectory : v'.HasDirectory (stagingPlace p) ↔ v.HasDirectory (stagingPlace p)) :
    AlikeAt v v' (stagingPath p) := by
  rw [← stagingPath_parent hName] at h h'
  exact ⟨h, h', hDirectory⟩

theorem stage_of_parent_error {file : OutputFile} {error : FileError}
    (h : (w.makeDirectories file.path.parent).2 = .error error) (rest : List OutputFile) :
    stage w (file :: rest) = ((w.makeDirectories file.path.parent).1, [], .error error) := by
  rw [stage, ← Prod.eta (w.makeDirectories file.path.parent), h]

theorem stage_of_write_error {file : OutputFile} {error : FileError}
    (hParent : (w.makeDirectories file.path.parent).2 = .ok ()) (hName : file.path.name ≠ "")
    (h : (w.makeDirectories file.path.parent).1.write (stagingPath file.path)
      (Utf8.encode file.content) = .error error) (rest : List OutputFile) :
    stage w (file :: rest) =
      ((w.makeDirectories file.path.parent).1, [file.path], .error error) := by
  rw [stage, ← Prod.eta (w.makeDirectories file.path.parent), hParent]
  simp only [hName, if_false, h]

theorem stage_of_isOpen {file : OutputFile}
    (hParent : (w.makeDirectories file.path.parent).2 = .ok ()) (hName : file.path.name ≠ "")
    (hOpen : (w.makeDirectories file.path.parent).1.IsOpen (stagingPath file.path))
    (rest : List OutputFile) :
    stage w (file :: rest) =
      let staged := stage ((w.makeDirectories file.path.parent).1.put (stagingPlace file.path)
        (.file (Utf8.encode file.content))) rest
      (staged.1, file.path :: staged.2.1, staged.2.2) := by
  rw [stage, ← Prod.eta (w.makeDirectories file.path.parent), hParent]
  simp only [hName, if_false, write_of_isOpen hOpen]
  rfl

theorem continues_stage {files : List OutputFile} (hFiles : ∀ f ∈ files, IsClear dirs f.path)
    (w : Workspace) : Continues dirs w (stage w files).1 := by
  induction files generalizing w with
  | nil => exact Continues.refl dirs w
  | cons file rest ih =>
      obtain ⟨hFile, hRest⟩ := List.forall_mem_cons.mp hFiles
      have hMade := continues_makeDirectories w hFile.parent
      cases hParent : (w.makeDirectories file.path.parent).2 with
      | error error =>
          rw [stage_of_parent_error hParent]
          exact hMade
      | ok done =>
          cases hWrite : (w.makeDirectories file.path.parent).1.write (stagingPath file.path)
            (Utf8.encode file.content) with
          | error error =>
              rw [stage_of_write_error hParent hFile.named.1 hWrite]
              exact hMade
          | ok w₁ =>
              obtain ⟨hOpen, -⟩ := write_ok hWrite
              rw [stage_of_isOpen hParent hFile.named.1 hOpen]
              exact (hMade.trans (continues_put hOpen hFile.staging _)).trans (ih hRest _)

/-- The directory of the target can be made, and is there then. -/
structure MadeFor (v : Workspace) (target : Path) : Prop where
  outcome : (v.makeDirectories target.parent).2 = .ok ()
  directory : (v.makeDirectories target.parent).1.isDirectory target.parent = .ok true

theorem madeFor_of_ok {target : Path} (hSame : SameOnWay w v target.parent)
    (h : (w.makeDirectories target.parent).2 = .ok ()) : MadeFor v target := by
  obtain ⟨hOk, hDir⟩ := makeDirectories_ok hSame h
  exact ⟨hOk, hDir⟩

theorem makeDirectories_file?_congr (p : Path) {q : Place} (h : v'.file? q = v.file? q) :
    (v'.makeDirectories p).1.file? q = (v.makeDirectories p).1.file? q := by
  rw [(makeDirectories_grows v' p).file? q, (makeDirectories_grows v p).file? q, h]

/-- Staging comes to the same in two workspaces: the same targets are begun, with the same outcome,
their directories are there, and wherever the files were the same they are again. -/
structure StagedAlike (dirs : List Path) (w v v' : Workspace) (files : List OutputFile) : Prop where
  begun : (stage v' files).2.1 = (stage v files).2.1
  outcome : AlikeOutcome dirs w (stage v files).2.2 (stage v' files).2.2
  parents : ∀ p ∈ (stage v files).2.1, (stage v files).1.isDirectory p.parent = .ok true ∧
    (stage v' files).1.isDirectory p.parent = .ok true
  same : ∀ q, v'.file? q = v.file? q → (stage v' files).1.file? q = (stage v files).1.file? q

theorem stagedAlike_of_parent_error {file : OutputFile} {rest : List OutputFile}
    {error error' : FileError} (hDir : file.path.parent ∈ dirs)
    (h : (v.makeDirectories file.path.parent).2 = .error error)
    (h' : (v'.makeDirectories file.path.parent).2 = .error error')
    (hFails : w.FailsToMake file.path.parent error)
    (hFails' : w.FailsToMake file.path.parent error') :
    StagedAlike dirs w v v' (file :: rest) := by
  have hEnd := stage_of_parent_error h rest
  have hEnd' := stage_of_parent_error h' rest
  refine ⟨?_, Or.inr ⟨_, hDir, error, error', ?_, ?_, hFails, hFails'⟩, ?_, ?_⟩
  · rw [hEnd, hEnd']
  · rw [hEnd]
  · rw [hEnd']
  · rw [hEnd]
    exact fun p hp => absurd hp List.not_mem_nil
  · rw [hEnd, hEnd']
    exact fun q => makeDirectories_file?_congr file.path.parent

theorem stagedAlike_of_write_error {file : OutputFile} {rest : List OutputFile}
    {error : FileError} (hName : file.path.name ≠ "") (h : MadeFor v file.path)
    (h' : MadeFor v' file.path)
    (hWrite : (v.makeDirectories file.path.parent).1.write (stagingPath file.path)
      (Utf8.encode file.content) = .error error)
    (hWrite' : (v'.makeDirectories file.path.parent).1.write (stagingPath file.path)
      (Utf8.encode file.content) = .error error) :
    StagedAlike dirs w v v' (file :: rest) := by
  have hEnd := stage_of_write_error h.outcome hName hWrite rest
  have hEnd' := stage_of_write_error h'.outcome hName hWrite' rest
  refine ⟨?_, Or.inl ?_, ?_, ?_⟩
  · rw [hEnd, hEnd']
  · rw [hEnd, hEnd']
  · rw [hEnd, hEnd']
    exact List.forall_mem_singleton.mpr ⟨h.directory, h'.directory⟩
  · rw [hEnd, hEnd']
    exact fun q => makeDirectories_file?_congr file.path.parent

/-- What is staged after the first file comes to the same, and so does all. -/
theorem stagedAlike_of_isOpen {file : OutputFile} {rest : List OutputFile}
    (hName : file.path.name ≠ "") (h : MadeFor v file.path) (h' : MadeFor v' file.path)
    (hOpen : (v.makeDirectories file.path.parent).1.IsOpen (stagingPath file.path))
    (hOpen' : (v'.makeDirectories file.path.parent).1.IsOpen (stagingPath file.path))
    (hRest : StagedAlike dirs w
      ((v.makeDirectories file.path.parent).1.put (stagingPath file.path).place
        (.file (Utf8.encode file.content)))
      ((v'.makeDirectories file.path.parent).1.put (stagingPath file.path).place
        (.file (Utf8.encode file.content))) rest) :
    StagedAlike dirs w v v' (file :: rest) := by
  have hEnd := stage_of_isOpen h.outcome hName hOpen rest
  have hEnd' := stage_of_isOpen h'.outcome hName hOpen' rest
  have hDirs := (hOpen.sameDirectories_put (Utf8.encode file.content)).keeps
  have hDirs' := (hOpen'.sameDirectories_put (Utf8.encode file.content)).keeps
  refine ⟨?_, ?_, ?_, fun q hq => ?_⟩
  · rw [hEnd, hEnd']
    exact congrArg (List.cons file.path) hRest.begun
  · rw [hEnd, hEnd']
    exact hRest.outcome
  · rw [hEnd, hEnd']
    refine List.forall_mem_cons.mpr ⟨⟨?_, ?_⟩, hRest.parents⟩
    · exact isDirectory_kept (hDirs.trans (stage_directories _ rest)) h.directory
    · exact isDirectory_kept (hDirs'.trans (stage_directories _ rest)) h'.directory
  · rw [hEnd, hEnd']
    apply hRest.same
    rw [hOpen.file?_put, hOpen'.file?_put, Function.update_apply, Function.update_apply,
      makeDirectories_file?_congr file.path.parent hq]

/-- **Staging comes to the same in two workspaces that continue one.** -/
theorem stage_alike {files : List OutputFile} (hFiles : ∀ f ∈ files, IsClear dirs f.path)
    (h : Continues dirs w v) (h' : Continues dirs w v') : StagedAlike dirs w v v' files := by
  induction files generalizing v v' with
  | nil => exact ⟨rfl, Or.inl rfl, fun p hp => absurd hp List.not_mem_nil, fun q hq => hq⟩
  | cons file rest ih =>
      obtain ⟨hFile, hRest⟩ := List.forall_mem_cons.mp hFiles
      have hName := hFile.named.1
      have hSame := h.sameOnWay hFile.parent
      have hSame' := h'.sameOnWay hFile.parent
      have hMade := h.trans (continues_makeDirectories v hFile.parent)
      have hMade' := h'.trans (continues_makeDirectories v' hFile.parent)
      cases hParent : (w.makeDirectories file.path.parent).2 with
      | error error =>
          obtain ⟨e, he, hFails⟩ := makeDirectories_alike h.keeps hSame hParent
          obtain ⟨e', he', hFails'⟩ := makeDirectories_alike h'.keeps hSame' hParent
          exact stagedAlike_of_parent_error hFile.parent he he' hFails hFails'
      | ok done =>
          have hOk : MadeFor v file.path := madeFor_of_ok hSame hParent
          have hOk' : MadeFor v' file.path := madeFor_of_ok hSame' hParent
          have hAlike := alikeAt_stagingPath hName hOk.directory hOk'.directory
            (hMade.hasDirectory_iff hMade' hFile.staging)
          rcases hAlike.write (stagingPath_name_ne file.path).1 (Utf8.encode file.content) with
            ⟨error, hWrite, hWrite'⟩ | ⟨hOpen, hOpen'⟩
          · exact stagedAlike_of_write_error hName hOk hOk' hWrite hWrite'
          · have hPut := continues_put hOpen hFile.staging (Utf8.encode file.content)
            have hPut' := continues_put hOpen' hFile.staging (Utf8.encode file.content)
            exact stagedAlike_of_isOpen hName hOk hOk' hOpen hOpen'
              (ih hRest (hMade.trans hPut) (hMade'.trans hPut'))

/-! ## Writing -/

/-- Files that can be written together: they are clear, no one is staged where another one goes, and
each has a staging place of its own. -/
structure AreClear (dirs : List Path) (files : List OutputFile) : Prop where
  each : ∀ f ∈ files, IsClear dirs f.path
  apart : ∀ f ∈ files, ∀ g ∈ files, f.path.place ≠ stagingPlace g.path
  nodup : (files.map fun f => stagingPlace f.path).Nodup

variable {files : List OutputFile}

theorem continues_write (hClear : AreClear dirs files) (w : Workspace) :
    Continues dirs w (write w files).1 := by
  refine (continues_stage hClear.each w).trans
    (continues_of_sameDirectories (write_sameDirectories w files) fun q hq => ?_)
  have hOff : ∀ f ∈ files, q ≠ f.path.place ∧ q ≠ stagingPlace f.path := by
    intro f hf
    constructor
    · rintro rfl
      exact (hClear.each f hf).place hq
    · rintro rfl
      exact (hClear.each f hf).staging hq
  have hWritten : (write w files).1.file? q = w.file? q := by
    cases hWrite : write w files with
    | mk w' outcome =>
      cases outcome with
      | error error => exact (leftAlone_of_write_error hWrite).kept q fun f hf => (hOff f hf).2
      | ok done => exact (written_of_write_ok hClear.apart hWrite).kept q hOff
  rw [hWritten, (continues_stage hClear.each w).files q hq]

/-- A call whose staging failed ends as the cleaning up does. -/
theorem write_of_stage_error_outcome {w₁ : Workspace} {begun : List Path} {error : FileError}
    (h : stage w files = (w₁, begun, .error error)) :
    (write w files).2 = (cleanUp w₁ begun).2.bind fun _ => .error error := by
  rw [write, h]
  simp only
  cases hClean : cleanUp w₁ begun with
  | mk w₂ outcome => cases outcome <;> rfl

theorem ready_of_stage_ok {w₁ : Workspace} {begun : List Path} (hClear : AreClear dirs files)
    (h : stage w files = (w₁, begun, .ok ())) : Ready w₁ begun := by
  obtain ⟨staged, failed, hBegun, hStages, hOk⟩ := stage_spec w files
  obtain ⟨hAll, -, hContents⟩ := stage_ok h
  rw [h] at hBegun hStages hOk
  have hStaged : begun = staged := by
    rw [show begun = staged ++ failed from hBegun, hOk rfl, List.append_nil]
  subst hStaged
  refine ⟨hStages.isOpen, ?_⟩
  rw [hAll]
  refine List.forall_mem_map.mpr fun f hf => ?_
  rw [hContents hClear.nodup f hf]
  rfl

/-- Where the replacing ends, the same files are there in both workspaces, but for staged ones. -/
theorem replaceAll_same {begun : List Path} (hNames : ∀ t ∈ begun, t.name ≠ "")
    (hApart : ∀ t ∈ begun, ∀ t' ∈ begun, t.place ≠ stagingPlace t')
    (hReady : Ready v begun) (hReady' : Ready v' begun)
    (hStaged : ∀ t ∈ begun, v'.file? (stagingPlace t) = v.file? (stagingPlace t))
    (hOutcome : (replaceAll v' [] begun).2 = (replaceAll v [] begun).2)
    {q : Place} (hq : ∀ t ∈ begun, q ≠ stagingPlace t) (h : v'.file? q = v.file? q) :
    (replaceAll v' [] begun).1.file? q = (replaceAll v [] begun).1.file? q := by
  cases hEnd : (replaceAll v [] begun).2 with
  | error error =>
      have hUndone := replaceAll_error hReady.isOpen (by simp) (Prod.ext rfl hEnd) q hq
      have hUndone' := replaceAll_error hReady'.isOpen (by simp)
        (Prod.ext rfl (hOutcome.trans hEnd)) q hq
      rw [hUndone, hUndone', undone, undone, h]
  | ok done =>
      have hReplaced := replaceAll_ok hReady.isOpen hApart hNames (Prod.ext rfl hEnd)
      have hReplaced' := replaceAll_ok hReady'.isOpen hApart hNames
        (Prod.ext rfl (hOutcome.trans hEnd))
      by_cases hTarget : ∃ t ∈ begun, q = t.place
      · obtain ⟨t, ht, rfl⟩ := hTarget
        rw [hReplaced.moved t ht, hReplaced'.moved t ht, hStaged t ht]
      · have hOff : ∀ t ∈ begun, q ≠ t.place ∧ q ≠ stagingPlace t :=
          fun t ht => ⟨fun hPlace => hTarget ⟨t, ht, hPlace⟩, hq t ht⟩
        rw [hReplaced.frame q hOff, hReplaced'.frame q hOff, h]

/-- Writing comes to the same in two workspaces: the outcomes are alike, and wherever the files were
the same they are again. -/
structure WrittenAlike (dirs : List Path) (w v v' : Workspace) (files : List OutputFile) :
    Prop where
  outcome : AlikeOutcome dirs w (write v files).2 (write v' files).2
  same : ∀ q, v'.file? q = v.file? q → (write v' files).1.file? q = (write v files).1.file? q

theorem writtenAlike_of_stage_error {s s' : Workspace} {begun : List Path}
    {error error' : FileError} (hStage : stage v files = (s, begun, .error error))
    (hStage' : stage v' files = (s', begun, .error error'))
    (hOutcome : AlikeOutcome dirs w (.error error) (.error error'))
    (hAlike : ∀ p ∈ begun, AlikeAt s s' (stagingPath p))
    (hSame : ∀ q, v'.file? q = v.file? q → s'.file? q = s.file? q) :
    WrittenAlike dirs w v v' files := by
  obtain ⟨hCleanOutcome, hCleanSame⟩ := cleanUp_alike hAlike
  constructor
  · rw [write_of_stage_error_outcome hStage, write_of_stage_error_outcome hStage', hCleanOutcome]
    cases (cleanUp s begun).2 with
    | error worse => exact Or.inl rfl
    | ok done => exact hOutcome
  · intro q hq
    rw [write_of_stage_error hStage, write_of_stage_error hStage']
    exact hCleanSame q (hSame q hq)

theorem writtenAlike_of_stage_ok {s s' : Workspace} {begun : List Path}
    (hClear : AreClear dirs files) (hStage : stage v files = (s, begun, .ok ()))
    (hStage' : stage v' files = (s', begun, .ok ())) (hAlike : ∀ t ∈ begun, AlikeAt s s' t)
    (hSame : ∀ q, v'.file? q = v.file? q → s'.file? q = s.file? q) :
    WrittenAlike dirs w v v' files := by
  have hReady := ready_of_stage_ok hClear hStage
  have hReady' := ready_of_stage_ok hClear hStage'
  obtain ⟨hAll, -, hContents⟩ := stage_ok hStage
  obtain ⟨-, -, hContents'⟩ := stage_ok hStage'
  subst hAll
  have hNames : ∀ t ∈ files.map OutputFile.path, t.name ≠ "" ∧ t.name ≠ ".." :=
    List.forall_mem_map.mpr fun f hf => (hClear.each f hf).named
  have hApart : ∀ t ∈ files.map OutputFile.path, ∀ t' ∈ files.map OutputFile.path,
      t.place ≠ stagingPlace t' :=
    List.forall_mem_map.mpr fun f hf => List.forall_mem_map.mpr (hClear.apart f hf)
  have hNodup : ((files.map OutputFile.path).map stagingPlace).Nodup := by
    rw [List.map_map]
    exact hClear.nodup
  have hEnd : (replaceAll s' [] (files.map OutputFile.path)).2 =
      (replaceAll s [] (files.map OutputFile.path)).2 :=
    replaceAll_alike hNames hNodup hApart hAlike hReady hReady' (List.forall_mem_nil _)
      (List.forall_mem_nil _)
  have hStaged : ∀ t ∈ files.map OutputFile.path,
      s'.file? (stagingPlace t) = s.file? (stagingPlace t) := by
    refine List.forall_mem_map.mpr fun f hf => ?_
    rw [hContents hClear.nodup f hf, hContents' hClear.nodup f hf]
  obtain ⟨w₁, hWrite, -, hNone, hFrame⟩ := write_of_stage_ok hStage hReady.isOpen
  obtain ⟨w₁', hWrite', -, hNone', hFrame'⟩ := write_of_stage_ok hStage' hReady'.isOpen
  refine ⟨Or.inl ?_, fun q hq => ?_⟩
  · rw [hWrite, hWrite', hEnd]
  · rw [hWrite, hWrite']
    by_cases hStaging : ∃ t ∈ files.map OutputFile.path, q = stagingPlace t
    · -- nothing stays staged in either
      obtain ⟨t, ht, rfl⟩ := hStaging
      exact (hNone' t ht).trans (hNone t ht).symm
    · have hOff : ∀ t ∈ files.map OutputFile.path, q ≠ stagingPlace t :=
        fun t ht hPlace => hStaging ⟨t, ht, hPlace⟩
      calc w₁'.file? q
          = (replaceAll s' [] (files.map OutputFile.path)).1.file? q := hFrame' q hOff
        _ = (replaceAll s [] (files.map OutputFile.path)).1.file? q :=
          replaceAll_same (fun t ht => (hNames t ht).1) hApart hReady hReady' hStaged hEnd hOff
            (hSame q hq)
        _ = w₁.file? q := (hFrame q hOff).symm

/-- **Writing files comes to the same in two workspaces that continue one.** -/
theorem write_alike (hClear : AreClear dirs files) (h : Continues dirs w v)
    (h' : Continues dirs w v') : WrittenAlike dirs w v v' files := by
  obtain ⟨hBegun, hOutcome, hParents, hSame⟩ := stage_alike hClear.each h h'
  have hMade := h.trans (continues_stage hClear.each v)
  have hMade' := h'.trans (continues_stage hClear.each v')
  have hTargets : ∀ p ∈ (stage v files).2.1, IsClear dirs p := by
    intro p hp
    obtain ⟨f, hf, rfl⟩ := List.mem_map.mp (stage_begun v files p hp)
    exact hClear.each f hf
  cases hStage : stage v files with
  | mk s result =>
    obtain ⟨begun, staging⟩ := result
    cases hStage' : stage v' files with
    | mk s' result' =>
      obtain ⟨begun', staging'⟩ := result'
      rw [hStage] at hBegun hOutcome hParents hSame hMade hTargets
      rw [hStage'] at hBegun hOutcome hParents hSame hMade'
      simp only at hBegun hOutcome hParents hSame hMade hMade' hTargets
      subst hBegun
      have hStagings : ∀ p ∈ begun', AlikeAt s s' (stagingPath p) := by
        intro p hp
        exact alikeAt_stagingPath (hTargets p hp).named.1 (hParents p hp).1 (hParents p hp).2
          (hMade.hasDirectory_iff hMade' (hTargets p hp).staging)
      cases staging with
      | error error =>
          have hFailed : ∃ error', staging' = .error error' := by
            rcases hOutcome with hEnd | ⟨_, -, _, error', -, hEnd, -⟩
            · exact ⟨error, hEnd⟩
            · exact ⟨error', hEnd⟩
          obtain ⟨error', rfl⟩ := hFailed
          exact writtenAlike_of_stage_error hStage hStage' hOutcome hStagings hSame
      | ok done =>
          -- errors of a directory come in pairs, so the other staging succeeds as well
          have hEnd : staging' = .ok () := by
            rcases hOutcome with hEnd | ⟨_, -, _, _, hError, -⟩
            · exact hEnd
            · cases hError
          subst hEnd
          refine writtenAlike_of_stage_ok hClear hStage hStage' (fun t ht => ?_) hSame
          exact ⟨(hParents t ht).1, (hParents t ht).2,
            hMade.hasDirectory_iff hMade' (hTargets t ht).place⟩

end Outputs

end CommBindings
