import CommBindings.Proofs.Workspace.Operations

set_option autoImplicit false

/-! # Files are written together

Writing files together either gives every target its content or leaves all files as they were,
and in both cases no staged file stays behind (`write_allOrNothing`). The three phases are
described one by one: staging writes at the staging places only (`stage_spec`), replacing either
moves every staged file or undoes what it moved (`replaceAll_error`, `replaceAll_ok`), and cleaning
up removes what was staged (`cleanUp_append`).
-/

namespace CommBindings.Outputs

open Workspace

/-- The place where the file for a target is staged. -/
def stagingPlace (target : Path) : Place := (stagingPath target).place

/-! ## Staging -/

/-- Staging `files` one after another from `w` on comes to `target` and writes its staged file. -/
inductive Staged : Workspace → List OutputFile → Path → Prop where
  | here {w w₁ w₂ : Workspace} {file : OutputFile} {rest : List OutputFile}
      (hParent : w.makeDirectories file.path.parent = (w₁, .ok ()))
      (hName : file.path.name ≠ "")
      (hWrite : w₁.write (stagingPath file.path) (Utf8.encode file.content) = .ok w₂) :
      Staged w (file :: rest) file.path
  | later {w w₁ w₂ : Workspace} {file : OutputFile} {rest : List OutputFile} {target : Path}
      (hParent : w.makeDirectories file.path.parent = (w₁, .ok ()))
      (hName : file.path.name ≠ "")
      (hWrite : w₁.write (stagingPath file.path) (Utf8.encode file.content) = .ok w₂)
      (hRest : Staged w₂ rest target) : Staged w (file :: rest) target

/-- A path with a file stays one. -/
def KeepsFiles (w w' : Workspace) : Prop :=
  ∀ p, w.IsOpen p → (w.file? p.place).isSome → w'.IsOpen p ∧ (w'.file? p.place).isSome

theorem keepsFiles_of_grows {w w' : Workspace} (h : Grows w w') : KeepsFiles w w' := by
  intro p hOpen hFile
  refine ⟨h.isOpen hOpen hFile, ?_⟩
  rw [h.file? p.place]
  exact hFile

theorem keepsFiles_put {w : Workspace} {p : Path} (h : w.IsOpen p) (content : ByteArray) :
    KeepsFiles w (w.put p.place (.file content)) := by
  intro q hOpen hFile
  refine ⟨(h.sameDirectories_put content).isOpen hOpen, ?_⟩
  rw [h.file?_put, Function.update_apply]
  split
  · rfl
  · exact hFile

theorem KeepsFiles.trans {w w' w'' : Workspace} (h : KeepsFiles w w') (h' : KeepsFiles w' w'') :
    KeepsFiles w w'' := by
  intro p hOpen hFile
  obtain ⟨hOpen', hFile'⟩ := h p hOpen hFile
  exact h' p hOpen' hFile'

/-- What staging does: `staged` are the targets whose staged files were written, in order, and
`failed` is the target at which the writing failed, if it did. -/
structure Stages (w w' : Workspace) (files : List OutputFile) (staged failed : List Path) :
    Prop where
  keeps : KeepsFiles w w'
  frame : ∀ q, (∀ p ∈ staged, q ≠ stagingPlace p) → w'.file? q = w.file? q
  isOpen : ∀ p ∈ staged, w'.IsOpen (stagingPath p)
  complete : ∀ p, Staged w files p → p ∈ staged
  targets : ∀ p ∈ staged, ∃ f ∈ files, f.path = p
  closed : failed = [] ∨ ∃ p, failed = [p] ∧ ¬ w'.IsOpen (stagingPath p)

/-- One more file in front of staged ones. -/
theorem Stages.cons {w w₁ w₂ w' : Workspace} {file : OutputFile} {rest : List OutputFile}
    {staged failed : List Path}
    (hParent : w.makeDirectories file.path.parent = (w₁, .ok ()))
    (hWrite : w₁.write (stagingPath file.path) (Utf8.encode file.content) = .ok w₂)
    (h : Stages w₂ w' rest staged failed) :
    Stages w w' (file :: rest) (file.path :: staged) failed := by
  have hGrows : Grows w w₁ := by
    have := makeDirectories_grows w file.path.parent
    rwa [hParent] at this
  obtain ⟨hOpen, hPut⟩ := write_ok hWrite
  subst hPut
  have hOpen' := (hOpen.sameDirectories_put (Utf8.encode file.content)).isOpen hOpen
  have hFile : ((w₁.put (stagingPath file.path).place (.file (Utf8.encode file.content))).file?
      (stagingPath file.path).place).isSome := by
    rw [hOpen.file?_put, Function.update_self]
    rfl
  refine ⟨?_, ?_, ?_, ?_, ?_, h.closed⟩
  · exact ((keepsFiles_of_grows hGrows).trans (keepsFiles_put hOpen _)).trans h.keeps
  · intro q hq
    have hStaging : q ≠ (stagingPath file.path).place := hq file.path List.mem_cons_self
    rw [h.frame q fun p hp => hq p (List.mem_cons_of_mem _ hp), hOpen.file?_put,
      Function.update_of_ne hStaging]
    exact hGrows.file? q
  · intro p hp
    rcases List.mem_cons.mp hp with rfl | hp
    · exact (h.keeps _ hOpen' hFile).1
    · exact h.isOpen p hp
  · intro p hp
    cases hp with
    | here => exact List.mem_cons_self
    | later hParent' hName' hWrite' hRest =>
        rw [hParent] at hParent'
        cases hParent'
        rw [hWrite] at hWrite'
        cases hWrite'
        exact List.mem_cons_of_mem _ (h.complete p hRest)
  · intro p hp
    rcases List.mem_cons.mp hp with rfl | hp
    · exact ⟨file, List.mem_cons_self, rfl⟩
    · obtain ⟨f, hf, hPath⟩ := h.targets p hp
      exact ⟨f, List.mem_cons_of_mem _ hf, hPath⟩

/-- Staging that ends before the first file is written. -/
theorem Stages.none {w w' : Workspace} {files : List OutputFile} {failed : List Path}
    (hGrows : Grows w w') (hNone : ∀ p, ¬ Staged w files p)
    (hClosed : failed = [] ∨ ∃ p, failed = [p] ∧ ¬ w'.IsOpen (stagingPath p)) :
    Stages w w' files [] failed where
  keeps := keepsFiles_of_grows hGrows
  frame := fun q _ => hGrows.file? q
  isOpen := fun _ hp => absurd hp List.not_mem_nil
  complete := fun p hp => absurd hp (hNone p)
  targets := fun _ hp => absurd hp List.not_mem_nil
  closed := hClosed

theorem not_staged_of_parent {w : Workspace} {file : OutputFile} {rest : List OutputFile}
    {error : FileError} (hParent : (w.makeDirectories file.path.parent).2 = .error error)
    (p : Path) : ¬ Staged w (file :: rest) p := by
  intro h
  cases h with
  | here hOk => rw [hOk] at hParent; cases hParent
  | later hOk => rw [hOk] at hParent; cases hParent

theorem not_staged_of_name {w : Workspace} {file : OutputFile} {rest : List OutputFile}
    (hName : file.path.name = "") (p : Path) : ¬ Staged w (file :: rest) p := by
  intro h
  cases h with
  | here _ hNamed => exact hNamed hName
  | later _ hNamed => exact hNamed hName

theorem not_staged_of_write {w w₁ : Workspace} {file : OutputFile} {rest : List OutputFile}
    {error : FileError} (hParent : w.makeDirectories file.path.parent = (w₁, .ok ()))
    (hWrite : w₁.write (stagingPath file.path) (Utf8.encode file.content) = .error error)
    (p : Path) : ¬ Staged w (file :: rest) p := by
  intro h
  cases h with
  | here hOk _ hWritten =>
      rw [hParent] at hOk
      cases hOk
      rw [hWrite] at hWritten
      cases hWritten
  | later hOk _ hWritten =>
      rw [hParent] at hOk
      cases hOk
      rw [hWrite] at hWritten
      cases hWritten

theorem stage_spec (w : Workspace) (files : List OutputFile) :
    ∃ staged failed, (stage w files).2.1 = staged ++ failed ∧
      Stages w (stage w files).1 files staged failed ∧
      ((stage w files).2.2 = .ok () → failed = []) := by
  induction files generalizing w with
  | nil =>
      refine ⟨[], [], rfl, Stages.none (Grows.refl w) ?_ (Or.inl rfl), fun _ => rfl⟩
      intro p hp
      cases hp
  | cons file rest ih =>
      have hGrows := makeDirectories_grows w file.path.parent
      rw [stage]
      cases hParent : w.makeDirectories file.path.parent with
      | mk w₁ outcome =>
        rw [hParent] at hGrows
        cases outcome with
        | error error =>
            -- some directories may have been made by then, but no file was written
            have hFailed : (w.makeDirectories file.path.parent).2 = .error error := by rw [hParent]
            exact ⟨[], [], rfl, Stages.none hGrows (not_staged_of_parent hFailed) (Or.inl rfl),
              fun _ => rfl⟩
        | ok made =>
            simp only
            by_cases hName : file.path.name = ""
            · rw [if_pos hName]
              exact ⟨[], [], rfl, Stages.none hGrows (not_staged_of_name hName) (Or.inl rfl),
                fun _ => rfl⟩
            · rw [if_neg hName]
              cases hWrite : w₁.write (stagingPath file.path) (Utf8.encode file.content) with
              | error error =>
                  refine ⟨[], [file.path], rfl, Stages.none hGrows
                    (not_staged_of_write hParent hWrite) (Or.inr ⟨file.path, rfl, ?_⟩), ?_⟩
                  · -- writing fails only where the path is not open
                    intro hOpen
                    rw [write_of_isOpen hOpen] at hWrite
                    cases hWrite
                  · intro hOk
                    cases hOk
              | ok w₂ =>
                  obtain ⟨staged, failed, hBegun, hStages, hOk⟩ := ih w₂
                  refine ⟨file.path :: staged, failed, ?_, hStages.cons hParent hWrite, hOk⟩
                  exact congrArg (List.cons file.path) hBegun

/-- Staging that succeeds has staged every file. Files with staging places of their own stand there
with their contents. -/
theorem stage_ok {w w' : Workspace} {files : List OutputFile} {begun : List Path}
    (h : stage w files = (w', begun, .ok ())) :
    begun = files.map OutputFile.path ∧ (∀ f ∈ files, f.path.name ≠ "") ∧
      ((files.map fun f => stagingPlace f.path).Nodup →
        ∀ f ∈ files, w'.file? (stagingPlace f.path) = some (Utf8.encode f.content)) := by
  induction files generalizing w begun with
  | nil =>
      rw [stage] at h
      cases h
      exact ⟨rfl, fun f hf => absurd hf List.not_mem_nil, fun _ f hf => absurd hf List.not_mem_nil⟩
  | cons file rest ih =>
      rw [stage] at h
      split at h
      · cases h
      · split at h
        · cases h
        · next w₁ _ hParent hName =>
          split at h
          · cases h
          · next w₂ hWrite =>
            obtain ⟨hOpen, hPut⟩ := write_ok hWrite
            obtain ⟨staged, failed, hBegun, hStages, -⟩ := stage_spec w₂ rest
            cases hRest : stage w₂ rest with
            | mk w₃ result =>
              obtain ⟨begunRest, outcome⟩ := result
              rw [hRest] at h hBegun hStages
              cases h
              obtain ⟨hAll, hNames, hContents⟩ := ih hRest
              refine ⟨congrArg (List.cons file.path) hAll, ?_, ?_⟩
              · intro f hf
                rcases List.mem_cons.mp hf with rfl | hf
                · exact hName
                · exact hNames f hf
              · intro hNodup f hf
                rw [List.map_cons, List.nodup_cons] at hNodup
                rcases List.mem_cons.mp hf with rfl | hf
                · -- the later files are staged elsewhere
                  have hElsewhere : ∀ p ∈ staged, stagingPlace f.path ≠ stagingPlace p := by
                    intro p hp hSame
                    obtain ⟨g, hg, hPath⟩ := hStages.targets p hp
                    apply hNodup.1
                    rw [hSame, ← hPath]
                    exact List.mem_map_of_mem hg
                  rw [hStages.frame _ hElsewhere, hPut, hOpen.file?_put]
                  exact Function.update_self ..
                · exact hContents hNodup.2 f hf

/-! ## Replacing -/

theorem previous_of_isOpen {w : Workspace} {p : Path} (h : w.IsOpen p) :
    previous w p = .ok (w.file? p.place) := by
  unfold previous
  rw [isFile_of_isOpen h]
  simp only [bind, Except.bind]
  cases hFile : w.file? p.place with
  | none => rfl
  | some content =>
      rw [read_of_isOpen h hFile]
      rfl

/-- The files after replacements were undone: each target has its old content again. -/
def undone (files : Place → Option ByteArray) :
    List (Path × Option ByteArray) → Place → Option ByteArray
  | [] => files
  | (target, content) :: rest => undone (Function.update files target.place content) rest

/-- What undoing leaves at a place depends only on what is there. -/
theorem undone_congr {files files' : Place → Option ByteArray} {q : Place}
    (h : files q = files' q) (done : List (Path × Option ByteArray)) :
    undone files done q = undone files' done q := by
  induction done generalizing files files' with
  | nil => exact h
  | cons entry rest ih =>
      obtain ⟨target, content⟩ := entry
      apply ih
      rw [Function.update_apply, Function.update_apply, h]

theorem restore_of_isOpen {w : Workspace} {target : Path} (h : w.IsOpen target)
    (content : Option ByteArray) :
    ∃ w', restore w target content = .ok w' ∧ SameDirectories w w' ∧
      w'.file? = Function.update w.file? target.place content := by
  cases content with
  | none =>
      exact ⟨_, removeIfThere_of_isOpen h, h.sameDirectories_erase, h.file?_erase⟩
  | some content =>
      exact ⟨_, write_of_isOpen h content, h.sameDirectories_put content, h.file?_put content⟩

/-- Undoing replacements cannot fail where their targets are open. -/
theorem rollBack_spec {w : Workspace} {done : List (Path × Option ByteArray)}
    (hOpen : ∀ e ∈ done, w.IsOpen e.1) :
    ∃ w', rollBack w done = (w', .ok ()) ∧ SameDirectories w w' ∧
      w'.file? = undone w.file? done := by
  induction done generalizing w with
  | nil => exact ⟨w, rfl, SameDirectories.refl w, rfl⟩
  | cons entry rest ih =>
      obtain ⟨target, content⟩ := entry
      obtain ⟨w₁, hRestore, hDirs, hFiles⟩ :=
        restore_of_isOpen (hOpen _ List.mem_cons_self) content
      have hOpenRest : ∀ e ∈ rest, w₁.IsOpen e.1 :=
        fun e he => hDirs.isOpen (hOpen e (List.mem_cons_of_mem _ he))
      obtain ⟨w₂, hRest, hDirs', hFiles'⟩ := ih hOpenRest
      refine ⟨w₂, ?_, hDirs.trans hDirs', ?_⟩
      · rw [rollBack, hRestore]
        exact hRest
      · rw [hFiles', hFiles]
        rfl

/-- A replacement takes the staged file to its target, which is open. -/
theorem replace_ok {w w' : Workspace} {target : Path} {replaced : Path × Option ByteArray}
    (hStaging : w.IsOpen (stagingPath target)) (h : replace w target = .ok (w', replaced)) :
    target.name ≠ ".." ∧ w.IsOpen target ∧ replaced = (target, w.file? target.place) ∧
      SameDirectories w w' ∧
      ∃ content, w.file? (stagingPlace target) = some content ∧
        w'.file? = Function.update (Function.update w.file? (stagingPlace target) none)
          target.place (some content) := by
  unfold replace at h
  obtain ⟨old, hPrevious, h⟩ := bind_eq_ok.mp h
  obtain ⟨w₁, hMove, h⟩ := bind_eq_ok.mp h
  cases h
  obtain ⟨hUp, hTarget, entry, hEntry, hMoved⟩ := move_ok hMove
  have hErased := hStaging.sameDirectories_erase.isOpen hTarget
  rw [hStaging.entry_eq] at hEntry
  obtain ⟨content, hContent, hFile⟩ := Option.map_eq_some_iff.mp hEntry
  subst hFile hMoved
  refine ⟨hUp, hTarget, ?_, ?_, content, hContent, ?_⟩
  · rw [previous_of_isOpen hTarget] at hPrevious
    rw [Except.ok.inj hPrevious]
  · exact hStaging.sameDirectories_erase.trans (hErased.sameDirectories_put content)
  · rw [hErased.file?_put, hStaging.file?_erase]
    rfl

/-- The name of a staged file is a name of its own. -/
theorem stagedName_ne (name : String) : name ++ ".tmp" ≠ "" ∧ name ++ ".tmp" ≠ ".." := by
  have hLength : (name ++ ".tmp").length = name.length + 4 := String.length_append ..
  constructor
  · intro h
    rw [h] at hLength
    simp at hLength
  · intro h
    rw [h] at hLength
    have : (".." : String).length = 2 := rfl
    omega

theorem stagingPlace_eq (target : Path) :
    stagingPlace target = Path.place ⟨target.names.dropLast⟩ ++ [target.name ++ ".tmp"] := by
  obtain ⟨hEmpty, hUp⟩ := stagedName_ne target.name
  rw [stagingPlace, stagingPath, Path.withName, Path.place_snoc, Path.descend_name hEmpty hUp]

/-- No target is staged at its own place, not even one without a name or with `..` for a name. -/
theorem place_ne_stagingPlace (target : Path) : target.place ≠ stagingPlace target := by
  rw [stagingPlace_eq]
  intro hSame
  have hLength := congrArg List.length hSame
  rw [List.length_append, List.length_singleton] at hLength
  by_cases hEmpty : target.name = ""
  · have hPlace : target.place = Path.place ⟨target.names.dropLast⟩ :=
      Path.place_of_unnamed hEmpty
    rw [hPlace] at hLength
    omega
  · by_cases hUp : target.name = ".."
    · rw [Path.place_of_name hEmpty, hUp, Path.descend_up, List.length_dropLast] at hLength
      omega
    · rw [Path.place_of_name hEmpty, Path.descend_name hEmpty hUp] at hSame
      have hName := congrArg String.length (List.singleton_inj.mp (List.append_cancel_left hSame))
      rw [String.length_append] at hName
      have hTmp : ".tmp".length = 4 := rfl
      omega

/-- Two names for one target share their staged file. -/
theorem stagingPlace_congr {target other : Path} (hEmpty : target.name ≠ "")
    (hUp : target.name ≠ "..") (hEmpty' : other.name ≠ "") (hUp' : other.name ≠ "..")
    (h : target.place = other.place) : stagingPlace target = stagingPlace other := by
  rw [Path.place_of_name hEmpty, Path.place_of_name hEmpty', Path.descend_name hEmpty hUp,
    Path.descend_name hEmpty' hUp'] at h
  obtain ⟨hParent, hName⟩ := List.append_inj' h rfl
  rw [stagingPlace_eq, stagingPlace_eq, hParent, List.singleton_inj.mp hName]

/-- Targets that are open after a replacement: those replaced before, and its own. -/
theorem isOpen_replaced {w w' : Workspace} {target : Path} {replaced : Path × Option ByteArray}
    {done : List (Path × Option ByteArray)} (hStaging : w.IsOpen (stagingPath target))
    (hDone : ∀ e ∈ done, w.IsOpen e.1) (h : replace w target = .ok (w', replaced)) :
    ∀ e ∈ replaced :: done, w'.IsOpen e.1 := by
  obtain ⟨-, hTarget, hOld, hDirs, -⟩ := replace_ok hStaging h
  intro e he
  rcases List.mem_cons.mp he with rfl | he
  · rw [hOld]
    exact hDirs.isOpen hTarget
  · exact hDirs.isOpen (hDone e he)

theorem replaceAll_directories {w : Workspace} {done : List (Path × Option ByteArray)}
    {targets : List Path} (hStaging : ∀ t ∈ targets, w.IsOpen (stagingPath t))
    (hDone : ∀ e ∈ done, w.IsOpen e.1) : SameDirectories w (replaceAll w done targets).1 := by
  induction targets generalizing w done with
  | nil => exact SameDirectories.refl w
  | cons target rest ih =>
      have hTarget := hStaging target List.mem_cons_self
      rw [replaceAll]
      split
      · next w₁ replaced hReplace =>
        obtain ⟨-, -, -, hDirs, -⟩ := replace_ok hTarget hReplace
        have hStaging₁ : ∀ t ∈ rest, w₁.IsOpen (stagingPath t) :=
          fun t ht => hDirs.isOpen (hStaging t (List.mem_cons_of_mem _ ht))
        exact hDirs.trans (ih hStaging₁ (isOpen_replaced hTarget hDone hReplace))
      · next failure hReplace =>
        obtain ⟨w₁, hRollBack, hDirs, -⟩ := rollBack_spec hDone
        rw [hRollBack]
        exact hDirs

/-- A replacement that fails undoes the ones before it. -/
theorem replaceAll_error {w w' : Workspace} {done : List (Path × Option ByteArray)}
    {targets : List Path} {error : FileError}
    (hStaging : ∀ t ∈ targets, w.IsOpen (stagingPath t)) (hDone : ∀ e ∈ done, w.IsOpen e.1)
    (h : replaceAll w done targets = (w', .error error)) :
    ∀ q, (∀ t ∈ targets, q ≠ stagingPlace t) → w'.file? q = undone w.file? done q := by
  induction targets generalizing w done with
  | nil =>
      rw [replaceAll] at h
      cases h
  | cons target rest ih =>
      rw [replaceAll] at h
      split at h
      · next w₁ replaced hReplace =>
        have hTarget := hStaging target List.mem_cons_self
        obtain ⟨-, -, hOld, hDirs, content, -, hFiles⟩ := replace_ok hTarget hReplace
        have hStaging₁ : ∀ t ∈ rest, w₁.IsOpen (stagingPath t) :=
          fun t ht => hDirs.isOpen (hStaging t (List.mem_cons_of_mem _ ht))
        have hDone₁ := isOpen_replaced hTarget hDone hReplace
        intro q hq
        rw [ih hStaging₁ hDone₁ h q fun t ht => hq t (List.mem_cons_of_mem _ ht), hOld, undone]
        -- the old content of the target is put back over what the replacement wrote there
        apply undone_congr
        by_cases hPlace : q = target.place
        · rw [hPlace, Function.update_self]
        · rw [Function.update_of_ne hPlace, hFiles, Function.update_of_ne hPlace,
            Function.update_of_ne (hq target List.mem_cons_self)]
      · next failure hReplace =>
        obtain ⟨w₁, hRollBack, -, hFiles⟩ := rollBack_spec hDone
        rw [hRollBack] at h
        cases h
        exact fun q _ => congrFun hFiles q

/-- What replacing all targets does. -/
structure Replaced (w w' : Workspace) (targets : List Path) : Prop where
  directories : SameDirectories w w'
  nodup : (targets.map stagingPlace).Nodup
  named : ∀ t ∈ targets, t.name ≠ ".."
  staged : ∀ t ∈ targets, (w.file? (stagingPlace t)).isSome
  isOpen : ∀ t ∈ targets, w'.IsOpen t
  moved : ∀ t ∈ targets, w'.file? t.place = w.file? (stagingPlace t)
  cleared : ∀ t ∈ targets, w'.file? (stagingPlace t) = none
  frame : ∀ q, (∀ t ∈ targets, q ≠ t.place ∧ q ≠ stagingPlace t) → w'.file? q = w.file? q

theorem Replaced.cons {w w₁ w' : Workspace} {target : Path} {rest : List Path}
    {replaced : Path × Option ByteArray}
    (hStaging : w.IsOpen (stagingPath target))
    (hApart : ∀ t ∈ target :: rest, ∀ t' ∈ target :: rest, t.place ≠ stagingPlace t')
    (hNames : ∀ t ∈ target :: rest, t.name ≠ "")
    (hReplace : replace w target = .ok (w₁, replaced)) (h : Replaced w₁ w' rest) :
    Replaced w w' (target :: rest) := by
  obtain ⟨hUp, hTarget, -, hDirs, content, hContent, hFiles⟩ := replace_ok hStaging hReplace
  have hSelf : stagingPlace target ≠ target.place :=
    Ne.symm (hApart target List.mem_cons_self target List.mem_cons_self)
  have hGone : w₁.file? (stagingPlace target) = none := by
    rw [hFiles, Function.update_of_ne hSelf, Function.update_self]
  have hHere : w₁.file? target.place = some content := by
    rw [hFiles, Function.update_self]
  -- a target staged at the same place would find nothing there
  have hOther : ∀ t ∈ rest, stagingPlace t ≠ stagingPlace target := by
    intro t ht hSame
    have := h.staged t ht
    rw [hSame, hGone] at this
    cases this
  have hLater : ∀ t ∈ rest, w₁.file? (stagingPlace t) = w.file? (stagingPlace t) := by
    intro t ht
    have hApart' := Ne.symm
      (hApart target List.mem_cons_self t (List.mem_cons_of_mem _ ht))
    rw [hFiles, Function.update_of_ne hApart', Function.update_of_ne (hOther t ht)]
  have hPlaces : ∀ t ∈ rest, target.place ≠ t.place := by
    intro t ht hSame
    exact hOther t ht (stagingPlace_congr (hNames t (List.mem_cons_of_mem _ ht)) (h.named t ht)
      (hNames target List.mem_cons_self) hUp hSame.symm)
  have hClear : w'.file? (stagingPlace target) = none := by
    rw [h.frame, hGone]
    intro t ht
    exact ⟨Ne.symm (hApart t (List.mem_cons_of_mem _ ht) target List.mem_cons_self),
      Ne.symm (hOther t ht)⟩
  have hMoved : w'.file? target.place = w.file? (stagingPlace target) := by
    rw [h.frame, hHere, hContent]
    intro t ht
    exact ⟨hPlaces t ht, hApart target List.mem_cons_self t (List.mem_cons_of_mem _ ht)⟩
  refine ⟨hDirs.trans h.directories, ?_, ?_, ?_, ?_, ?_, ?_, ?_⟩
  · rw [List.map_cons, List.nodup_cons]
    refine ⟨?_, h.nodup⟩
    intro hMem
    obtain ⟨t, ht, hSame⟩ := List.mem_map.mp hMem
    exact hOther t ht hSame
  · exact List.forall_mem_cons.mpr ⟨hUp, h.named⟩
  · refine List.forall_mem_cons.mpr ⟨?_, ?_⟩
    · rw [hContent]
      rfl
    · intro t ht
      rw [← hLater t ht]
      exact h.staged t ht
  · exact List.forall_mem_cons.mpr ⟨(hDirs.trans h.directories).isOpen hTarget, h.isOpen⟩
  · refine List.forall_mem_cons.mpr ⟨hMoved, ?_⟩
    intro t ht
    rw [h.moved t ht, hLater t ht]
  · exact List.forall_mem_cons.mpr ⟨hClear, h.cleared⟩
  · intro q hq
    obtain ⟨hPlace, hStagingPlace⟩ := hq target List.mem_cons_self
    rw [h.frame q fun t ht => hq t (List.mem_cons_of_mem _ ht), hFiles,
      Function.update_of_ne hPlace, Function.update_of_ne hStagingPlace]

theorem replaceAll_ok {w w' : Workspace} {done : List (Path × Option ByteArray)}
    {targets : List Path} (hStaging : ∀ t ∈ targets, w.IsOpen (stagingPath t))
    (hApart : ∀ t ∈ targets, ∀ t' ∈ targets, t.place ≠ stagingPlace t')
    (hNames : ∀ t ∈ targets, t.name ≠ "") (h : replaceAll w done targets = (w', .ok ())) :
    Replaced w w' targets := by
  induction targets generalizing w done with
  | nil =>
      rw [replaceAll] at h
      cases h
      exact ⟨SameDirectories.refl _, List.nodup_nil, by simp, by simp, by simp, by simp, by simp,
        fun q _ => rfl⟩
  | cons target rest ih =>
      rw [replaceAll] at h
      split at h
      · next w₁ replaced hReplace =>
        have hTarget := hStaging target List.mem_cons_self
        obtain ⟨-, -, -, hDirs, -⟩ := replace_ok hTarget hReplace
        refine Replaced.cons hTarget hApart hNames hReplace (ih ?_ ?_ ?_ h)
        · exact fun t ht => hDirs.isOpen (hStaging t (List.mem_cons_of_mem _ ht))
        · exact fun t ht t' ht' =>
            hApart t (List.mem_cons_of_mem _ ht) t' (List.mem_cons_of_mem _ ht')
        · exact fun t ht => hNames t (List.mem_cons_of_mem _ ht)
      · next failure hReplace =>
        split at h <;> cases h

/-! ## Cleaning up -/

/-- Cleaning up removes the staged files at open paths, and then goes on with the rest. -/
theorem cleanUp_append {w : Workspace} {staged : List Path}
    (hOpen : ∀ p ∈ staged, w.IsOpen (stagingPath p)) (rest : List Path) :
    ∃ w', cleanUp w (staged ++ rest) = cleanUp w' rest ∧ SameDirectories w w' ∧
      (∀ p ∈ staged, w'.file? (stagingPlace p) = none) ∧
      ∀ q, (∀ p ∈ staged, q ≠ stagingPlace p) → w'.file? q = w.file? q := by
  induction staged generalizing w with
  | nil => exact ⟨w, rfl, SameDirectories.refl w, by simp, fun q _ => rfl⟩
  | cons target others ih =>
      have hTarget := hOpen target List.mem_cons_self
      have hDirs := hTarget.sameDirectories_erase
      have hOpen₁ : ∀ p ∈ others, (w.erase (stagingPath target).place).IsOpen (stagingPath p) :=
        fun p hp => hDirs.isOpen (hOpen p (List.mem_cons_of_mem _ hp))
      obtain ⟨w', hRest, hDirs', hNone, hFrame⟩ := ih hOpen₁
      refine ⟨w', ?_, hDirs.trans hDirs', ?_, ?_⟩
      · rw [List.cons_append, cleanUp, removeIfThere_of_isOpen hTarget]
        exact hRest
      · refine List.forall_mem_cons.mpr ⟨?_, hNone⟩
        -- a target that is staged again later is removed once more
        by_cases hAgain : ∃ p ∈ others, stagingPlace target = stagingPlace p
        · obtain ⟨p, hp, hSame⟩ := hAgain
          rw [hSame]
          exact hNone p hp
        · rw [hFrame _ fun p hp hSame => hAgain ⟨p, hp, hSame⟩, hTarget.file?_erase]
          exact Function.update_self ..
      · intro q hq
        have hStaging : q ≠ (stagingPath target).place := hq target List.mem_cons_self
        rw [hFrame q fun p hp => hq p (List.mem_cons_of_mem _ hp), hTarget.file?_erase,
          Function.update_of_ne hStaging]

/-- Where the staging failed, nothing is removed. -/
theorem cleanUp_failed {w : Workspace} {failed : List Path}
    (h : failed = [] ∨ ∃ p, failed = [p] ∧ ¬ w.IsOpen (stagingPath p)) :
    (cleanUp w failed).1 = w := by
  rcases h with rfl | ⟨p, rfl, hClosed⟩
  · rfl
  · rw [cleanUp]
    cases hRemove : w.removeIfThere (stagingPath p) with
    | error error => rfl
    | ok w₁ =>
        rw [removeIfThere_of_not_isOpen hClosed hRemove]
        rfl

/-! ## Together -/

/-- A call has left the files alone: those outside the staging places are as they were, there is no
file that was not there with the same bytes, and every staged file is gone. -/
structure LeftAlone (w w' : Workspace) (files : List OutputFile) : Prop where
  kept : ∀ q, (∀ f ∈ files, q ≠ stagingPlace f.path) → w'.file? q = w.file? q
  nothingNew : ∀ q content, w'.file? q = some content → w.file? q = some content
  removed : ∀ target, Staged w files target → w'.file? (stagingPlace target) = none

/-- A call has written all files: each target holds the bytes of its content, no staged file is
left, and every other file is as it was. -/
structure Written (w w' : Workspace) (files : List OutputFile) : Prop where
  written : ∀ f ∈ files, w'.file? f.path.place = some (Utf8.encode f.content)
  readable : ∀ f ∈ files, w'.read f.path = .ok (Utf8.encode f.content)
  cleared : ∀ f ∈ files, w'.file? (stagingPlace f.path) = none
  kept : ∀ q, (∀ f ∈ files, q ≠ f.path.place ∧ q ≠ stagingPlace f.path) →
    w'.file? q = w.file? q

theorem write_of_stage_error {w w₁ : Workspace} {files : List OutputFile} {begun : List Path}
    {error : FileError} (h : stage w files = (w₁, begun, .error error)) :
    (write w files).1 = (cleanUp w₁ begun).1 := by
  rw [write, h]
  simp only
  split
  · next hClean => rw [hClean]
  · next hClean => rw [hClean]

/-- Once all files are staged, the call ends as the replacing does. -/
theorem write_of_stage_ok {w w₁ : Workspace} {files : List OutputFile} {begun : List Path}
    (h : stage w files = (w₁, begun, .ok ())) (hOpen : ∀ p ∈ begun, w₁.IsOpen (stagingPath p)) :
    ∃ w', write w files = (w', (replaceAll w₁ [] begun).2) ∧
      SameDirectories (replaceAll w₁ [] begun).1 w' ∧
      (∀ p ∈ begun, w'.file? (stagingPlace p) = none) ∧
      ∀ q, (∀ p ∈ begun, q ≠ stagingPlace p) →
        w'.file? q = (replaceAll w₁ [] begun).1.file? q := by
  have hDirs : SameDirectories w₁ (replaceAll w₁ [] begun).1 :=
    replaceAll_directories hOpen (by simp)
  obtain ⟨w', hClean, hSame, hNone, hFrame⟩ :=
    cleanUp_append (fun p hp => hDirs.isOpen (hOpen p hp)) []
  rw [List.append_nil] at hClean
  refine ⟨w', ?_, hSame, hNone, hFrame⟩
  rw [write, h]
  simp only [hClean, cleanUp]

/-- A failed call changes no file but at the places of staged files, and these are empty. -/
theorem write_error_staged {w w' w₁ : Workspace} {files : List OutputFile} {error : FileError}
    {begun staged failed : List Path} {staging : Except FileError Unit}
    (hStage : stage w files = (w₁, begun, staging)) (hBegun : begun = staged ++ failed)
    (hStages : Stages w w₁ files staged failed) (hOk : staging = .ok () → failed = [])
    (h : write w files = (w', .error error)) :
    (∀ p ∈ staged, w'.file? (stagingPlace p) = none) ∧
      ∀ q, (∀ p ∈ staged, q ≠ stagingPlace p) → w'.file? q = w.file? q := by
  subst hBegun
  cases staging with
  | error stageError =>
      obtain ⟨w₂, hClean, hDirs, hNone, hFrame⟩ := cleanUp_append hStages.isOpen failed
      have hClosed : failed = [] ∨ ∃ p, failed = [p] ∧ ¬ w₂.IsOpen (stagingPath p) := by
        -- cleaning up opens no path: it keeps the directories
        rcases hStages.closed with hNil | ⟨p, hFailed, hClosed⟩
        · exact Or.inl hNil
        · exact Or.inr ⟨p, hFailed, fun hOpen => hClosed (hDirs.symm.isOpen hOpen)⟩
      have hEnd : w' = w₂ := by
        have := write_of_stage_error hStage
        rw [h, hClean, cleanUp_failed hClosed] at this
        exact this
      subst hEnd
      exact ⟨hNone, fun q hq => (hFrame q hq).trans (hStages.frame q hq)⟩
  | ok done =>
      have hNil : failed = [] := hOk rfl
      subst hNil
      rw [List.append_nil] at hStage
      obtain ⟨w₂, hWrite, -, hNone, hFrame⟩ := write_of_stage_ok hStage hStages.isOpen
      rw [hWrite] at h
      obtain ⟨hEnd, hOutcome⟩ := Prod.mk.inj h
      subst hEnd
      have hUndone := replaceAll_error hStages.isOpen (by simp) (Prod.ext rfl hOutcome)
      refine ⟨hNone, fun q hq => ?_⟩
      calc w₂.file? q = (replaceAll w₁ [] staged).1.file? q := hFrame q hq
        _ = w₁.file? q := hUndone q hq
        _ = w.file? q := hStages.frame q hq

theorem leftAlone_of_write_error {w w' : Workspace} {files : List OutputFile} {error : FileError}
    (h : write w files = (w', .error error)) : LeftAlone w w' files := by
  obtain ⟨staged, failed, hBegun, hStages, hOk⟩ := stage_spec w files
  obtain ⟨hNone, hFrame⟩ := write_error_staged rfl hBegun hStages hOk h
  refine ⟨?_, ?_, fun target hTarget => hNone target (hStages.complete target hTarget)⟩
  · intro q hq
    apply hFrame
    intro p hp
    obtain ⟨f, hf, hPath⟩ := hStages.targets p hp
    rw [← hPath]
    exact hq f hf
  · intro q content hContent
    by_cases hq : ∃ p ∈ staged, q = stagingPlace p
    · obtain ⟨p, hp, hPlace⟩ := hq
      rw [hPlace, hNone p hp] at hContent
      cases hContent
    · rw [← hFrame q fun p hp hPlace => hq ⟨p, hp, hPlace⟩]
      exact hContent

theorem written_of_write_ok {w w' : Workspace} {files : List OutputFile}
    (hApart : ∀ f ∈ files, ∀ g ∈ files, f.path.place ≠ stagingPlace g.path)
    (h : write w files = (w', .ok ())) : Written w w' files := by
  obtain ⟨staged, failed, hBegun, hStages, hOk⟩ := stage_spec w files
  cases hStage : stage w files with
  | mk w₁ result =>
    obtain ⟨begun, staging⟩ := result
    rw [hStage] at hBegun hStages hOk
    cases staging with
    | error stageError =>
        -- a failed staging is a failed call
        rw [write, hStage] at h
        simp only at h
        split at h <;> cases h
    | ok done =>
        have hNil : failed = [] := hOk rfl
        have hStaged : begun = staged := by
          rw [show begun = staged ++ failed from hBegun, hNil, List.append_nil]
        subst hStaged
        obtain ⟨w₂, hWrite, hSame, hNone, hFrame⟩ := write_of_stage_ok hStage hStages.isOpen
        obtain ⟨hAll, hNames, hContents⟩ := stage_ok hStage
        rw [hWrite] at h
        obtain ⟨hEnd, hOutcome⟩ := Prod.mk.inj h
        subst hEnd hAll
        have hApart' : ∀ t ∈ files.map OutputFile.path, ∀ t' ∈ files.map OutputFile.path,
            t.place ≠ stagingPlace t' := by
          intro t ht t' ht'
          obtain ⟨f, hf, rfl⟩ := List.mem_map.mp ht
          obtain ⟨g, hg, rfl⟩ := List.mem_map.mp ht'
          exact hApart f hf g hg
        have hNames' : ∀ t ∈ files.map OutputFile.path, t.name ≠ "" :=
          List.forall_mem_map.mpr hNames
        have hReplaced := replaceAll_ok hStages.isOpen hApart' hNames' (Prod.ext rfl hOutcome)
        -- every staged file was there when its turn came, so no two shared a staging place
        have hNodup : (files.map fun f => stagingPlace f.path).Nodup := by
          have := hReplaced.nodup
          rwa [List.map_map] at this
        have hOpen : ∀ f ∈ files, w₂.IsOpen f.path := fun f hf =>
          hSame.isOpen (hReplaced.isOpen _ (List.mem_map_of_mem hf))
        have hWritten : ∀ f ∈ files, w₂.file? f.path.place = some (Utf8.encode f.content) := by
          intro f hf
          have hMem : f.path ∈ files.map OutputFile.path := List.mem_map_of_mem hf
          calc w₂.file? f.path.place
              = (replaceAll w₁ [] (files.map OutputFile.path)).1.file? f.path.place :=
                hFrame _ (hApart' _ hMem)
            _ = w₁.file? (stagingPlace f.path) := hReplaced.moved _ hMem
            _ = some (Utf8.encode f.content) := hContents hNodup f hf
        refine ⟨hWritten, fun f hf => read_of_isOpen (hOpen f hf) (hWritten f hf),
          List.forall_mem_map.mp hNone, ?_⟩
        intro q hq
        have hq' : ∀ t ∈ files.map OutputFile.path, q ≠ t.place ∧ q ≠ stagingPlace t :=
          List.forall_mem_map.mpr hq
        rw [hFrame q fun p hp => (hq' p hp).2, hReplaced.frame q hq']
        exact hStages.frame q fun p hp => (hq' p hp).2

/-- **Files are written together or not at all**, wherever a failure strikes. No target may be the
staging place of another one; paths are compared by the places they lead to, as `//a` and `/a`
are one file. -/
theorem write_allOrNothing (w : Workspace) (files : List OutputFile)
    (hApart : ∀ f ∈ files, ∀ g ∈ files, f.path ≠ g.path →
      f.path.place ≠ stagingPlace g.path) :
    match write w files with
    | (w', .error _) => LeftAlone w w' files
    | (w', .ok _) => Written w w' files := by
  split
  · next w' error h => exact leftAlone_of_write_error h
  · next w' done h =>
    have hAll : ∀ f ∈ files, ∀ g ∈ files, f.path.place ≠ stagingPlace g.path := by
      intro f hf g hg
      by_cases hSame : f.path = g.path
      · rw [hSame]
        exact place_ne_stagingPlace g.path
      · exact hApart f hf g hg hSame
    exact written_of_write_ok hAll h

/-- A directory in the way of the second target: nothing of the call is left. -/
theorem leftAlone_directoryTarget :
    let w : Workspace :=
      ⟨[(["out"], .directory), (["out", "a"], .file (Utf8.encode "old")),
        (["out", "b"], .directory)]⟩
    let files : List OutputFile := [⟨⟨["out", "a"]⟩, "new"⟩, ⟨⟨["out", "b"]⟩, "new"⟩]
    (∀ f ∈ files, ∀ g ∈ files, f.path ≠ g.path → f.path.place ≠ stagingPlace g.path) ∧
      LeftAlone w (write w files).1 files := by
  intro w files
  have hApart : ∀ f ∈ files, ∀ g ∈ files, f.path ≠ g.path →
      f.path.place ≠ stagingPlace g.path := by
    decide
  have hFails : (write w files).2.isOk = false := by
    decide +kernel
  refine ⟨hApart, ?_⟩
  have h := write_allOrNothing w files hApart
  split at h
  · next w' error hWrite =>
    rw [hWrite]
    exact h
  · next w' done hWrite =>
    rw [hWrite] at hFails
    cases hFails

end CommBindings.Outputs
