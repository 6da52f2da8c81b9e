import CommBindings.Proofs.Contract.SortedTexts
import CommBindings.Proofs.Generation.Atomicity
import CommBindings.Proofs.Workspace.Directories

set_option autoImplicit false

/-! # The documents of a directory

The comms that are discovered in a directory depend only on which files with the names of contract
documents stand in it (`discover_kept`), and the documents of a comm are such files
(`isIn_discover`). So a change of the workspace that keeps its directories and its documents
(`KeepsDocuments`) leaves discovery and loading as they were (`loadComm_kept`). A run that writes is
such a change (`processAll_kept`).
-/

namespace CommBindings

open Workspace

/-! ## The files of a directory -/

namespace Discovery

theorem mem_children {w : Workspace} {place : Place} {name : String} :
    name ∈ w.children place ↔ place ++ [name] ∈ w.entries.map Prod.fst := by
  rw [Workspace.children, List.mem_filterMap, List.mem_map]
  constructor
  · rintro ⟨⟨q, entry⟩, hEntry, hName⟩
    refine ⟨_, hEntry, ?_⟩
    simp only at hName ⊢
    split at hName
    · next hBelow =>
      rw [Bool.and_eq_true, decide_eq_true_eq] at hBelow
      obtain ⟨rest, rfl⟩ := List.isPrefixOf_iff_prefix.mp hBelow.2
      -- what is one name longer than the place ends in that name
      obtain ⟨last, rfl⟩ : ∃ last, rest = [last] := by
        apply List.length_eq_one_iff.mp
        have hLength := hBelow.1
        rw [List.length_append] at hLength
        omega
      rw [List.getLast?_concat] at hName
      rw [Option.some.inj hName]
    · cases hName
  · rintro ⟨entry, hEntry, hPlace⟩
    refine ⟨entry, hEntry, ?_⟩
    simp [hPlace]

/-- A file is one of the entries. -/
theorem listed_of_file {w : Workspace} {place : Place} {name : String}
    (h : (w.file? (place ++ [name])).isSome) : place ++ [name] ∈ w.entries.map Prod.fst := by
  obtain ⟨content, hContent⟩ := Option.isSome_iff_exists.mp h
  have hLookup : w.entries.lookup (place ++ [name]) = some (.file content) := by
    have hEntry := file?_eq_some_iff.mp hContent
    unfold entry? at hEntry
    rwa [if_neg (by simp)] at hEntry
  obtain ⟨before, after, hEntries, -⟩ := List.lookup_eq_some_iff.mp hLookup
  rw [hEntries]
  simp

/-- The names of the files in a directory are those at which files stand. -/
theorem mem_fileNames {w : Workspace} {place : Place} {name : String} :
    name ∈ fileNames w place ↔ (w.file? (place ++ [name])).isSome := by
  have hFile : ((w.entry? (place ++ [name])).map Entry.isFile).getD false =
      (w.file? (place ++ [name])).isSome := by
    rw [file?]
    cases w.entry? (place ++ [name]) with
    | none => rfl
    | some entry => cases entry <;> rfl
  rw [fileNames, mem_sortedTexts, List.mem_filter, mem_children, hFile]
  exact and_iff_right_of_imp listed_of_file

/-- Whether a name is that of a contract document. -/
def isDocument (name : String) : Bool := (classify? name).isSome

theorem child_name (directory : Path) (name : String) : (directory.child name).name = name := by
  rw [Path.name, Path.child, List.getLast?_concat, Option.getD_some]

/-- Only contract documents are gathered. -/
theorem gathered_eq (directory : Path) (names : List String) (found : List CommDocuments) :
    (names.map directory.child).foldlM add found =
      ((names.filter isDocument).map directory.child).foldlM add found := by
  induction names generalizing found with
  | nil => rfl
  | cons name rest ih =>
      rw [List.map_cons, List.foldlM_cons, List.filter_cons]
      split
      · rw [List.map_cons, List.foldlM_cons]
        exact bind_congr fun next => ih next
      · next hOther =>
        have hNone : classify? (directory.child name).name = none := by
          rw [child_name]
          exact Option.not_isSome_iff_eq_none.mp hOther
        have hSkipped : add found (directory.child name) = .ok found := by
          rw [add, hNone]
        rw [hSkipped]
        exact ih found

/-- The name of a contract document leads to a place of its own in a directory. -/
theorem document_place {name comm : String} {direction : Direction}
    (h : classify? name = some (comm, direction)) (directory : Path) :
    (directory.child name).place = directory.place ++ [name] := by
  have hEnding := lastThree_document h
  apply Path.place_child
  · rintro rfl
    revert hEnding
    decide
  · rintro rfl
    revert hEnding
    decide

end Discovery

/-! ## The documents of a comm -/

/-- The documents of a comm are files in a directory and are named for the comm. -/
def CommDocuments.IsIn (w : Workspace) (directory : Path) (d : CommDocuments) : Prop :=
  ∀ direction path, d.document? direction = some path →
    ∃ name, path = directory.child name ∧ Discovery.classify? name = some (d.name, direction) ∧
      (w.file? (directory.place ++ [name])).isSome

/-- The documents of a comm are entries of a directory, have a property of names and are named for
the comm. -/
def CommDocuments.IsFrom (directory : Path) (p : String → Prop) (d : CommDocuments) : Prop :=
  ∀ direction path, d.document? direction = some path →
    ∃ name, path = directory.child name ∧ Discovery.classify? name = some (d.name, direction) ∧
      p name

namespace Discovery

variable {directory : Path} {p : String → Prop}

theorem documentsOf_name (found : List CommDocuments) (comm : String) :
    (documentsOf found comm).name = comm := by
  rw [documentsOf]
  cases hFind : found.find? fun d => d.name = comm with
  | none => rfl
  | some d =>
      have hName := List.find?_some hFind
      exact of_decide_eq_true hName

theorem isFrom_documentsOf {found : List CommDocuments} (h : ∀ d ∈ found, d.IsFrom directory p)
    (comm : String) : (documentsOf found comm).IsFrom directory p := by
  rw [documentsOf]
  cases hFind : found.find? fun d => d.name = comm with
  | none =>
      intro direction path hPath
      cases direction <;> cases hPath
  | some d => exact h d (List.mem_of_find?_eq_some hFind)

theorem isFrom_withDocument {d : CommDocuments} (h : d.IsFrom directory p) {direction : Direction}
    {name : String} (hTold : classify? name = some (d.name, direction)) (hName : p name) :
    (d.withDocument direction (directory.child name)).IsFrom directory p := by
  intro other path hPath
  cases direction <;> cases other
  · cases hPath
    exact ⟨name, rfl, hTold, hName⟩
  · exact h .frontend path hPath
  · exact h .backend path hPath
  · cases hPath
    exact ⟨name, rfl, hTold, hName⟩

theorem mem_insert {found : List CommDocuments} {documents d : CommDocuments}
    (h : d ∈ insert found documents) : d ∈ found ∨ d = documents := by
  rw [insert] at h
  split at h
  · obtain ⟨old, hOld, rfl⟩ := List.mem_map.mp h
    split
    · exact Or.inr rfl
    · exact Or.inl hOld
  · rcases List.mem_append.mp h with h | h
    · exact Or.inl h
    · exact Or.inr (List.mem_singleton.mp h)

theorem isFrom_add {name : String} {found found' : List CommDocuments} (hName : p name)
    (h : ∀ d ∈ found, d.IsFrom directory p)
    (hAdd : add found (directory.child name) = .ok found') :
    ∀ d ∈ found', d.IsFrom directory p := by
  rw [add, child_name] at hAdd
  cases hClass : classify? name with
  | none =>
      rw [hClass] at hAdd
      cases hAdd
      exact h
  | some told =>
      obtain ⟨comm, direction⟩ := told
      rw [hClass] at hAdd
      simp only at hAdd
      split at hAdd
      · cases hAdd
      · cases hAdd
        intro d hd
        rcases mem_insert hd with hd | rfl
        · exact h d hd
        · refine isFrom_withDocument (isFrom_documentsOf h comm) ?_ hName
          rw [documentsOf_name]
          exact hClass

/-- What is gathered from names are entries with these names. -/
theorem isFrom_gathered {names : List String} {found gathered : List CommDocuments}
    (hNames : ∀ name ∈ names, p name) (hFound : ∀ d ∈ found, d.IsFrom directory p)
    (h : (names.map directory.child).foldlM add found = .ok gathered) :
    ∀ d ∈ gathered, d.IsFrom directory p := by
  induction names generalizing found with
  | nil =>
      cases h
      exact hFound
  | cons name rest ih =>
      obtain ⟨hName, hRest⟩ := List.forall_mem_cons.mp hNames
      rw [List.map_cons, List.foldlM_cons] at h
      obtain ⟨next, hNext, h⟩ := bind_eq_ok.mp h
      exact ih hRest (isFrom_add hName hFound hNext) h

end Discovery

theorem discover_ok {w : Workspace} {directory : Path} {found : List CommDocuments}
    (h : discover w directory = .ok found) :
    w.isDirectory directory = .ok true ∧ ∃ gathered,
      (((Discovery.fileNames w directory.place).filter Discovery.isDocument).map
        directory.child).foldlM Discovery.add [] = .ok gathered ∧
      found = gathered.mergeSort fun a b => decide (a.name ≤ b.name) := by
  unfold discover at h
  split at h
  · cases h
  · cases h
  · next hDir =>
    rw [(isDirectory_iff.mp hDir).1] at h
    obtain ⟨gathered, hGathered, hSorted⟩ := bind_eq_ok.mp h
    rw [Discovery.gathered_eq] at hGathered
    exact ⟨hDir, gathered, hGathered, (Except.ok.inj hSorted).symm⟩

theorem discover_of_gathered {w : Workspace} {directory : Path} {gathered : List CommDocuments}
    (hDir : w.isDirectory directory = .ok true)
    (h : (((Discovery.fileNames w directory.place).filter Discovery.isDocument).map
      directory.child).foldlM Discovery.add [] = .ok gathered) :
    discover w directory = .ok (gathered.mergeSort fun a b => decide (a.name ≤ b.name)) := by
  rw [discover, hDir, (isDirectory_iff.mp hDir).1]
  simp only
  rw [Discovery.gathered_eq, h]
  rfl

theorem isIn_discover {w : Workspace} {directory : Path} {found : List CommDocuments}
    (h : discover w directory = .ok found) : ∀ d ∈ found, d.IsIn w directory := by
  obtain ⟨-, gathered, hGathered, rfl⟩ := discover_ok h
  have hFiles : ∀ name ∈ (Discovery.fileNames w directory.place).filter Discovery.isDocument,
      (w.file? (directory.place ++ [name])).isSome :=
    fun name hName => Discovery.mem_fileNames.mp (List.mem_filter.mp hName).1
  have hAll := Discovery.isFrom_gathered hFiles (List.forall_mem_nil _) hGathered
  exact fun d hd => hAll d (List.mem_mergeSort.mp hd)

/-! ## Changes that keep the documents -/

/-- The second workspace has the directories of the first one and the same contract documents. -/
structure KeepsDocuments (w w' : Workspace) : Prop where
  directories : KeepsDirectories w w'
  documents : ∀ directory name comm direction,
    Discovery.classify? name = some (comm, direction) →
      w'.file? (directory ++ [name]) = w.file? (directory ++ [name])

theorem KeepsDocuments.refl (w : Workspace) : KeepsDocuments w w where
  directories := KeepsDirectories.refl w
  documents := fun _ _ _ _ _ => rfl

theorem KeepsDocuments.trans {w w' w'' : Workspace} (h : KeepsDocuments w w')
    (h' : KeepsDocuments w' w'') : KeepsDocuments w w'' where
  directories := h.directories.trans h'.directories
  documents := fun directory name comm direction hName =>
    (h'.documents directory name comm direction hName).trans
      (h.documents directory name comm direction hName)

/-- The same comms are discovered. -/
theorem discover_kept {w w' : Workspace} (h : KeepsDocuments w w') {directory : Path}
    {found : List CommDocuments} (hFound : discover w directory = .ok found) :
    discover w' directory = .ok found := by
  obtain ⟨hDir, gathered, hGathered, rfl⟩ := discover_ok hFound
  have hDir' := isDirectory_kept h.directories hDir
  have hNames : (Discovery.fileNames w' directory.place).filter Discovery.isDocument =
      (Discovery.fileNames w directory.place).filter Discovery.isDocument := by
    refine filter_sortedTexts_congr fun name hDocument => ?_
    obtain ⟨⟨comm, direction⟩, hName⟩ := Option.isSome_iff_exists.mp hDocument
    show name ∈ Discovery.fileNames w' _ ↔ name ∈ Discovery.fileNames w _
    rw [Discovery.mem_fileNames, Discovery.mem_fileNames,
      h.documents directory.place name comm direction hName]
  rw [← hNames] at hGathered
  exact discover_of_gathered hDir' hGathered

/-- The documents of a comm are read as before. -/
theorem readText_kept {w w' : Workspace} (h : KeepsDocuments w w') {directory : Path}
    (hDir : w.isDirectory directory = .ok true) {d : CommDocuments} (hIn : d.IsIn w directory)
    {direction : Direction} {path : Path} (hPath : d.document? direction = some path) :
    w'.readText path = w.readText path := by
  obtain ⟨name, rfl, hName, hFile⟩ := hIn direction path hPath
  obtain ⟨content, hContent⟩ := Option.isSome_iff_exists.mp hFile
  have hContent' := (h.documents directory.place name d.name direction hName).trans hContent
  have hEntry : w'.entry? (directory.child name).place = w.entry? (directory.child name).place := by
    rw [Discovery.document_place hName, file?_eq_some_iff.mp hContent,
      file?_eq_some_iff.mp hContent']
  rw [readText, readText, read_child_kept h.directories hDir hEntry]

theorem loadContract_kept {w w' : Workspace} (h : KeepsDocuments w w') {directory : Path}
    (hDir : w.isDirectory directory = .ok true) {d : CommDocuments} (hIn : d.IsIn w directory)
    (direction : Direction) :
    loadContract w' direction (d.document? direction) =
      loadContract w direction (d.document? direction) := by
  cases hPath : d.document? direction with
  | none => rfl
  | some path =>
      rw [loadContract, loadContract, loadDocument, loadDocument,
        readText_kept h hDir hIn hPath]

/-- The comm is loaded as before. -/
theorem loadComm_kept {w w' : Workspace} (h : KeepsDocuments w w') {directory : Path}
    (hDir : w.isDirectory directory = .ok true) {d : CommDocuments} (hIn : d.IsIn w directory) :
    loadComm w' d = loadComm w d := by
  have hFrontend : loadContract w' .frontend d.frontend = loadContract w .frontend d.frontend :=
    loadContract_kept h hDir hIn .frontend
  have hBackend : loadContract w' .backend d.backend = loadContract w .backend d.backend :=
    loadContract_kept h hDir hIn .backend
  rw [loadComm, loadComm, hFrontend, hBackend]

theorem isIn_kept {w w' : Workspace} (h : KeepsDocuments w w') {directory : Path}
    {d : CommDocuments} (hIn : d.IsIn w directory) : d.IsIn w' directory := by
  intro direction path hPath
  obtain ⟨name, hChild, hName, hFile⟩ := hIn direction path hPath
  refine ⟨name, hChild, hName, ?_⟩
  rw [h.documents directory.place name d.name direction hName]
  exact hFile

/-! ## Runs keep the documents -/

variable {settings : Settings} {formatter : Formatter}

theorem process_kept (formatter : Formatter) (hWrites : settings.checkOnly = false)
    (w : Workspace) (documents : CommDocuments) :
    KeepsDocuments w (settings.process formatter w documents).1 where
  directories := by
    unfold Settings.process
    cases settings.rendition formatter w documents with
    | error fault => exact KeepsDirectories.refl w
    | ok rendition =>
        have hKeeps := Outputs.write_directories w (rendition.files.map GeneratedFile.file)
        simp only [hWrites, Bool.false_eq_true, if_false]
        cases hWrite : Outputs.write w (rendition.files.map GeneratedFile.file) with
        | mk w' outcome =>
          rw [hWrite] at hKeeps
          cases outcome <;> exact hKeeps
  documents := fun directory name _ _ hName =>
    (process_spec hWrites w documents).1 _
      (outside_document settings hName directory documents.name)

/-- The work on a comm comes to the same as before. -/
theorem rendition_kept {w w' : Workspace} (h : KeepsDocuments w w') {directory : Path}
    (hDir : w.isDirectory directory = .ok true) {d : CommDocuments} (hIn : d.IsIn w directory) :
    settings.rendition formatter w' d = settings.rendition formatter w d := by
  rw [Settings.rendition, Settings.rendition, loadComm_kept h hDir hIn]

theorem processAll_kept (formatter : Formatter) (hWrites : settings.checkOnly = false)
    (independent : Bool) (selected : List CommDocuments) (w : Workspace) :
    KeepsDocuments w (settings.processAll formatter independent w selected).1 := by
  induction selected generalizing w with
  | nil => exact KeepsDocuments.refl w
  | cons documents rest ih =>
      have hFirst := process_kept formatter hWrites w documents
      rw [Settings.processAll]
      simp only
      split
      · exact hFirst
      · exact hFirst.trans (ih _)

theorem isIn_plan {w : Workspace} {selected : List CommDocuments} {independent : Bool}
    (h : settings.plan w = .ok (selected, independent)) :
    w.isDirectory settings.commsDir = .ok true ∧
      ∀ d ∈ selected, d.IsIn w settings.commsDir := by
  unfold Settings.plan at h
  obtain ⟨all, hAll, h⟩ := bind_eq_ok.mp h
  obtain ⟨chosen, hChosen, h⟩ := bind_eq_ok.mp h
  obtain ⟨workers, -, hEnd⟩ := bind_eq_ok.mp h
  cases hEnd
  exact ⟨(discover_ok hAll).1,
    fun d hd => isIn_discover hAll d ((select_sublist hChosen).subset hd)⟩

end CommBindings
