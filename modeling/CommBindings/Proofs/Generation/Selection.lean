import CommBindings.Proofs.Generation.Documents

set_option autoImplicit false

/-! # The comms of a run

If a directory has at most one document for each comm and direction, the documents in it can be
gathered, and the comms that come out are those that have a document (`discover_total`). So settings
that fit a workspace (`Settings.Fits`) have a plan, and the plan has exactly the comms that are asked
for, in the order of their names (`plan_total`).
-/

namespace CommBindings

open Workspace

theorem CommDocuments.withDocument_name (d : CommDocuments) (direction : Direction) (path : Path) :
    (d.withDocument direction path).name = d.name := by
  cases direction <;> rfl

theorem CommDocuments.isSome_withDocument (d : CommDocuments) (direction other : Direction)
    (path : Path) : ((d.withDocument direction path).document? other).isSome = true ↔
      (d.document? other).isSome = true ∨ other = direction := by
  cases direction <;> cases other <;> simp [withDocument, document?]

namespace Discovery

open CommDocuments

/-! ## Gathering -/

theorem name_replaced (d other : CommDocuments) :
    (if other.name = d.name then d else other).name = other.name := by
  split
  · next hSame => exact hSame.symm
  · rfl

/-- What is put in is found under its name, and nothing else changes. -/
theorem documentsOf_insert (found : List CommDocuments) (d : CommDocuments) (comm : String) :
    documentsOf (insert found d) comm = if comm = d.name then d else documentsOf found comm := by
  unfold documentsOf insert
  split
  · next hThere =>
    have hNames : ((fun other : CommDocuments => decide (other.name = comm)) ∘
        fun other : CommDocuments => if other.name = d.name then d else other) =
          fun other => decide (other.name = comm) := by
      funext other
      rw [Function.comp, name_replaced]
    rw [List.find?_map, hNames]
    cases hFind : found.find? fun other => decide (other.name = comm) with
    | none =>
        have hOther : comm ≠ d.name := by
          rintro rfl
          obtain ⟨other, hOther, hName⟩ := List.any_eq_true.mp hThere
          exact List.find?_eq_none.mp hFind other hOther hName
        rw [if_neg hOther]
        rfl
    | some other =>
        have hName := List.find?_some hFind
        rw [Option.map_some, Option.getD_some, Option.getD_some, of_decide_eq_true hName]
  · next hNew =>
    rw [List.find?_append, List.find?_singleton]
    by_cases hSame : d.name = comm
    · subst hSame
      have hNone : found.find? (fun other => decide (other.name = d.name)) = none :=
        List.find?_eq_none.mpr fun other hOther hName =>
          hNew (List.any_eq_true.mpr ⟨other, hOther, hName⟩)
      rw [hNone, if_pos rfl, if_pos (decide_eq_true rfl)]
      rfl
    · rw [if_neg (Ne.symm hSame), if_neg (by simpa using hSame), Option.or_none]

theorem mem_names_insert {found : List CommDocuments} {d : CommDocuments} {comm : String} :
    comm ∈ (insert found d).map CommDocuments.name ↔
      comm = d.name ∨ comm ∈ found.map CommDocuments.name := by
  unfold insert
  split
  · next hThere =>
    obtain ⟨other, hOther, hName⟩ := List.any_eq_true.mp hThere
    rw [map_name_replace]
    refine ⟨Or.inr, ?_⟩
    rintro (rfl | hMem)
    · rw [← of_decide_eq_true hName]
      exact List.mem_map_of_mem hOther
    · exact hMem
  · rw [List.map_append, List.mem_append, or_comm]
    exact or_congr_left List.mem_singleton

/-- The documents that were gathered are those with the given names. -/
structure Gathered (names : List String) (found : List CommDocuments) : Prop where
  documents : ∀ comm direction, ((documentsOf found comm).document? direction).isSome = true ↔
    (comm, direction) ∈ names.filterMap classify?
  comms : ∀ comm, comm ∈ found.map CommDocuments.name ↔
    ∃ direction, (comm, direction) ∈ names.filterMap classify?

theorem gathered_nil : Gathered [] [] where
  documents := fun comm direction => by
    rw [documentsOf]
    cases direction <;> simp [CommDocuments.document?]
  comms := fun comm => by simp

/-- A document can be added if none of those before is for the same comm and direction. -/
theorem gathered_add {names : List String} {found : List CommDocuments}
    (h : Gathered names found) (directory : Path) {name : String}
    (hNew : ((names ++ [name]).filterMap classify?).Nodup) :
    ∃ found', add found (directory.child name) = .ok found' ∧
      Gathered (names ++ [name]) found' := by
  rw [List.filterMap_append] at hNew
  rw [add, child_name]
  cases hTold : classify? name with
  | none =>
      have hSame : (names ++ [name]).filterMap classify? = names.filterMap classify? := by
        simp [hTold]
      refine ⟨found, rfl, ⟨?_, ?_⟩⟩
      · rw [hSame]
        exact h.documents
      · rw [hSame]
        exact h.comms
  | some told =>
      obtain ⟨comm, direction⟩ := told
      have hAll : (names ++ [name]).filterMap classify? =
          names.filterMap classify? ++ [(comm, direction)] := by
        simp [hTold]
      have hFresh : (comm, direction) ∉ names.filterMap classify? := by
        intro hMem
        refine (List.nodup_append.mp hNew).2.2 _ hMem (comm, direction) ?_ rfl
        simp [hTold]
      have hNone : (documentsOf found comm).document? direction = none := by
        rw [← Option.not_isSome_iff_eq_none, h.documents]
        exact hFresh
      simp only [hNone]
      refine ⟨_, rfl, ⟨?_, ?_⟩⟩
      · intro other direction'
        rw [hAll, List.mem_append, List.mem_singleton, Prod.mk.injEq, ← h.documents,
          documentsOf_insert, withDocument_name, documentsOf_name]
        by_cases hOther : other = comm
        · subst hOther
          rw [if_pos rfl, isSome_withDocument, and_iff_right rfl]
        · rw [if_neg hOther]
          simp [hOther]
      · intro other
        simp only [hAll, mem_names_insert, h.comms, withDocument_name, documentsOf_name,
          List.mem_append, List.mem_singleton, Prod.mk.injEq, exists_or, exists_and_left,
          exists_eq, and_true]
        exact or_comm

theorem gathered_total {done names : List String} {found : List CommDocuments}
    (h : Gathered done found) (directory : Path)
    (hUnique : ((done ++ names).filterMap classify?).Nodup) :
    ∃ found', (names.map directory.child).foldlM add found = .ok found' ∧
      Gathered (done ++ names) found' := by
  -- along the fold, of which `done` has been seen
  induction names generalizing done found with
  | nil =>
      rw [List.append_nil]
      exact ⟨found, rfl, h⟩
  | cons name rest ih =>
      rw [List.append_cons] at hUnique ⊢
      have hHere : ((done ++ [name]).filterMap classify?).Nodup := by
        rw [List.filterMap_append] at hUnique
        exact hUnique.of_append_left
      obtain ⟨next, hNext, hGathered⟩ := gathered_add h directory hHere
      obtain ⟨found', hFound, hAll⟩ := ih hGathered hUnique
      refine ⟨found', ?_, hAll⟩
      rw [List.map_cons, List.foldlM_cons, hNext]
      exact hFound

end Discovery

/-! ## Discovery -/

/-- The file with the name in the directory is a document of the comm for the direction. -/
def Workspace.HasDocument (w : Workspace) (directory : Path) (name comm : String)
    (direction : Direction) : Prop :=
  Discovery.classify? name = some (comm, direction) ∧
    (w.file? (directory.place ++ [name])).isSome = true

/-- No two files in the directory are documents of one comm for one direction. -/
def Workspace.HasOwnDocuments (w : Workspace) (directory : Path) : Prop :=
  ∀ name other comm direction, w.HasDocument directory name comm direction →
    w.HasDocument directory other comm direction → name = other

variable {w : Workspace} {directory : Path}

theorem mem_documentNames {comm : String} {direction : Direction} :
    (comm, direction) ∈ ((Discovery.fileNames w directory.place).filter
      Discovery.isDocument).filterMap Discovery.classify? ↔
        ∃ name, w.HasDocument directory name comm direction := by
  rw [List.mem_filterMap]
  refine exists_congr fun name => ?_
  rw [List.mem_filter, Discovery.mem_fileNames, Discovery.isDocument, Workspace.HasDocument,
    and_assoc]
  constructor
  · rintro ⟨hFile, -, hTold⟩
    exact ⟨hTold, hFile⟩
  · rintro ⟨hTold, hFile⟩
    exact ⟨hFile, by rw [hTold]; rfl, hTold⟩

theorem nodup_documentNames (h : w.HasOwnDocuments directory) :
    (((Discovery.fileNames w directory.place).filter Discovery.isDocument).filterMap
      Discovery.classify?).Nodup := by
  rw [List.Nodup, List.pairwise_filterMap]
  have hNames := (nodup_eraseDups _ : (Discovery.fileNames w directory.place).Nodup)
  refine (hNames.filter Discovery.isDocument).imp_of_mem ?_
  intro name other hName hOther hDistinct told hTold told' hTold' hSame
  subst hSame
  have hFile := Discovery.mem_fileNames.mp (List.mem_filter.mp hName).1
  have hFile' := Discovery.mem_fileNames.mp (List.mem_filter.mp hOther).1
  exact hDistinct (h name other told.1 told.2 ⟨hTold, hFile⟩ ⟨hTold', hFile'⟩)

/-- Where every comm has its own documents, the comms that have one are discovered, in the order of
their names. -/
theorem discover_total (hDir : w.isDirectory directory = .ok true)
    (h : w.HasOwnDocuments directory) :
    ∃ found, discover w directory = .ok found ∧
      (found.map CommDocuments.name).Pairwise (· ≤ ·) ∧
      ∀ comm, comm ∈ found.map CommDocuments.name ↔
        ∃ name direction, w.HasDocument directory name comm direction := by
  obtain ⟨gathered, hGathered, hAll⟩ :=
    Discovery.gathered_total Discovery.gathered_nil directory (nodup_documentNames h)
  refine ⟨_, discover_of_gathered hDir hGathered, sorted_mergeSort _ _, fun comm => ?_⟩
  rw [((List.mergeSort_perm _ _).map _).mem_iff, hAll.comms, List.nil_append, exists_comm]
  exact exists_congr fun direction => mem_documentNames

/-! ## The plan -/

/-- The settings can be followed in the workspace: the directory of the contracts is there, every
comm has its own documents, every comm that is asked for has one, and there is a worker. -/
structure Settings.Fits (settings : Settings) (w : Workspace) : Prop where
  directory : w.isDirectory settings.commsDir = .ok true
  documents : w.HasOwnDocuments settings.commsDir
  known : ∀ comm ∈ settings.comms, ∃ name direction,
    w.HasDocument settings.commsDir name comm direction
  workers : ∀ count, settings.workers = some count → 0 < count

/-- The comm is one of the run: it has a document, and it is asked for if any are. -/
def Settings.Selects (settings : Settings) (w : Workspace) (comm : String) : Prop :=
  (∃ name direction, w.HasDocument settings.commsDir name comm direction) ∧
    (settings.comms = [] ∨ comm ∈ settings.comms)

variable {settings : Settings}

theorem sortedTexts_nil : Schema.sortedTexts [] = [] := by
  rw [Schema.sortedTexts, List.mergeSort_nil, List.eraseDups_nil]

/-- Where all comms that are asked for are there, they are the comms of the run. -/
theorem select_of_known {all : List CommDocuments} (hSome : settings.comms ≠ [])
    (h : ∀ comm ∈ settings.comms, comm ∈ all.map CommDocuments.name) :
    settings.select all = .ok (all.filter fun d => settings.comms.contains d.name) := by
  have hKnown : settings.comms.filter
      (fun name => !all.any fun documents => documents.name = name) = [] := by
    refine List.filter_eq_nil_iff.mpr fun name hName => ?_
    obtain ⟨d, hd, rfl⟩ := List.mem_map.mp (h name hName)
    rw [Bool.not_eq_true, Bool.not_eq_false']
    exact List.any_eq_true.mpr ⟨d, hd, decide_eq_true rfl⟩
  have hAsked : settings.comms.isEmpty = false := List.isEmpty_eq_false_iff.mpr hSome
  unfold Settings.select
  simp only [hAsked, hKnown, sortedTexts_nil, Bool.false_eq_true, if_false]

theorem select_total {all : List CommDocuments}
    (h : ∀ comm ∈ settings.comms, comm ∈ all.map CommDocuments.name) :
    ∃ selected, settings.select all = .ok selected ∧
      ∀ comm, comm ∈ selected.map CommDocuments.name ↔
        comm ∈ all.map CommDocuments.name ∧ (settings.comms = [] ∨ comm ∈ settings.comms) := by
  by_cases hSome : settings.comms = []
  · refine ⟨all, ?_, fun comm => ?_⟩
    · rw [Settings.select, hSome]
      rfl
    · simp [hSome]
  · refine ⟨_, select_of_known hSome h, fun comm => ?_⟩
    rw [List.mem_map]
    constructor
    · rintro ⟨d, hd, rfl⟩
      obtain ⟨hAll, hAsked⟩ := List.mem_filter.mp hd
      exact ⟨List.mem_map_of_mem hAll, Or.inr (List.contains_iff_mem.mp hAsked)⟩
    · rintro ⟨hAll, hAsked⟩
      obtain ⟨d, hd, rfl⟩ := List.mem_map.mp hAll
      have hMem : d.name ∈ settings.comms := hAsked.resolve_left hSome
      exact ⟨d, List.mem_filter.mpr ⟨hd, List.contains_iff_mem.mpr hMem⟩, rfl⟩

theorem usesWorkers_total (h : ∀ count, settings.workers = some count → 0 < count)
    (selected : List CommDocuments) :
    ∃ independent, settings.usesWorkers selected = .ok independent := by
  have hNone : (settings.workers.any fun count => count ≤ 0) = false := by
    cases hWorkers : settings.workers with
    | none => rfl
    | some count =>
        rw [Option.any_some, decide_eq_false_iff_not, not_le]
        exact h count hWorkers
  unfold Settings.usesWorkers
  rw [hNone]
  split
  · exact ⟨true, rfl⟩
  · exact ⟨false, rfl⟩

/-- Settings that fit have a plan, with the comms that are asked for in the order of their names. -/
theorem plan_total (h : settings.Fits w) :
    ∃ selected independent, settings.plan w = .ok (selected, independent) ∧
      (selected.map CommDocuments.name).Pairwise (· ≤ ·) ∧
      ∀ comm, comm ∈ selected.map CommDocuments.name ↔ settings.Selects w comm := by
  obtain ⟨all, hAll, hSorted, hNames⟩ := discover_total h.directory h.documents
  obtain ⟨selected, hSelected, hMem⟩ :=
    select_total fun comm hComm => (hNames comm).mpr (h.known comm hComm)
  obtain ⟨independent, hWorkers⟩ := usesWorkers_total h.workers selected
  refine ⟨selected, independent, ?_, ?_, fun comm => ?_⟩
  · exact bind_eq_ok.mpr ⟨all, hAll, bind_eq_ok.mpr
      ⟨selected, hSelected, bind_eq_ok.mpr ⟨independent, hWorkers, rfl⟩⟩⟩
  · exact hSorted.sublist ((select_sublist hSelected).map _)
  · rw [hMem, hNames, Settings.Selects]

end CommBindings
