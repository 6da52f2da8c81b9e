import CommBindings.Proofs.Generation.Selection

set_option autoImplicit false

/-! # Documents are grouped exactly

The name of a document consists of the name of its comm, the direction and the format in one way only
(`documentName_inj`), and discovery tells documents by it (`classify?_eq_some_iff`). Gathering fails
at the second document of a comm for a direction and not before (`gathered_error`), so a directory is
discovered exactly if no two documents in it are for one comm and direction, and then the comms have
the documents that stand there (`discover_exactly`).
-/

namespace CommBindings

open Workspace

namespace Discovery

/-! ## The names of documents -/

/-- The formats of documents, as their names tell them. -/
def formats : List String := ["json", "yaml", "yml"]

/-- The name of a document. -/
def documentName (comm : String) (direction : Direction) (format : String) : String :=
  comm ++ "-" ++ direction.word ++ "-openrpc." ++ format

/-- The name is that of a document of the comm for the direction. -/
structure IsDocumentName (name comm : String) (direction : Direction) : Prop where
  named : comm ≠ ""
  oneLine : '\n' ∉ comm.toList
  told : ∃ format ∈ formats, name = documentName comm direction format

/-- What stands in the name of a document after that of the comm. -/
def tail (direction : Direction) (format : String) : List Char :=
  ("-" ++ direction.word ++ "-openrpc." ++ format).toList

theorem documentName_toList (comm : String) (direction : Direction) (format : String) :
    (documentName comm direction format).toList = comm.toList ++ tail direction format := by
  simp [documentName, tail]

/-- No tail ends in another one. -/
theorem tail_unique {direction direction' : Direction} : ∀ format ∈ formats, ∀ format' ∈ formats,
    tail direction format <:+ tail direction' format' →
      direction = direction' ∧ format = format' := by
  cases direction <;> cases direction' <;> decide

/-- **A name is that of a document in one way only**, also where the name of the comm looks like
that of a document itself. -/
theorem documentName_inj {comm comm' format format' : String} {direction direction' : Direction}
    (hFormat : format ∈ formats) (hFormat' : format' ∈ formats)
    (h : documentName comm direction format = documentName comm' direction' format') :
    comm = comm' ∧ direction = direction' ∧ format = format' := by
  have hChars : comm.toList ++ tail direction format = comm'.toList ++ tail direction' format' := by
    rw [← documentName_toList, ← documentName_toList, h]
  have hEnd : tail direction format <:+ comm'.toList ++ tail direction' format' :=
    hChars ▸ List.suffix_append _ _
  -- both tails end the name, so one of them ends in the other
  have hSame : direction = direction' ∧ format = format' := by
    rcases List.suffix_or_suffix_of_suffix hEnd (List.suffix_append _ _) with hTail | hTail
    · exact tail_unique _ hFormat _ hFormat' hTail
    · obtain ⟨hDirection, hTold⟩ := tail_unique _ hFormat' _ hFormat hTail
      exact ⟨hDirection.symm, hTold.symm⟩
  obtain ⟨rfl, rfl⟩ := hSame
  exact ⟨String.toList_inj.mp (List.append_cancel_right hChars), rfl, rfl⟩

theorem isDocumentName_unique {name comm comm' : String} {direction direction' : Direction}
    (h : IsDocumentName name comm direction) (h' : IsDocumentName name comm' direction') :
    comm = comm' ∧ direction = direction' := by
  obtain ⟨format, hFormat, rfl⟩ := h.told
  obtain ⟨format', hFormat', hSame⟩ := h'.told
  obtain ⟨hComm, hDirection, -⟩ := documentName_inj hFormat hFormat' hSame
  exact ⟨hComm, hDirection⟩

theorem beforeEnding?_eq_some_iff {ending name front : List Char} :
    beforeEnding? ending name = some front ↔ front ≠ [] ∧ name = front ++ ending := by
  unfold beforeEnding?
  split
  · next hEnds =>
    obtain ⟨hSuffix, hLonger⟩ := Bool.and_eq_true_iff.mp hEnds
    obtain ⟨before, rfl⟩ := List.isSuffixOf_iff_suffix.mp hSuffix
    have hTaken : (before ++ ending).take ((before ++ ending).length - ending.length) = before := by
      simp
    rw [hTaken, Option.some.injEq]
    constructor
    · rintro rfl
      refine ⟨?_, rfl⟩
      rintro rfl
      simp at hLonger
    · rintro ⟨-, hSame⟩
      exact List.append_cancel_right hSame
  · next hNone =>
    refine iff_of_false nofun ?_
    rintro ⟨hSome, rfl⟩
    apply hNone
    have hLonger : ending.length < (front ++ ending).length := by
      have := List.length_pos_iff.mpr hSome
      rw [List.length_append]
      omega
    rw [Bool.and_eq_true, decide_eq_true_eq, List.isSuffixOf_iff_suffix]
    exact ⟨List.suffix_append _ _, hLonger⟩

theorem commOf?_eq (direction : Direction) (name : String) :
    commOf? direction name = formats.findSome? fun format =>
      (beforeEnding? (tail direction format) name.toList).map String.ofList := by
  have hEndings : endings = formats.map fun format => "-openrpc." ++ format := by
    decide
  rw [commOf?, hEndings, List.findSome?_map]
  refine congrArg (fun told => formats.findSome? told) (funext fun format => ?_)
  have hTail : "-" ++ direction.word ++ ("-openrpc." ++ format) =
      "-" ++ direction.word ++ "-openrpc." ++ format := String.append_assoc.symm
  rw [tail, Function.comp, hTail]

/-- The comm is what stands before a tail. -/
theorem isDocumentName_of_commOf? {direction : Direction} {name comm : String}
    (hLine : '\n' ∉ name.toList) (h : commOf? direction name = some comm) :
    IsDocumentName name comm direction := by
  rw [commOf?_eq] at h
  obtain ⟨format, hFormat, hTold⟩ := List.exists_of_findSome?_eq_some h
  obtain ⟨front, hFront, rfl⟩ := Option.map_eq_some_iff.mp hTold
  obtain ⟨hSome, hName⟩ := beforeEnding?_eq_some_iff.mp hFront
  refine ⟨fun hNone => hSome ?_, fun hMem => hLine ?_, format, hFormat, ?_⟩
  · rw [← String.toList_ofList (l := front), hNone]
    rfl
  · rw [hName]
    exact List.mem_append_left _ (by rwa [String.toList_ofList] at hMem)
  · rw [← String.toList_inj, documentName_toList, String.toList_ofList, hName]

theorem isSome_commOf? {direction : Direction} {name comm : String}
    (h : IsDocumentName name comm direction) : (commOf? direction name).isSome = true := by
  obtain ⟨format, hFormat, rfl⟩ := h.told
  rw [commOf?_eq, List.findSome?_isSome_iff]
  refine ⟨format, hFormat, ?_⟩
  have hBefore : beforeEnding? (tail direction format)
      (documentName comm direction format).toList = some comm.toList := by
    refine beforeEnding?_eq_some_iff.mpr ⟨fun hNone => h.named ?_, documentName_toList _ _ _⟩
    exact String.toList_inj.mp hNone
  rw [hBefore]
  rfl

theorem isDocumentName_oneLine {name comm : String} {direction : Direction}
    (h : IsDocumentName name comm direction) : '\n' ∉ name.toList := by
  have hTails : ∀ format ∈ formats, '\n' ∉ tail direction format := by
    cases direction <;> decide
  obtain ⟨format, hFormat, rfl⟩ := h.told
  rw [documentName_toList, List.mem_append, not_or]
  exact ⟨h.oneLine, hTails format hFormat⟩

theorem isDocumentName_of_classify? {name comm : String} {direction : Direction}
    (h : classify? name = some (comm, direction)) : IsDocumentName name comm direction := by
  unfold classify? at h
  split at h
  · cases h
  · next hLine =>
    obtain ⟨found, -, hTold⟩ := List.exists_of_findSome?_eq_some h
    obtain ⟨told, hComm, hSame⟩ := Option.map_eq_some_iff.mp hTold
    cases hSame
    exact isDocumentName_of_commOf? (fun hMem => hLine (List.contains_iff_mem.mpr hMem)) hComm

/-- Documents are told by their names. -/
theorem classify?_eq_some_iff {name comm : String} {direction : Direction} :
    classify? name = some (comm, direction) ↔ IsDocumentName name comm direction := by
  refine ⟨isDocumentName_of_classify?, fun h => ?_⟩
  -- something is told by the name, and it can be nothing else
  have hTold : (classify? name).isSome = true := by
    have hLine : name.toList.contains '\n' = false :=
      Bool.eq_false_of_not_eq_true fun hMem =>
        isDocumentName_oneLine h (List.contains_iff_mem.mp hMem)
    rw [classify?, hLine, if_neg Bool.false_ne_true, List.findSome?_isSome_iff]
    refine ⟨direction, ?_, ?_⟩
    · cases direction <;> decide
    · rw [Option.isSome_map]
      exact isSome_commOf? h
  obtain ⟨⟨comm', direction'⟩, hFound⟩ := Option.isSome_iff_exists.mp hTold
  obtain ⟨rfl, rfl⟩ := isDocumentName_unique h (isDocumentName_of_classify? hFound)
  exact hFound

/-! ## Gathering -/

variable {directory : Path}

theorem document?_withDocument (d : CommDocuments) (direction other : Direction) (path : Path) :
    (d.withDocument direction path).document? other =
      if other = direction then some path else d.document? other := by
  cases direction <;> cases other <;> rfl

/-- A document is only refused where there is another one of the comm for the direction. -/
theorem add_error {found : List CommDocuments} {path : Path} {fault : Fault}
    (h : add found path = .error fault) :
    ∃ comm direction other, classify? path.name = some (comm, direction) ∧
      (documentsOf found comm).document? direction = some other ∧
      fault = .duplicateContract direction.word other.name path.text := by
  unfold add at h
  split at h
  · cases h
  · next comm direction hTold =>
    simp only at h
    split at h
    · next other hOther =>
      cases h
      exact ⟨comm, direction, other, hTold, hOther, rfl⟩
    · cases h

/-- The entry with the name, if it is a document, is the one that was found for its comm. -/
def Holds (directory : Path) (found : List CommDocuments) (name : String) : Prop :=
  ∀ comm direction, classify? name = some (comm, direction) →
    (documentsOf found comm).document? direction = some (directory.child name)

/-- What was added is there, with what was there before. -/
theorem holds_add {found found' : List CommDocuments} {name : String}
    (h : add found (directory.child name) = .ok found') :
    Holds directory found' name ∧
      ∀ other, Holds directory found other → Holds directory found' other := by
  rw [add, child_name] at h
  cases hTold : classify? name with
  | none =>
      rw [hTold] at h
      cases h
      refine ⟨fun comm direction hSome => ?_, fun _ hOther => hOther⟩
      rw [hTold] at hSome
      cases hSome
  | some told =>
      obtain ⟨comm, direction⟩ := told
      simp only [hTold] at h
      split at h
      · cases h
      · next hFree =>
        cases h
        have hFound : ∀ comm' direction',
            (documentsOf (insert found ((documentsOf found comm).withDocument direction
              (directory.child name))) comm').document? direction' =
            if comm' = comm ∧ direction' = direction then some (directory.child name)
            else (documentsOf found comm').document? direction' := by
          intro comm' direction'
          rw [documentsOf_insert, CommDocuments.withDocument_name, documentsOf_name]
          by_cases hSame : comm' = comm
          · subst hSame
            simp only [if_true, true_and, document?_withDocument]
          · simp only [hSame, if_false, false_and]
        refine ⟨fun comm' direction' hSame => ?_, fun other hOther comm' direction' hTold' => ?_⟩
        · rw [hTold] at hSame
          cases hSame
          rw [hFound, if_pos ⟨rfl, rfl⟩]
        · -- there is no document yet where the new one goes
          have hThere := hOther comm' direction' hTold'
          rw [hFound, if_neg, hThere]
          rintro ⟨rfl, rfl⟩
          rw [hFree] at hThere
          cases hThere

/-- All documents that were gathered are there, with those that were there before. -/
theorem holds_gathered {names : List String} {found gathered : List CommDocuments}
    (h : (names.map directory.child).foldlM add found = .ok gathered) :
    (∀ name ∈ names, Holds directory gathered name) ∧
      ∀ other, Holds directory found other → Holds directory gathered other := by
  -- along the fold: a document stays once it is there
  induction names generalizing found with
  | nil =>
      cases h
      exact ⟨List.forall_mem_nil _, fun _ hOther => hOther⟩
  | cons name rest ih =>
      rw [List.map_cons, List.foldlM_cons] at h
      obtain ⟨next, hNext, hRest⟩ := bind_eq_ok.mp h
      obtain ⟨hNew, hKept⟩ := holds_add hNext
      obtain ⟨hAll, hLater⟩ := ih hRest
      exact ⟨List.forall_mem_cons.mpr ⟨hLater name hNew, hAll⟩,
        fun other hOther => hLater other (hKept other hOther)⟩

/-- Every comm that was found has a document. -/
def AllHaveDocuments (found : List CommDocuments) : Prop :=
  ∀ d ∈ found, ∃ direction path, d.document? direction = some path

theorem allHaveDocuments_add {found found' : List CommDocuments} {path : Path}
    (h : AllHaveDocuments found) (hAdd : add found path = .ok found') :
    AllHaveDocuments found' := by
  unfold add at hAdd
  split at hAdd
  · cases hAdd
    exact h
  · next comm direction hTold =>
    simp only at hAdd
    split at hAdd
    · cases hAdd
    · cases hAdd
      intro d hd
      rcases mem_insert hd with hd | rfl
      · exact h d hd
      · exact ⟨direction, path, by rw [document?_withDocument, if_pos rfl]⟩

theorem mem_of_document? {found : List CommDocuments} {comm : String} {direction : Direction}
    {path : Path} (h : (documentsOf found comm).document? direction = some path) :
    documentsOf found comm ∈ found := by
  rw [documentsOf] at h ⊢
  cases hFind : found.find? fun d => d.name = comm with
  | none =>
      rw [hFind] at h
      cases direction <;> cases h
  | some d => exact List.mem_of_find?_eq_some hFind

theorem documentsOf_of_mem {found : List CommDocuments}
    (hNames : (found.map CommDocuments.name).Nodup) {d : CommDocuments} (hd : d ∈ found) :
    documentsOf found d.name = d := by
  cases hFind : found.find? fun other => other.name = d.name with
  | none => exact absurd (decide_eq_true rfl) (List.find?_eq_none.mp hFind d hd)
  | some other =>
      have hName := List.find?_some hFind
      rw [documentsOf, hFind, Option.getD_some]
      exact List.inj_on_of_nodup_map hNames (List.mem_of_find?_eq_some hFind) hd
        (of_decide_eq_true hName)

/-- Gathering fails at the second document of a comm for a direction. -/
theorem gathered_error {names : List String} {fault : Fault}
    (h : (names.map directory.child).foldlM add [] = .error fault) :
    ∃ front name rest other comm direction, names = front ++ name :: rest ∧ other ∈ front ∧
      classify? other = some (comm, direction) ∧ classify? name = some (comm, direction) ∧
      fault = .duplicateContract direction.word other (directory.child name).text := by
  obtain ⟨frontPaths, path, restPaths, found, hSplit, hFound, hAdd⟩ := foldlM_error h
  obtain ⟨front, later, rfl, rfl, hLater⟩ := List.map_eq_append_iff.mp hSplit
  obtain ⟨name, rest, rfl, rfl, -⟩ := List.map_eq_cons_iff.mp hLater
  obtain ⟨comm, direction, path, hTold, hOther, rfl⟩ := add_error hAdd
  rw [child_name] at hTold
  -- what was found so far comes from the names in front
  have hFrom := isFrom_gathered (p := (· ∈ front)) (fun _ hName => hName) (List.forall_mem_nil _)
    hFound
  obtain ⟨other, rfl, hToldOther, hFront⟩ := isFrom_documentsOf hFrom comm direction path hOther
  rw [documentsOf_name] at hToldOther
  refine ⟨front, name, rest, other, comm, direction, rfl, hFront, hToldOther, hTold, ?_⟩
  rw [child_name]

end Discovery

/-! ## Discovery -/

/-- The file at the path lies in the directory and is a document of the comm for the direction. -/
def Workspace.IsDocument (w : Workspace) (directory : Path) (comm : String) (direction : Direction)
    (path : Path) : Prop :=
  ∃ name content, path = directory.child name ∧ Discovery.IsDocumentName name comm direction ∧
    w.entry? (directory.place ++ [name]) = some (.file content)

/-- Two files in the directory are documents of one comm for one direction. -/
def Workspace.HasSharedDocuments (w : Workspace) (directory : Path) : Prop :=
  ∃ comm direction path other, path ≠ other ∧ w.IsDocument directory comm direction path ∧
    w.IsDocument directory comm direction other

/-- The documents in the directory, grouped by comm: each comm that has a document is there once, in
the order of the names, with exactly the documents that it has. -/
structure Workspace.Groups (w : Workspace) (directory : Path) (found : List CommDocuments) :
    Prop where
  ascending : (found.map CommDocuments.name).Pairwise (· < ·)
  comms : ∀ comm, comm ∈ found.map CommDocuments.name ↔
    ∃ direction path, w.IsDocument directory comm direction path
  documents : ∀ d ∈ found, ∀ direction path,
    d.document? direction = some path ↔ w.IsDocument directory d.name direction path

variable {w : Workspace} {directory : Path}

theorem isDocument_iff {comm : String} {direction : Direction} {path : Path} :
    w.IsDocument directory comm direction path ↔ ∃ name, path = directory.child name ∧
      Discovery.classify? name = some (comm, direction) ∧
        name ∈ (Discovery.fileNames w directory.place).filter Discovery.isDocument := by
  have hFile : ∀ name, (∃ content, w.entry? (directory.place ++ [name]) = some (.file content)) ↔
      name ∈ Discovery.fileNames w directory.place := by
    intro name
    rw [Discovery.mem_fileNames, Option.isSome_iff_exists]
    exact exists_congr fun content => file?_eq_some_iff.symm
  refine exists_congr fun name => ?_
  rw [exists_and_left, exists_and_left, hFile, ← Discovery.classify?_eq_some_iff, List.mem_filter,
    Discovery.isDocument]
  refine and_congr_right fun _ => and_congr_right fun hTold => ?_
  rw [hTold]
  exact (and_iff_left rfl).symm

theorem child_inj {name other : String} (h : directory.child name = directory.child other) :
    name = other := by
  rw [← Discovery.child_name directory name, h, Discovery.child_name]

theorem discover_error {fault : Fault} (hDir : w.isDirectory directory = .ok true)
    (h : discover w directory = .error fault) :
    (((Discovery.fileNames w directory.place).filter Discovery.isDocument).map
      directory.child).foldlM Discovery.add [] = .error fault := by
  cases hGathered : (((Discovery.fileNames w directory.place).filter Discovery.isDocument).map
      directory.child).foldlM Discovery.add [] with
  | ok gathered =>
      rw [discover_of_gathered hDir hGathered] at h
      cases h
  | error fault' =>
      rw [discover, hDir, (isDirectory_iff.mp hDir).1] at h
      simp only at h
      rw [Discovery.gathered_eq, hGathered] at h
      exact h

/-- Where discovery fails, it names two documents of one comm for one direction. -/
theorem shared_of_error {fault : Fault} (hDir : w.isDirectory directory = .ok true)
    (h : discover w directory = .error fault) :
    ∃ comm direction path other, path ≠ other ∧ w.IsDocument directory comm direction path ∧
      w.IsDocument directory comm direction other ∧
      fault = .duplicateContract direction.word other.name path.text := by
  obtain ⟨front, name, rest, other, comm, direction, hNames, hOther, hToldOther, hTold, rfl⟩ :=
    Discovery.gathered_error (discover_error hDir h)
  have hNodup : (front ++ name :: rest).Nodup := by
    rw [← hNames]
    exact (nodup_eraseDups _).filter _
  have hDistinct : directory.child name ≠ directory.child other := fun hSame =>
    (List.nodup_append.mp hNodup).2.2 other hOther name List.mem_cons_self (child_inj hSame).symm
  refine ⟨comm, direction, directory.child name, directory.child other, hDistinct,
    isDocument_iff.mpr ⟨name, rfl, hTold, ?_⟩, isDocument_iff.mpr ⟨other, rfl, hToldOther, ?_⟩, ?_⟩
  · rw [hNames]
    exact List.mem_append_right _ List.mem_cons_self
  · rw [hNames]
    exact List.mem_append_left _ hOther
  · rw [Discovery.child_name]

section Gathered

variable {gathered : List CommDocuments}
  (hGathered : (((Discovery.fileNames w directory.place).filter Discovery.isDocument).map
    directory.child).foldlM Discovery.add [] = .ok gathered)

include hGathered

/-- What was gathered are documents in the directory. -/
theorem isDocument_of_gathered {d : CommDocuments} (hd : d ∈ gathered) {direction : Direction}
    {path : Path} (hPath : d.document? direction = some path) :
    w.IsDocument directory d.name direction path := by
  obtain ⟨name, rfl, hTold, hName⟩ :=
    Discovery.isFrom_gathered (fun _ hName => hName) (List.forall_mem_nil _) hGathered
      d hd direction path hPath
  exact isDocument_iff.mpr ⟨name, rfl, hTold, hName⟩

/-- Every document in the directory was gathered. -/
theorem gathered_of_isDocument {comm : String} {direction : Direction} {path : Path}
    (h : w.IsDocument directory comm direction path) :
    (Discovery.documentsOf gathered comm).document? direction = some path := by
  obtain ⟨name, rfl, hTold, hName⟩ := isDocument_iff.mp h
  exact (Discovery.holds_gathered hGathered).1 name hName comm direction hTold

theorem comms_gathered (comm : String) : comm ∈ gathered.map CommDocuments.name ↔
    ∃ direction path, w.IsDocument directory comm direction path := by
  rw [List.mem_map]
  constructor
  · rintro ⟨d, hd, rfl⟩
    have hAll : Discovery.AllHaveDocuments gathered :=
      foldlM_keeps Discovery.AllHaveDocuments
        (fun found path found' => Discovery.allHaveDocuments_add) (List.forall_mem_nil _) hGathered
    obtain ⟨direction, path, hPath⟩ := hAll d hd
    exact ⟨direction, path, isDocument_of_gathered hGathered hd hPath⟩
  · rintro ⟨direction, path, hDocument⟩
    exact ⟨_, Discovery.mem_of_document? (gathered_of_isDocument hGathered hDocument),
      Discovery.documentsOf_name gathered comm⟩

end Gathered

theorem groups_discover {found : List CommDocuments} (h : discover w directory = .ok found) :
    w.Groups directory found := by
  obtain ⟨-, gathered, hGathered, rfl⟩ := discover_ok h
  -- sorting only changes the order
  have hPerm := List.mergeSort_perm gathered fun a b => decide (a.name ≤ b.name)
  have hNodup := nodup_discover h
  have hNames : (gathered.map CommDocuments.name).Nodup :=
    (hPerm.map CommDocuments.name).nodup_iff.mp hNodup
  refine ⟨?_, fun comm => ?_, fun d hd direction path => ?_⟩
  · exact ((sorted_mergeSort _ _).and hNodup).imp fun hOrder =>
      lt_of_le_of_ne hOrder.1 hOrder.2
  · rw [(hPerm.map CommDocuments.name).mem_iff]
    exact comms_gathered hGathered comm
  · have hMem := hPerm.mem_iff.mp hd
    refine ⟨isDocument_of_gathered hGathered hMem, fun hDocument => ?_⟩
    rw [← Discovery.documentsOf_of_mem hNames hMem]
    exact gathered_of_isDocument hGathered hDocument

/-- Where documents were grouped, no two are for one comm and direction. -/
theorem not_shared_of_groups {found : List CommDocuments} (h : w.Groups directory found) :
    ¬ w.HasSharedDocuments directory := by
  rintro ⟨comm, direction, path, other, hOther, hPath, hOtherPath⟩
  obtain ⟨d, hd, rfl⟩ := List.mem_map.mp ((h.comms comm).mpr ⟨direction, path, hPath⟩)
  have hFirst := (h.documents d hd direction path).mpr hPath
  rw [(h.documents d hd direction other).mpr hOtherPath] at hFirst
  exact hOther (Option.some.inj hFirst).symm

/-- **Discovery groups exactly.** A name is that of a document in one way only. In a directory that
is there, discovery fails exactly if two documents are for one comm and direction, and names two
such documents; otherwise what it finds are the comms with documents, in the order of their names,
and the documents that they have. -/
theorem discover_exactly (hDir : w.isDirectory directory = .ok true) :
    (∀ comm comm' direction direction', ∀ format ∈ Discovery.formats,
      ∀ format' ∈ Discovery.formats,
        Discovery.documentName comm direction format =
            Discovery.documentName comm' direction' format' →
          comm = comm' ∧ direction = direction' ∧ format = format') ∧
    ((∃ fault, discover w directory = .error fault) ↔ w.HasSharedDocuments directory) ∧
    (∀ fault, discover w directory = .error fault → ∃ comm direction path other, path ≠ other ∧
      w.IsDocument directory comm direction path ∧ w.IsDocument directory comm direction other ∧
      fault = .duplicateContract direction.word other.name path.text) ∧
    ∀ found, discover w directory = .ok found → w.Groups directory found := by
  refine ⟨fun _ _ _ _ _ hFormat _ hFormat' => Discovery.documentName_inj hFormat hFormat',
    ⟨?_, fun hShared => ?_⟩, fun fault h => shared_of_error hDir h, fun found h => groups_discover h⟩
  · rintro ⟨fault, h⟩
    obtain ⟨comm, direction, path, other, hOther, hPath, hOtherPath, -⟩ := shared_of_error hDir h
    exact ⟨comm, direction, path, other, hOther, hPath, hOtherPath⟩
  · cases hFound : discover w directory with
    | error fault => exact ⟨fault, rfl⟩
    | ok found => exact absurd hShared (not_shared_of_groups (groups_discover hFound))

/-- A directory with two documents whose names are alike, and with a directory named like a
document. -/
def similarDocuments : Workspace :=
  ⟨[(["comms"], .directory),
    (["comms", "ui-backend-openrpc.json"], .file .empty),
    (["comms", "ui-backend-openrpc.json-frontend-openrpc.yml"], .file .empty),
    (["comms", "ui-frontend-openrpc.json"], .directory)]⟩

/-- The directory of the documents. -/
def similarDir : Path := ⟨["comms"]⟩

/-- The comms of the documents. -/
def similarComms : List CommDocuments :=
  [⟨"ui", some (similarDir.child "ui-backend-openrpc.json"), none⟩,
    ⟨"ui-backend-openrpc.json", none,
      some (similarDir.child "ui-backend-openrpc.json-frontend-openrpc.yml")⟩]

theorem fileNames_similar : Discovery.fileNames similarDocuments similarDir.place =
    ["ui-backend-openrpc.json", "ui-backend-openrpc.json-frontend-openrpc.yml"] := by
  cbv

theorem discover_similar : discover similarDocuments similarDir = .ok similarComms := by
  have hGathered : (((Discovery.fileNames similarDocuments similarDir.place).filter
      Discovery.isDocument).map similarDir.child).foldlM Discovery.add [] = .ok similarComms := by
    rw [fileNames_similar]
    decide
  have hSorted : similarComms.mergeSort (fun a b => decide (a.name ≤ b.name)) = similarComms := by
    cbv
  have hDir : similarDocuments.isDirectory similarDir = .ok true := rfl
  rw [discover_of_gathered hDir hGathered, hSorted]

/-- The two documents are of two comms, and the comms are all that there are. -/
theorem discover_exactly_similar : similarDocuments.isDirectory similarDir = .ok true ∧
    ¬ similarDocuments.HasSharedDocuments similarDir ∧
    similarDocuments.Groups similarDir similarComms := by
  have hDir : similarDocuments.isDirectory similarDir = .ok true := rfl
  obtain ⟨-, hFails, -, hGroups⟩ := discover_exactly hDir
  refine ⟨hDir, fun hShared => ?_, hGroups _ discover_similar⟩
  obtain ⟨fault, hFault⟩ := hFails.mpr hShared
  rw [discover_similar] at hFault
  cases hFault

end CommBindings
