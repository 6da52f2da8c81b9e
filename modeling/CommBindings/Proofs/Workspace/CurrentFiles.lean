import CommBindings.Proofs.Text.LineEnds
import CommBindings.Proofs.Workspace.Atomicity
import CommBindings.Proofs.Workspace.Directories
import CommBindings.Proofs.Workspace.Faults

set_option autoImplicit false

/-! # Files that are current

A file counts as current if what is read at its path, with the line ends joined, is its content
(`isCurrent_of_text`). That tells exactly whether the bytes on disk are those of the content, but
where bytes are no text and where a carriage return is lost (`isTold_iff`).
-/

namespace CommBindings

open Workspace

/-- The text as it is read back, with its line ends as line feeds. -/
def Utf8.readBack (text : String) : String := String.ofList (joinLineEnds text.toList)

theorem Utf8.readBack_eq_self_iff {text : String} : readBack text = text ↔ '\r' ∉ text.toList := by
  rw [readBack, ← joinLineEnds_eq_self_iff]
  constructor
  · intro h
    have hChars := congrArg String.toList h
    rwa [String.toList_ofList] at hChars
  · intro h
    rw [h, String.ofList_toList]

variable {w : Workspace} {file : OutputFile}

/-! ## What stands at the path -/

/-- Where nothing can be read, the file is not current. -/
theorem isCurrent_of_error (hPath : file.path.holdsNul = false) {error : FileError}
    (h : w.read file.path = .error error) : file.isCurrent w = .ok false := by
  rw [OutputFile.isCurrent, readText, h]
  exact if_pos (read_found hPath error h)

/-- A text is compared as it is read back. -/
theorem isCurrent_of_read {w : Workspace} {file : OutputFile} {text : String}
    (h : w.read file.path = .ok (Utf8.encode text)) :
    file.isCurrent w =
      .ok (decide (String.ofList (Utf8.joinLineEnds text.toList) = file.content)) := by
  rw [OutputFile.isCurrent, readText, h]
  simp only
  rw [Utf8.decodeLines_encode]

/-- Bytes that are no text are a failure. -/
theorem isCurrent_of_undecodable {bytes : ByteArray} (h : w.read file.path = .ok bytes)
    (hBytes : ∀ text, bytes ≠ Utf8.encode text) :
    ∃ failure, file.isCurrent w = .error failure := by
  rw [OutputFile.isCurrent, readText, h]
  simp only
  cases hDecode : Utf8.decode bytes with
  | ok text => exact absurd (Utf8.decode_eq_ok_iff.mp hDecode) (hBytes text)
  | error malformed =>
      refine ⟨.undecodable malformed, ?_⟩
      rw [Utf8.decodeLines, hDecode]
      rfl

/-- The states of the file system at a path: nothing can be read, or a text, or bytes that are
none. -/
theorem read_cases (w : Workspace) (path : Path) :
    (∃ error, w.read path = .error error) ∨
      (∃ text, w.read path = .ok (Utf8.encode text)) ∨
        ∃ bytes, w.read path = .ok bytes ∧ ∀ text, bytes ≠ Utf8.encode text := by
  cases hRead : w.read path with
  | error error => exact Or.inl ⟨error, rfl⟩
  | ok bytes =>
      by_cases hText : ∃ text, bytes = Utf8.encode text
      · obtain ⟨text, rfl⟩ := hText
        exact Or.inr (Or.inl ⟨text, rfl⟩)
      · exact Or.inr (Or.inr ⟨bytes, rfl, not_exists.mp hText⟩)

/-! ## Whether it is told -/

/-- The bytes at the path are those of the content. -/
def OutputFile.IsStored (file : OutputFile) (w : Workspace) : Prop :=
  w.read file.path = .ok (Utf8.encode file.content)

/-- It is told without a failure whether the bytes at the path are those of the content. -/
def OutputFile.IsTold (file : OutputFile) (w : Workspace) : Prop :=
  ∃ isCurrent, file.isCurrent w = .ok isCurrent ∧ (isCurrent = true ↔ file.IsStored w)

/-- No carriage return makes a difference between the text and the content. -/
def OutputFile.IsClearOf (file : OutputFile) (text : String) : Prop :=
  '\r' ∈ text.toList → text ≠ file.content ∧ Utf8.readBack text ≠ file.content

/-- A text is told exactly if no carriage return makes a difference. -/
theorem isTold_text_iff {text : String} (h : w.read file.path = .ok (Utf8.encode text)) :
    file.IsTold w ↔ file.IsClearOf text := by
  have hStored : file.IsStored w ↔ text = file.content := by
    rw [OutputFile.IsStored, h, Except.ok.injEq, Utf8.encode_inj]
  have hTold : file.IsTold w ↔ (Utf8.readBack text = file.content ↔ text = file.content) := by
    rw [← hStored, OutputFile.IsTold, isCurrent_of_read h]
    simp [Utf8.readBack]
  rw [hTold, OutputFile.IsClearOf]
  by_cases hReturn : '\r' ∈ text.toList
  · -- the text differs from what is read back, so they are not both the content
    have hLost : Utf8.readBack text ≠ text := fun hSame =>
      Utf8.readBack_eq_self_iff.mp hSame hReturn
    constructor
    · intro hBoth _
      have hOther : text ≠ file.content := fun hText =>
        hLost ((hBoth.mpr hText).trans hText.symm)
      exact ⟨hOther, fun hRead => hOther (hBoth.mp hRead)⟩
    · intro hNeither
      obtain ⟨hText, hRead⟩ := hNeither hReturn
      exact iff_of_false hRead hText
  · rw [Utf8.readBack_eq_self_iff.mpr hReturn]
    exact iff_of_true Iff.rfl fun hMem => absurd hMem hReturn

/-- It is told whether the bytes at the path are those of the content, exactly if the bytes that
stand there, if any do, are those of a text on which no carriage return makes a difference. -/
theorem isTold_iff (hPath : file.path.holdsNul = false) :
    file.IsTold w ↔ ∀ bytes, w.read file.path = .ok bytes →
      ∃ text, bytes = Utf8.encode text ∧ file.IsClearOf text := by
  rcases read_cases w file.path with ⟨error, hRead⟩ | ⟨text, hRead⟩ | ⟨bytes, hRead, hBytes⟩
  · have hTold : file.IsTold w := by
      refine ⟨false, isCurrent_of_error hPath hRead, ?_⟩
      rw [OutputFile.IsStored, hRead]
      exact iff_of_false Bool.false_ne_true nofun
    refine iff_of_true hTold fun bytes hBytes => ?_
    rw [hRead] at hBytes
    cases hBytes
  · rw [isTold_text_iff hRead]
    constructor
    · intro hClear bytes hBytes
      rw [hRead] at hBytes
      exact ⟨text, (Except.ok.inj hBytes).symm, hClear⟩
    · intro hAll
      obtain ⟨other, hSame, hClear⟩ := hAll _ hRead
      rwa [Utf8.encode_inj.mp hSame]
  · obtain ⟨failure, hFails⟩ := isCurrent_of_undecodable hRead hBytes
    refine iff_of_false ?_ fun hAll => ?_
    · rintro ⟨isCurrent, hCurrent, -⟩
      rw [hFails] at hCurrent
      cases hCurrent
    · obtain ⟨text, hText, -⟩ := hAll bytes hRead
      exact hBytes text hText

/-- There is a failure exactly if the bytes at the path are those of no text. -/
theorem isCurrent_error_iff (hPath : file.path.holdsNul = false) :
    (∃ failure, file.isCurrent w = .error failure) ↔
      ∃ bytes, w.read file.path = .ok bytes ∧ ∀ text, bytes ≠ Utf8.encode text := by
  constructor
  · rintro ⟨failure, hFails⟩
    rcases read_cases w file.path with ⟨error, hRead⟩ | ⟨text, hRead⟩ | hNone
    · rw [isCurrent_of_error hPath hRead] at hFails
      cases hFails
    · rw [isCurrent_of_read hRead] at hFails
      cases hFails
    · exact hNone
  · rintro ⟨bytes, hRead, hBytes⟩
    exact isCurrent_of_undecodable hRead hBytes

/-- A file is current exactly if a text stands there that reads back as its content. -/
theorem isCurrent_true_iff (hPath : file.path.holdsNul = false) :
    file.isCurrent w = .ok true ↔
      ∃ text, w.read file.path = .ok (Utf8.encode text) ∧ Utf8.readBack text = file.content := by
  constructor
  · intro hCurrent
    rcases read_cases w file.path with ⟨error, hRead⟩ | ⟨text, hRead⟩ | ⟨bytes, hRead, hBytes⟩
    · rw [isCurrent_of_error hPath hRead] at hCurrent
      cases hCurrent
    · rw [isCurrent_of_read hRead, Except.ok.injEq, decide_eq_true_eq] at hCurrent
      exact ⟨text, hRead, hCurrent⟩
    · obtain ⟨failure, hFails⟩ := isCurrent_of_undecodable hRead hBytes
      rw [hFails] at hCurrent
      cases hCurrent
  · rintro ⟨text, hRead, hSame⟩
    rw [isCurrent_of_read hRead, Except.ok.injEq, decide_eq_true_eq]
    exact hSame

/-- A file that was just written is current unless its content holds a carriage return. -/
theorem isCurrent_of_write {w₀ : Workspace} {files : List OutputFile}
    (hApart : ∀ f ∈ files, ∀ g ∈ files, f.path.place ≠ Outputs.stagingPlace g.path)
    (hWrite : Outputs.write w₀ files = (w, .ok ())) (hFile : file ∈ files) :
    file.isCurrent w = .ok (decide ('\r' ∉ file.content.toList)) := by
  have hRead := (Outputs.written_of_write_ok hApart hWrite).readable file hFile
  rw [isCurrent_of_read hRead]
  exact congrArg Except.ok (decide_eq_decide.mpr Utf8.readBack_eq_self_iff)

/-- **When a file is current.** Whatever stands at the path, it is told whether that has exactly the
bytes of the content, but for two causes: bytes that are no text, which are a failure, and a text
with a carriage return that is the content or reads back as the content. In particular a file that
was just written is current exactly if its content holds no carriage return. -/
theorem isCurrent_exactly {w : Workspace} {file : OutputFile}
    (hPath : file.path.holdsNul = false) :
    (file.IsTold w ↔ ∀ bytes, w.read file.path = .ok bytes →
      ∃ text, bytes = Utf8.encode text ∧ file.IsClearOf text) ∧
    ((∃ failure, file.isCurrent w = .error failure) ↔
      ∃ bytes, w.read file.path = .ok bytes ∧ ∀ text, bytes ≠ Utf8.encode text) ∧
    (file.isCurrent w = .ok true ↔
      ∃ text, w.read file.path = .ok (Utf8.encode text) ∧ Utf8.readBack text = file.content) ∧
    ∀ before files, (∀ f ∈ files, ∀ g ∈ files, f.path.place ≠ Outputs.stagingPlace g.path) →
      Outputs.write before files = (w, .ok ()) → file ∈ files →
        file.isCurrent w = .ok (decide ('\r' ∉ file.content.toList)) :=
  ⟨isTold_iff hPath, isCurrent_error_iff hPath, isCurrent_true_iff hPath,
    fun _ _ hApart hWrite hFile => isCurrent_of_write hApart hWrite hFile⟩

/-- Two files that were just written, of which the second holds a carriage return. -/
theorem exactly_justWritten :
    let before : Workspace := ⟨[(["out"], .directory)]⟩
    let plain : OutputFile := ⟨⟨["out", "a"]⟩, "x\n"⟩
    let returning : OutputFile := ⟨⟨["out", "b"]⟩, "x\r\n"⟩
    let written := Outputs.write before [plain, returning]
    plain.path.holdsNul = false ∧ returning.path.holdsNul = false ∧ written.2 = .ok () ∧
      plain.IsTold written.1 ∧ plain.isCurrent written.1 = .ok true ∧
      returning.isCurrent written.1 = .ok false := by
  intro before plain returning written
  have hApart : ∀ f ∈ [plain, returning], ∀ g ∈ [plain, returning],
      f.path.place ≠ Outputs.stagingPlace g.path := by
    decide
  have hOk : written.2 = .ok () := by
    decide +kernel
  have hWrite : Outputs.write before [plain, returning] = (written.1, .ok ()) :=
    Prod.ext rfl hOk
  have hRead := (Outputs.written_of_write_ok hApart hWrite).readable plain List.mem_cons_self
  have hPlain : plain.path.holdsNul = false := by
    decide
  have hReturning : returning.path.holdsNul = false := by
    decide
  obtain ⟨hTold, -, -, hCurrent⟩ := isCurrent_exactly (w := written.1) hPlain
  obtain ⟨-, -, -, hStale⟩ := isCurrent_exactly (w := written.1) hReturning
  refine ⟨hPlain, hReturning, hOk, hTold.mpr fun bytes hBytes => ?_, ?_, ?_⟩
  · rw [hRead] at hBytes
    exact ⟨_, (Except.ok.inj hBytes).symm, fun hReturn => absurd hReturn (by decide)⟩
  · rw [hCurrent before _ hApart hWrite List.mem_cons_self]
    decide
  · rw [hStale before _ hApart hWrite (List.mem_cons_of_mem _ List.mem_cons_self)]
    decide

/-- Bytes that are no text are a failure; a text that only reads back as the content counts as
current; and one that is the content, with a carriage return, does not. -/
theorem untold_carriageReturn :
    let w : Workspace :=
      ⟨[(["out"], .directory), (["out", "a"], .file ⟨#[0xff]⟩),
        (["out", "b"], .file (Utf8.encode "x\r\n"))]⟩
    let undecodable : OutputFile := ⟨⟨["out", "a"]⟩, "x"⟩
    let other : OutputFile := ⟨⟨["out", "b"]⟩, "x\n"⟩
    let same : OutputFile := ⟨⟨["out", "b"]⟩, "x\r\n"⟩
    ((undecodable.isCurrent w).isOk = false ∧ ¬ undecodable.IsTold w) ∧
      (other.isCurrent w = .ok true ∧ ¬ other.IsTold w) ∧
      same.isCurrent w = .ok false ∧ ¬ same.IsTold w := by
  intro w undecodable other same
  have hFails : (undecodable.isCurrent w).isOk = false := by
    decide +kernel
  have hReadOther : w.read other.path = .ok (Utf8.encode "x\r\n") := rfl
  have hRead : w.read same.path = .ok (Utf8.encode "x\r\n") := rfl
  have hOther : other.isCurrent w = .ok true := by
    rw [isCurrent_of_read hReadOther]
    decide
  have hSame : same.isCurrent w = .ok false := by
    rw [isCurrent_of_read hRead]
    decide
  refine ⟨⟨hFails, ?_⟩, ⟨hOther, ?_⟩, hSame, ?_⟩
  · rintro ⟨isCurrent, hCurrent, -⟩
    rw [hCurrent] at hFails
    cases hFails
  · rw [isTold_text_iff hReadOther]
    exact fun hClear => (hClear (by decide)).2 (by decide)
  · rw [isTold_text_iff hRead]
    exact fun hClear => (hClear (by decide)).1 rfl

end CommBindings
