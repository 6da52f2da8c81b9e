import CommBindings.Text.Wrap
import Mathlib

set_option autoImplicit false

/-! # Wrapping loses no words

The words of a text are its maximal runs of characters that are no separators (`words`). Wrapping
keeps them all, in order, but for those that trimming would remove (`wrap_keeps_words`).

A spaced text is a sequence of runs of spaces and words in turn (`InTurn`), so the words of any part
of the sequence are its chunks that are no spaces (`words_flatten`). The rows behind the lines are such
parts, and what is left out between them is blank (`IsLayout`).
-/

namespace CommBindings.Text

/-! ## Words -/

/-- The words of a text, in order. -/
def words (text : List Char) : List (List Char) :=
  (text.splitOnP isSeparator).filter fun run => !run.isEmpty

/-- Whether trimming leaves something of the text. -/
def isVisible (text : List Char) : Bool := !isBlankText text

/-- The words of which trimming leaves something. -/
def visibleWords (text : List Char) : List (List Char) := (words text).filter isVisible

theorem words_nil : words [] = [] := by
  simp [words, List.splitOnP_nil]

/-- Words end at a separator. -/
theorem words_append_separator {c : Char} (hc : isSeparator c = true) (front rest : List Char) :
    words (front ++ c :: rest) = words front ++ words rest := by
  rw [words, List.splitOnP_append_cons front rest hc, List.filter_append]
  rfl

theorem words_cons_separator {c : Char} (hc : isSeparator c = true) (rest : List Char) :
    words (c :: rest) = words rest := by
  have h := words_append_separator hc [] rest
  rwa [words_nil, List.nil_append, List.nil_append] at h

theorem words_append_of_head {front rest : List Char}
    (h : ∀ c ∈ rest.head?, isSeparator c = true) :
    words (front ++ rest) = words front ++ words rest := by
  cases rest with
  | nil => rw [List.append_nil, words_nil, List.append_nil]
  | cons c rest =>
      have hc : isSeparator c = true := h c rfl
      rw [words_append_separator hc, words_cons_separator hc]

theorem words_separators_append {gap : List Char} (h : ∀ c ∈ gap, isSeparator c = true)
    (rest : List Char) : words (gap ++ rest) = words rest := by
  induction gap with
  | nil => rfl
  | cons c more ih =>
      obtain ⟨hc, hMore⟩ := List.forall_mem_cons.mp h
      rw [List.cons_append, words_cons_separator hc, ih hMore]

/-- A text without separators is one word. -/
theorem words_run {word : List Char} (hne : word ≠ [])
    (h : ∀ c ∈ word, isSeparator c = false) : words word = [word] := by
  rw [words, List.splitOnP_eq_singleton h]
  simp [hne]

/-! ## Spaces in place of separators -/

theorem isSeparator_space : isSeparator ' ' = true := by
  decide

/-- A separator gives some spaces, after which another column is reached. -/
theorem spaced_separator (column : Nat) {c : Char} (hc : isSeparator c = true) (rest : List Char) :
    ∃ gap column', gap ≠ [] ∧ (∀ d ∈ gap, d = ' ') ∧
      spaced column (c :: rest) = gap ++ spaced column' rest := by
  rw [spaced]
  split
  · refine ⟨_, _, ?_, fun d hd => List.eq_of_mem_replicate hd, rfl⟩
    rw [ne_eq, List.replicate_eq_nil_iff]
    omega
  · split <;> exact ⟨[' '], _, List.cons_ne_nil _ _, fun d hd => List.mem_singleton.mp hd, rfl⟩

theorem spaced_of_not_separator (column : Nat) {c : Char} (hc : isSeparator c = false)
    (rest : List Char) : spaced column (c :: rest) = c :: spaced (column + 1) rest := by
  have hTab : c ≠ '\t' := by
    rintro rfl
    revert hc
    decide
  have hEnd : ¬ (c = '\n' || c = '\r') = true := by
    rw [Bool.or_eq_true, decide_eq_true_eq, decide_eq_true_eq]
    rintro (rfl | rfl) <;> revert hc <;> decide
  rw [spaced, if_neg hTab, if_neg hEnd, hc, if_neg Bool.false_ne_true]

/-- No separator but the space is left. -/
theorem spaced_separators (column : Nat) (text : List Char) :
    ∀ c ∈ spaced column text, isSeparator c = true → c = ' ' := by
  induction text generalizing column with
  | nil => exact List.forall_mem_nil _
  | cons c rest ih =>
      cases hc : isSeparator c with
      | true =>
          obtain ⟨gap, column', -, hGap, hSpaced⟩ := spaced_separator column hc rest
          rw [hSpaced]
          exact List.forall_mem_append.mpr ⟨fun d hd _ => hGap d hd, ih column'⟩
      | false =>
          rw [spaced_of_not_separator column hc]
          refine List.forall_mem_cons.mpr ⟨fun hSeparator => ?_, ih _⟩
          rw [hc] at hSeparator
          cases hSeparator

/-- The words stay as they are, also one that began in front. -/
theorem words_append_spaced (front : List Char) (column : Nat) (text : List Char) :
    words (front ++ spaced column text) = words (front ++ text) := by
  induction text generalizing front column with
  | nil => rfl
  | cons c rest ih =>
      cases hc : isSeparator c with
      | true =>
          obtain ⟨gap, column', hne, hGap, hSpaced⟩ := spaced_separator column hc rest
          obtain ⟨d, more, rfl⟩ := List.exists_cons_of_ne_nil hne
          have hAll : ∀ x ∈ d :: more, isSeparator x = true := fun x hx => by
            rw [hGap x hx]
            exact isSeparator_space
          obtain ⟨hd, hMore⟩ := List.forall_mem_cons.mp hAll
          have hRest : words (spaced column' rest) = words rest := ih [] column'
          rw [hSpaced, List.cons_append, words_append_separator hd, words_append_separator hc,
            words_separators_append hMore, hRest]
      | false =>
          rw [spaced_of_not_separator column hc, List.append_cons, ih, ← List.append_cons]

theorem words_spaced (column : Nat) (text : List Char) :
    words (spaced column text) = words text :=
  words_append_spaced [] column text

/-! ## Chunks -/

/-- Whether a chunk is a run of spaces. -/
def isGap (chunk : List Char) : Bool := chunk.all (· == ' ')

theorem isVisible_of_isGap {chunk : List Char} (h : isGap chunk = true) :
    isVisible chunk = false := by
  rw [isVisible, Bool.not_eq_false', isBlankText, List.all_eq_true]
  intro c hc
  rw [eq_of_beq (List.all_eq_true.mp h c hc)]
  exact isBlank_space

/-- Runs of spaces and words in turn. -/
structure InTurn (row : List (List Char)) : Prop where
  nonempty : ∀ chunk ∈ row, chunk ≠ []
  solid : ∀ chunk ∈ row, isGap chunk = false → ∀ c ∈ chunk, isSeparator c = false
  alternates : row.IsChain fun chunk next => isGap next = !isGap chunk

theorem InTurn.part {row text : List (List Char)} (h : InTurn text) (hPart : row <:+: text) :
    InTurn row where
  nonempty := fun chunk hChunk => h.nonempty chunk (hPart.subset hChunk)
  solid := fun chunk hChunk => h.solid chunk (hPart.subset hChunk)
  alternates := h.alternates.infix hPart

/-- The characters of a chunk are all spaces, or none of them is. -/
theorem spaces_of_isChain {chunk : List Char}
    (h : chunk.IsChain fun a b => ((a == ' ') == (b == ' ')) = true) :
    ∀ c ∈ chunk, (c == ' ') = isGap chunk := by
  induction chunk with
  | nil => exact List.forall_mem_nil _
  | cons c rest ih =>
      cases rest with
      | nil =>
          refine List.forall_mem_singleton.mpr ?_
          rw [isGap, List.all_cons, List.all_nil, Bool.and_true]
      | cons d more =>
          rw [List.isChain_cons_cons] at h
          have hSame : (c == ' ') = (d == ' ') := eq_of_beq h.1
          have hRest := ih h.2
          have hHead : (d == ' ') = isGap (d :: more) := hRest d List.mem_cons_self
          have hGap : isGap (c :: d :: more) = isGap (d :: more) := by
            rw [isGap, List.all_cons, hSame, hHead]
            exact Bool.and_self _
          rw [hGap]
          exact List.forall_mem_cons.mpr ⟨hSame.trans hHead, hRest⟩

theorem spaces_of_mem_chunks {text chunk : List Char} (h : chunk ∈ chunks text) :
    ∀ c ∈ chunk, (c == ' ') = isGap chunk :=
  spaces_of_isChain (List.isChain_of_mem_splitBy h)

theorem flatten_chunks (text : List Char) : (chunks text).flatten = text :=
  List.flatten_splitBy _ text

/-- The chunks of a text whose only separators are spaces come in turn. -/
theorem inTurn_chunks {text : List Char} (h : ∀ c ∈ text, isSeparator c = true → c = ' ') :
    InTurn (chunks text) where
  nonempty := fun chunk hChunk => List.ne_nil_of_mem_splitBy hChunk
  solid := by
    intro chunk hChunk hWord c hc
    have hText : c ∈ text := by
      rw [← flatten_chunks text]
      exact List.mem_flatten_of_mem hChunk hc
    have hOther : (c == ' ') = false := (spaces_of_mem_chunks hChunk c hc).trans hWord
    refine Bool.eq_false_of_not_eq_true fun hSeparator => ?_
    rw [h c hText hSeparator] at hOther
    cases hOther
  alternates := by
    refine (List.isChain_getLast_head_splitBy _ text).imp_of_mem_imp ?_
    rintro chunk next hChunk hNext ⟨hLast, hHead, hDiffer⟩
    rw [spaces_of_mem_chunks hChunk _ (List.getLast_mem hLast),
      spaces_of_mem_chunks hNext _ (List.head_mem hHead), beq_eq_false_iff_ne] at hDiffer
    exact Bool.eq_not_of_ne hDiffer.symm

/-- The words of chunks that come in turn are those that are no spaces. -/
theorem words_flatten {row : List (List Char)} (h : InTurn row) :
    words row.flatten = row.filter fun chunk => !isGap chunk := by
  induction row with
  | nil => exact words_nil
  | cons chunk rest ih =>
      have hRest := ih (h.part (List.suffix_cons chunk rest).isInfix)
      rw [List.flatten_cons, List.filter_cons]
      cases hGap : isGap chunk with
      | true =>
          have hSpaces : ∀ c ∈ chunk, isSeparator c = true := fun c hc => by
            rw [eq_of_beq (List.all_eq_true.mp hGap c hc)]
            exact isSeparator_space
          rw [words_separators_append hSpaces, hRest]
          rfl
      | false =>
          have hWord := words_run (h.nonempty chunk List.mem_cons_self)
            (h.solid chunk List.mem_cons_self hGap)
          -- what follows a word begins with a space, so the word ends there
          have hHead : ∀ c ∈ rest.flatten.head?, isSeparator c = true := by
            cases rest with
            | nil => exact fun c hc => absurd hc (Option.not_mem_none c)
            | cons next more =>
                have hNext : isGap next = true := by
                  rw [(List.isChain_cons_cons.mp h.alternates).1, hGap]
                  rfl
                have hNonempty := h.nonempty next (List.mem_cons_of_mem _ List.mem_cons_self)
                intro c hc
                rw [List.flatten_cons, List.head?_append_of_ne_nil _ hNonempty] at hc
                have hMem : c ∈ next := List.mem_of_mem_head? hc
                rw [eq_of_beq (List.all_eq_true.mp hNext c hMem)]
                exact isSeparator_space
          rw [words_append_of_head hHead, hWord, hRest]
          rfl

/-- The visible words of chunks that come in turn are the visible chunks. -/
theorem visibleWords_flatten {row : List (List Char)} (h : InTurn row) :
    visibleWords row.flatten = row.filter isVisible := by
  rw [visibleWords, words_flatten h, List.filter_filter]
  refine List.filter_congr fun chunk _ => ?_
  cases hGap : isGap chunk with
  | true => rw [isVisible_of_isGap hGap, Bool.false_and]
  | false => exact Bool.and_true _

/-! ## Rows -/

theorem fill_append (width used : Nat) (text : List (List Char)) :
    (fill width used text).1 ++ (fill width used text).2 = text := by
  induction text generalizing used with
  | nil => rfl
  | cons chunk rest ih =>
      rw [fill]
      split
      · exact congrArg (List.cons chunk) (ih _)
      · rfl

theorem length_fill_row {width used : Nat} (h : used ≤ width) (text : List (List Char)) :
    used + (fill width used text).1.flatten.length ≤ width := by
  induction text generalizing used with
  | nil => exact h
  | cons chunk rest ih =>
      rw [fill]
      split
      · next hFits =>
        have hRest := ih hFits
        simp only [List.flatten_cons, List.length_append] at hRest ⊢
        omega
      · exact h

/-- A row takes chunks off the head of the text; they fit, or there is but one. -/
theorem takeLine_spec (width : Nat) (chunk : List Char) (rest : List (List Char)) :
    (takeLine width (chunk :: rest)).1 ++ (takeLine width (chunk :: rest)).2 = chunk :: rest ∧
      ((takeLine width (chunk :: rest)).1.flatten.length ≤ width ∨
        (takeLine width (chunk :: rest)).1 = [chunk]) := by
  have hAll := fill_append width 0 (chunk :: rest)
  have hFits := length_fill_row (Nat.zero_le width) (chunk :: rest)
  rw [takeLine]
  split
  · next first others hNone =>
    rw [hNone] at hAll
    cases hAll
    exact ⟨rfl, Or.inr rfl⟩
  · rw [Nat.zero_add] at hFits
    exact ⟨hAll, Or.inl hFits⟩

theorem dropTrailingBlank_spec (row : List (List Char)) :
    dropTrailingBlank row <+: row ∧
      (dropTrailingBlank row).filter isVisible = row.filter isVisible := by
  rw [dropTrailingBlank]
  split
  · next chunk hLast =>
    split
    · next hBlank =>
      obtain ⟨front, rfl⟩ := List.getLast?_eq_some_iff.mp hLast
      rw [List.dropLast_concat, List.filter_append]
      refine ⟨List.prefix_append _ _, ?_⟩
      simp [isVisible, hBlank]
    · exact ⟨List.prefix_rfl, rfl⟩
  · exact ⟨List.prefix_rfl, rfl⟩

theorem dropLeadingBlank_spec (text : List (List Char)) :
    dropLeadingBlank text <:+ text ∧
      (dropLeadingBlank text).filter isVisible = text.filter isVisible := by
  cases text with
  | nil => exact ⟨List.suffix_rfl, rfl⟩
  | cons chunk rest =>
      rw [dropLeadingBlank]
      split
      · next hBlank =>
        refine ⟨List.suffix_cons _ _, ?_⟩
        simp [isVisible, hBlank]
      · exact ⟨List.suffix_rfl, rfl⟩

/-- A row fits, or it is a single visible chunk. -/
def RowFits (width : Nat) (row : List (List Char)) : Prop :=
  row.flatten.length ≤ width ∨ ∃ chunk, row = [chunk] ∧ isVisible chunk = true

/-- Rows that are parts of the text and fit, with all visible chunks of it. -/
structure IsLayout (width : Nat) (text : List (List Char)) (rows : List (List (List Char))) :
    Prop where
  visible : rows.flatten.filter isVisible = text.filter isVisible
  parts : ∀ row ∈ rows, row <:+: text
  fit : ∀ row ∈ rows, RowFits width row

theorem isLayout_nil (width : Nat) : IsLayout width [] [] where
  visible := rfl
  parts := List.forall_mem_nil _
  fit := List.forall_mem_nil _

theorem rowFits_dropTrailingBlank {width : Nat} {row : List (List Char)}
    (h : row.flatten.length ≤ width ∨ ∃ chunk, row = [chunk]) :
    RowFits width (dropTrailingBlank row) := by
  rcases h with hFits | ⟨chunk, rfl⟩
  · have hShorter := (dropTrailingBlank_spec row).1.sublist.flatten.length_le
    exact Or.inl (hShorter.trans hFits)
  · rw [dropTrailingBlank, List.getLast?_singleton]
    simp only
    split
    · exact Or.inl (Nat.zero_le _)
    · next hVisible =>
      refine Or.inr ⟨chunk, rfl, ?_⟩
      rw [isVisible, Bool.eq_false_of_not_eq_true hVisible]
      rfl

/-- One row more in front of those of the text that is left. -/
theorem IsLayout.row {width : Nat} {chunk : List Char} {rest : List (List Char)}
    {rows : List (List (List Char))}
    (h : IsLayout width (takeLine width (chunk :: rest)).2 rows) :
    IsLayout width (chunk :: rest)
      (dropTrailingBlank (takeLine width (chunk :: rest)).1 :: rows) := by
  obtain ⟨hAll, hFits⟩ := takeLine_spec width chunk rest
  obtain ⟨hFront, hVisible⟩ := dropTrailingBlank_spec (takeLine width (chunk :: rest)).1
  have hTaken : (takeLine width (chunk :: rest)).1 <+: chunk :: rest := ⟨_, hAll⟩
  have hLeft : (takeLine width (chunk :: rest)).2 <:+ chunk :: rest := ⟨_, hAll⟩
  constructor
  · rw [List.flatten_cons, List.filter_append, hVisible, h.visible, ← List.filter_append, hAll]
  · exact List.forall_mem_cons.mpr
      ⟨(hFront.trans hTaken).isInfix, fun row hRow => (h.parts row hRow).trans hLeft.isInfix⟩
  · exact List.forall_mem_cons.mpr
      ⟨rowFits_dropTrailingBlank (hFits.imp_right fun hOne => ⟨chunk, hOne⟩), h.fit⟩

/-- A row with nothing in it can be left out. -/
theorem IsLayout.skip {width : Nat} {text : List (List Char)} {rows : List (List (List Char))}
    (h : IsLayout width text ([] :: rows)) : IsLayout width text rows where
  visible := h.visible
  parts := fun row hRow => h.parts row (List.mem_cons_of_mem _ hRow)
  fit := fun row hRow => h.fit row (List.mem_cons_of_mem _ hRow)

/-- What is dropped at the head of the text is blank. -/
theorem IsLayout.leading {width : Nat} {text left : List (List Char)}
    {rows : List (List (List Char))} (hLeft : dropLeadingBlank text = left)
    (h : IsLayout width left rows) : IsLayout width text rows := by
  subst hLeft
  obtain ⟨hEnd, hVisible⟩ := dropLeadingBlank_spec text
  exact ⟨h.visible.trans hVisible, fun row hRow => (h.parts row hRow).trans hEnd.isInfix, h.fit⟩

theorem laterLines_layout (width : Nat) (text : List (List Char)) :
    ∃ rows, IsLayout width text rows ∧ laterLines width text = rows.map List.flatten := by
  fun_induction laterLines width text with
  | case1 text hNone => exact ⟨[], (isLayout_nil width).leading hNone, rfl⟩
  | case2 text chunk rest hSome line others hEmpty ih =>
      obtain ⟨rows, hRows, hLines⟩ := ih
      have hRow := hRows.row
      have hNone : dropTrailingBlank (takeLine width (chunk :: rest)).1 = [] :=
        List.isEmpty_iff.mp hEmpty
      rw [hNone] at hRow
      exact ⟨rows, hRow.skip.leading hSome, hLines⟩
  | case3 text chunk rest hSome line others hLine ih =>
      obtain ⟨rows, hRows, hLines⟩ := ih
      exact ⟨_, hRows.row.leading hSome, congrArg _ hLines⟩

theorem linesOf_layout (width : Nat) (text : List (List Char)) :
    ∃ rows, IsLayout width text rows ∧ linesOf width text = rows.map List.flatten := by
  fun_induction linesOf width text with
  | case1 => exact ⟨[], isLayout_nil width, rfl⟩
  | case2 chunk rest line hEmpty ih =>
      obtain ⟨rows, hRows, hLines⟩ := ih
      have hRow := hRows.row
      have hNone : dropTrailingBlank (takeLine width (chunk :: rest)).1 = [] :=
        List.isEmpty_iff.mp hEmpty
      rw [hNone] at hRow
      exact ⟨rows, hRow.skip, hLines⟩
  | case3 chunk rest line hLine =>
      obtain ⟨rows, hRows, hLines⟩ := laterLines_layout width (takeLine width (chunk :: rest)).2
      exact ⟨_, hRows.row, congrArg _ hLines⟩

/-! ## Lines -/

/-- The line fits, or it is one word. -/
def LineFits (width : Nat) (line : List Char) : Prop :=
  line.length ≤ width ∨ words line = [line]

theorem lineFits_of_rowFits {width : Nat} {row : List (List Char)} (hTurn : InTurn row)
    (h : RowFits width row) : LineFits width row.flatten := by
  refine h.imp_right ?_
  rintro ⟨chunk, rfl, hVisible⟩
  have hWord : isGap chunk = false := by
    refine Bool.eq_false_of_not_eq_true fun hGap => ?_
    rw [isVisible_of_isGap hGap] at hVisible
    cases hVisible
  rw [words_flatten hTurn, List.flatten_singleton]
  simp [hWord]

/-- The lines of a layout have the visible words of the text, no separators but spaces, and fit. -/
theorem IsLayout.lines {width : Nat} {text : List Char} {rows : List (List (List Char))}
    (hSpaces : ∀ c ∈ text, isSeparator c = true → c = ' ')
    (h : IsLayout width (chunks text) rows) :
    (rows.flatMap fun row => visibleWords row.flatten) = visibleWords text ∧
      ∀ row ∈ rows, (∀ c ∈ row.flatten, isSeparator c = true → c = ' ') ∧
        LineFits width row.flatten := by
  have hTurn := inTurn_chunks hSpaces
  have hRowTurn : ∀ row ∈ rows, InTurn row := fun row hRow => hTurn.part (h.parts row hRow)
  constructor
  · calc (rows.flatMap fun row => visibleWords row.flatten)
        = rows.flatMap fun row => row.filter isVisible :=
          List.flatMap_congr fun row hRow => visibleWords_flatten (hRowTurn row hRow)
      _ = rows.flatten.filter isVisible := by rw [List.filter_flatten, List.flatMap_def]
      _ = (chunks text).filter isVisible := h.visible
      _ = visibleWords (chunks text).flatten := (visibleWords_flatten hTurn).symm
      _ = visibleWords text := by rw [flatten_chunks]
  · refine fun row hRow => ⟨fun c hc => hSpaces c ?_, ?_⟩
    · obtain ⟨chunk, hChunk, hMem⟩ := List.mem_flatten.mp hc
      rw [← flatten_chunks text]
      exact List.mem_flatten_of_mem ((h.parts row hRow).subset hChunk) hMem
    · exact lineFits_of_rowFits (hRowTurn row hRow) (h.fit row hRow)

/-- A text of which no row is kept has one that is empty. -/
theorem IsLayout.empty {width : Nat} {text : List (List Char)} (h : IsLayout width text []) :
    IsLayout width text [[]] where
  visible := h.visible
  parts := List.forall_mem_singleton.mpr List.nil_infix
  fit := List.forall_mem_singleton.mpr (Or.inl (Nat.zero_le _))

theorem wrap_layout (width : Nat) (text : String) :
    ∃ rows, rows ≠ [] ∧ IsLayout width (chunks (spaced 0 text.toList)) rows ∧
      (wrap width text).map String.toList = rows.map List.flatten := by
  obtain ⟨rows, hRows, hLines⟩ := linesOf_layout width (chunks (spaced 0 text.toList))
  rw [wrap, hLines]
  cases rows with
  | nil => exact ⟨[[]], List.cons_ne_nil _ _, hRows.empty, rfl⟩
  | cons first others => exact ⟨first :: others, List.cons_ne_nil _ _, hRows, by simp⟩

/-- **Wrapping loses no words.** For every width that leaves room for a character, a text has some
lines, which have its visible words in order. No line holds a separator other than the space, and
each of them is at most as long as the width or is one word. -/
theorem wrap_keeps_words {width : Int} (hWidth : 0 < width) (text : String) :
    ∃ lines, wrap? width text = some lines ∧ lines ≠ [] ∧
      (lines.flatMap fun line => visibleWords line.toList) = visibleWords text.toList ∧
      ∀ line ∈ lines, (∀ c ∈ line.toList, isSeparator c = true → c = ' ') ∧
        ((line.toList.length : Int) ≤ width ∨ words line.toList = [line.toList]) := by
  obtain ⟨rows, hSome, hRows, hLines⟩ := wrap_layout width.toNat text
  obtain ⟨hWords, hEach⟩ := hRows.lines (spaced_separators 0 text.toList)
  refine ⟨wrap width.toNat text, if_pos hWidth, ?_, ?_, fun line hLine => ?_⟩
  · intro hNone
    rw [hNone, List.map_nil] at hLines
    exact hSome (List.map_eq_nil_iff.mp hLines.symm)
  · have hSame := congrArg (List.flatMap visibleWords) hLines
    rw [List.flatMap_map, List.flatMap_map, hWords] at hSame
    rw [hSame, visibleWords, words_spaced, visibleWords]
  · have hMem := List.mem_map_of_mem (f := String.toList) hLine
    rw [hLines] at hMem
    obtain ⟨row, hRow, hSame⟩ := List.mem_map.mp hMem
    obtain ⟨hSeparators, hFits⟩ := hEach row hRow
    rw [hSame] at hSeparators hFits
    exact ⟨hSeparators, hFits.imp_left fun hShort => by omega⟩

/-- A narrow width: a word that is too long has a line of its own, and only a word that is blank is
left out, at the end of the third line. -/
theorem keeps_words_narrow :
    (0 : Int) < 4 ∧
      wrap? 4 "a bc\tdefghi jk \u00a0 lm" = some ["a bc", "defghi", "jk ", "lm"] ∧
      (["a bc", "defghi", "jk ", "lm"].flatMap fun line => visibleWords line.toList) =
        visibleWords "a bc\tdefghi jk \u00a0 lm".toList := by
  have hLines :
      wrap? 4 "a bc\tdefghi jk \u00a0 lm" = some ["a bc", "defghi", "jk ", "lm"] := by
    cbv
  obtain ⟨lines, hSome, -, hWords, -⟩ :=
    wrap_keeps_words (by decide : (0 : Int) < 4) "a bc\tdefghi jk \u00a0 lm"
  rw [hLines] at hSome
  cases hSome
  exact ⟨by decide, hLines, hWords⟩

end CommBindings.Text
