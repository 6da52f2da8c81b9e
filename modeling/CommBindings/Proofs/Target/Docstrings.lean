import CommBindings.Proofs.Text.Lines
import CommBindings.Proofs.Text.Literals

set_option autoImplicit false

/-! # Docstrings and their text

A docstring is a literal between three quotes. The quotes and backslashes of its text are escaped before
the text is wrapped, and wrapping cuts no escape in two, since it cuts between words only
(`exists_plainLines`). So a docstring is one literal, and undoing its escapes gives the visible words of
the text (`docstring_denotes`): unchanged on one line, and on several lines each without the blank
characters at the end of its last word. There a word with a no-break space at its end loses it
(`noBreak_lost`).
-/

namespace CommBindings.Python

open Text

/-! ## Literals between three quotes -/

/-- The piece of a literal between three quotes that the character begins before those after it. A line
end in the literal is a line feed. -/
def longPiece? (c : Char) (rest : List Char) : Option Piece :=
  if c = '\\' then escape? rest
  else if c = '\x00' then none
  else if c = '\r' then some ⟨[10], if rest.head? = some '\n' then 1 else 0⟩
  else some ⟨[c.toNat], 0⟩

/-- What the characters after the opening quotes denote. The closing quotes have to be the last. -/
def readLongBody : List Char → Option (List Nat)
  | [] => none
  | c :: rest =>
    if c = '"' ∧ rest.take 2 = ['"', '"'] then if rest.length = 2 then some [] else none
    else
      match longPiece? c rest with
      | none => none
      | some piece => (readLongBody (rest.drop piece.length)).map (piece.values ++ ·)
termination_by text => text.length
decreasing_by
  simp only [List.length_drop, List.length_cons]
  omega

/-- What a text denotes that is one literal between three quotes. -/
def readLong : List Char → Option (List Nat)
  | '"' :: '"' :: '"' :: body => readLongBody body
  | _ => none

/-- Undoes the escapes of quotes and backslashes. A quote without a backslash is refused, and so is a
backslash before anything else. -/
def undoEscapes? : List Char → Option (List Char)
  | [] => some []
  | '\\' :: c :: rest => if c = '\\' ∨ c = '"' then (undoEscapes? rest).map (c :: ·) else none
  | c :: rest => if c = '\\' ∨ c = '"' then none else (undoEscapes? rest).map (c :: ·)

/-! ## Escaped texts -/

/-- The text with a backslash before each quote and backslash. -/
def escaped (text : List Char) : List Char := text.flatMap docChar

theorem escaped_append (front back : List Char) :
    escaped (front ++ back) = escaped front ++ escaped back := List.flatMap_append

/-- A character is escaped, or it stands for itself. -/
theorem docChar_cases (c : Char) :
    (c = '\\' ∨ c = '"') ∧ docChar c = ['\\', c] ∨ ¬ (c = '\\' ∨ c = '"') ∧ docChar c = [c] := by
  unfold docChar
  by_cases hBackslash : c = '\\'
  · subst hBackslash
    exact Or.inl ⟨Or.inl rfl, rfl⟩
  · by_cases hQuote : c = '"'
    · subst hQuote
      exact Or.inl ⟨Or.inr rfl, rfl⟩
    · rw [if_neg hBackslash, if_neg hQuote]
      exact Or.inr ⟨not_or.mpr ⟨hBackslash, hQuote⟩, rfl⟩

theorem undoEscapes?_escaped (text : List Char) : undoEscapes? (escaped text) = some text := by
  induction text with
  | nil => rfl
  | cons c rest ih =>
      rcases docChar_cases c with ⟨hEscaped, hForm⟩ | ⟨hPlain, hForm⟩
      · have hBoth : escaped (c :: rest) = '\\' :: c :: escaped rest := by
          rw [escaped, List.flatMap_cons, hForm]
          rfl
        rw [hBoth, undoEscapes?, if_pos hEscaped, ih]
        rfl
      · have hOne : escaped (c :: rest) = c :: escaped rest := by
          rw [escaped, List.flatMap_cons, hForm]
          rfl
        rw [hOne, undoEscapes?, if_neg hPlain, ih]
        · rfl
        · exact fun d more hBackslash => absurd hBackslash (not_or.mp hPlain).1

theorem escaped_injective : Function.Injective escaped := by
  intro text other hSame
  have hUndone := congrArg undoEscapes? hSame
  rw [undoEscapes?_escaped, undoEscapes?_escaped] at hUndone
  exact Option.some.inj hUndone

theorem readLongBody_cons {c : Char} (hQuote : c ≠ '"') {rest : List Char} {piece : Piece}
    (hPiece : longPiece? c rest = some piece) :
    readLongBody (c :: rest) =
      (readLongBody (rest.drop piece.length)).map (piece.values ++ ·) := by
  rw [readLongBody, if_neg fun hClosing => hQuote hClosing.1, hPiece]

/-- An escaped text before the closing quotes denotes the text. -/
theorem readLongBody_escaped {text : List Char} (hNul : '\x00' ∉ text) (hReturn : '\r' ∉ text) :
    readLongBody (escaped text ++ docQuotes.toList) = some (text.map Char.toNat) := by
  induction text with
  | nil =>
      show readLongBody ['"', '"', '"'] = some []
      rw [readLongBody]
      rfl
  | cons c rest ih =>
      rw [List.mem_cons, not_or] at hNul hReturn
      have hRest := ih hNul.2 hReturn.2
      rw [escaped, List.flatMap_cons, List.append_assoc]
      rcases docChar_cases c with ⟨hEscaped, hForm⟩ | ⟨hPlain, hForm⟩
      · have hPiece : longPiece? '\\' (c :: (escaped rest ++ docQuotes.toList)) =
            some ⟨[c.toNat], 1⟩ := by
          rcases hEscaped with rfl | rfl <;> rfl
        rw [hForm]
        refine (readLongBody_cons (by decide) hPiece).trans ?_
        show (readLongBody (escaped rest ++ docQuotes.toList)).map _ = _
        rw [hRest]
        rfl
      · have hPiece : longPiece? c (escaped rest ++ docQuotes.toList) = some ⟨[c.toNat], 0⟩ := by
          rw [longPiece?, if_neg (not_or.mp hPlain).1, if_neg fun h => hNul.1 h.symm,
            if_neg fun h => hReturn.1 h.symm]
        rw [hForm]
        refine (readLongBody_cons (not_or.mp hPlain).2 hPiece).trans ?_
        show (readLongBody (escaped rest ++ docQuotes.toList)).map _ = _
        rw [hRest]
        rfl

/-! ## Words of an escaped text -/

theorem docChar_of_isBlank {c : Char} (h : isBlank c = true) : docChar c = [c] := by
  rcases docChar_cases c with ⟨rfl | rfl, -⟩ | ⟨-, hForm⟩
  · exact absurd h (by decide)
  · exact absurd h (by decide)
  · exact hForm

/-- Blank characters are not escaped. -/
theorem escaped_blank {text : List Char} (h : ∀ c ∈ text, isBlank c = true) : escaped text = text :=
  (List.flatMap_congr fun c hc => docChar_of_isBlank (h c hc)).trans (List.flatMap_singleton' text)

/-- An escaped character is a backslash or a character of the text. -/
theorem of_mem_escaped {text : List Char} {c : Char} (h : c ∈ escaped text) : c = '\\' ∨ c ∈ text := by
  obtain ⟨d, hd, hc⟩ := List.mem_flatMap.mp h
  rcases docChar_cases d with ⟨-, hForm⟩ | ⟨-, hForm⟩
  · rw [hForm, List.mem_pair] at hc
    rcases hc with rfl | rfl
    · exact Or.inl rfl
    · exact Or.inr hd
  · rw [hForm, List.mem_singleton] at hc
    exact Or.inr (hc ▸ hd)

/-- Escaping keeps the characters, each as the last of its form. -/
theorem docChar_ends (c : Char) : ∃ start, docChar c = start ++ [c] := by
  rcases docChar_cases c with ⟨-, hForm⟩ | ⟨-, hForm⟩
  · exact ⟨['\\'], hForm⟩
  · exact ⟨[], hForm⟩

theorem mem_escaped {text : List Char} {c : Char} (h : c ∈ text) : c ∈ escaped text := by
  obtain ⟨start, hForm⟩ := docChar_ends c
  exact List.mem_flatMap.mpr ⟨c, h, by rw [hForm]; exact List.mem_concat_self⟩

theorem solid_escaped {run : List Char} (h : ∀ c ∈ run, isSeparator c = false) :
    ∀ c ∈ escaped run, isSeparator c = false := by
  intro c hc
  rcases of_mem_escaped hc with rfl | hIn
  · decide
  · exact h c hIn

theorem escaped_cut {c : Char} (hc : isSeparator c = true) (front rest : List Char) :
    escaped (front ++ c :: rest) = escaped front ++ c :: escaped rest := by
  rw [escaped_append, escaped, escaped, List.flatMap_cons,
    docChar_of_isBlank (isBlank_of_isSeparator hc)]
  rfl

/-- The words of an escaped text are the escaped words. -/
theorem words_escaped (text : List Char) : words (escaped text) = (words text).map escaped := by
  have hEach : ∀ run : List Char, (∀ c ∈ run, isSeparator c = false) →
      words (escaped run) = (words run).map escaped := by
    intro run hSolid
    rw [words_of_run hSolid, words_of_run (solid_escaped hSolid)]
    by_cases hEmpty : run = []
    · rw [hEmpty]
      rfl
    · have hSome : escaped run ≠ [] := fun hNone =>
        hEmpty (escaped_injective (hNone.trans (rfl : [] = escaped [])))
      rw [if_neg hEmpty, if_neg hSome]
      rfl
  induction text using induction_on_words with
  | hRun run hSolid => exact hEach run hSolid
  | hCut run c rest hSolid hc ih =>
      rw [escaped_cut hc, words_append_separator hc, words_append_separator hc, hEach run hSolid, ih,
        List.map_append]

theorem isVisible_escaped (word : List Char) : isVisible (escaped word) = isVisible word := by
  have hChar : ∀ c, (docChar c).all isBlank = isBlank c := fun c => by
    rcases docChar_cases c with ⟨rfl | rfl, hForm⟩ | ⟨-, hForm⟩
    · rfl
    · rfl
    · rw [hForm]
      simp
  rw [isVisible, isVisible, isBlankText, isBlankText, escaped, List.all_flatMap]
  simp only [hChar]

theorem visibleWords_escaped (text : List Char) :
    visibleWords (escaped text) = (visibleWords text).map escaped := by
  rw [visibleWords, visibleWords, words_escaped, List.filter_map]
  refine congrArg (List.map escaped) (List.filter_congr fun word _ => ?_)
  exact isVisible_escaped word

/-- A text is an escaped one if its words are. -/
theorem exists_escaped {text : List Char} (h : ∀ word ∈ words text, word ∈ Set.range escaped) :
    text ∈ Set.range escaped := by
  have hEach : ∀ run : List Char, (∀ c ∈ run, isSeparator c = false) →
      (∀ word ∈ words run, word ∈ Set.range escaped) → run ∈ Set.range escaped := by
    intro run hSolid hWords
    rw [words_of_run hSolid] at hWords
    by_cases hEmpty : run = []
    · exact ⟨[], hEmpty.symm⟩
    · rw [if_neg hEmpty] at hWords
      exact hWords run List.mem_cons_self
  induction text using induction_on_words with
  | hRun run hSolid => exact hEach run hSolid h
  | hCut run c rest hSolid hc ih =>
      rw [words_append_separator hc] at h
      obtain ⟨hFront, hBack⟩ := List.forall_mem_append.mp h
      obtain ⟨front, rfl⟩ := hEach run hSolid hFront
      obtain ⟨back, rfl⟩ := ih hBack
      exact ⟨front ++ c :: back, escaped_cut hc front back⟩

/-- Trimming cuts no escape in two. -/
theorem trimEnd_escaped (text : List Char) : trimEnd (escaped text) = escaped (trimEnd text) := by
  obtain ⟨gap, hGap, hText⟩ := exists_gap text
  rcases trimEnd_cases text with ⟨hNone, hBlank⟩ | ⟨front, c, hc, hTrim⟩
  · rw [escaped_blank hBlank, hNone]
    rfl
  · obtain ⟨start, hForm⟩ := docChar_ends c
    have hEnd : escaped (front ++ [c]) = escaped front ++ start ++ [c] := by
      rw [escaped_append, List.append_assoc, ← hForm]
      exact congrArg _ (List.flatMap_singleton ..)
    conv_lhs => rw [hText, hTrim, escaped_append, escaped_blank hGap, trimEnd_append_gap hGap, hEnd,
      trimEnd_concat hc, ← hEnd, ← hTrim]

/-! ## Lines of a docstring -/

/-- What is true of the lines of a docstring before they are escaped. -/
structure ArePlainLines (text : List Char) (lines : List (List Char)) : Prop where
  words : lines.flatMap visibleWords = visibleWords text
  feedless : ∀ line ∈ lines, '\n' ∉ line ∧ '\r' ∉ line
  chars : ∀ line ∈ lines, ∀ c ∈ line, c = ' ' ∨ c = '\\' ∨ c ∈ text

/-- The lines into which an escaped text is wrapped are escaped themselves, so no escape is cut in
two. -/
theorem exists_plainLines (text : String) :
    ∃ lines, lines ≠ [] ∧ ArePlainLines text.toList lines ∧
      (wrap commentWidth (String.ofList (escaped text.toList))).map String.toList =
        lines.map escaped := by
  have hWrapped := wrap_lines commentWidth (String.ofList (escaped text.toList))
  rw [String.toList_ofList] at hWrapped
  -- a visible word of a line is one of the escaped text, and a blank one is not changed by escaping
  have hEach : ∀ line ∈ (wrap commentWidth (String.ofList (escaped text.toList))).map String.toList,
      line ∈ Set.range escaped := by
    refine fun line hLine => exists_escaped fun word hWord => ?_
    cases hVisible : isVisible word with
    | true =>
        have hMem : word ∈ visibleWords (escaped text.toList) := by
          rw [← hWrapped.words]
          exact List.mem_flatMap.mpr ⟨line, hLine, List.mem_filter.mpr ⟨hWord, hVisible⟩⟩
        rw [visibleWords_escaped] at hMem
        obtain ⟨plain, -, hPlain⟩ := List.mem_map.mp hMem
        exact ⟨plain, hPlain⟩
    | false =>
        rw [isVisible, Bool.not_eq_false', isBlankText, List.all_eq_true] at hVisible
        exact ⟨word, escaped_blank hVisible⟩
  obtain ⟨lines, hLines⟩ : _ ∈ Set.range (List.map escaped) := by
    rw [Set.range_list_map]
    exact hEach
  rw [← hLines] at hWrapped ⊢
  refine ⟨lines, fun hNone => hWrapped.some (by rw [hNone]; rfl), ⟨?_, ?_, ?_⟩, rfl⟩
  · refine List.map_injective_iff.mpr escaped_injective ?_
    rw [← visibleWords_escaped, ← hWrapped.words, List.map_flatMap, List.flatMap_map]
    exact List.flatMap_congr fun line _ => (visibleWords_escaped line).symm
  · intro line hLine
    have hSpaces := hWrapped.spaces _ (List.mem_map_of_mem hLine)
    exact ⟨fun hFeed => absurd (hSpaces _ (mem_escaped hFeed) (by decide)) (by decide),
      fun hReturn => absurd (hSpaces _ (mem_escaped hReturn) (by decide)) (by decide)⟩
  · intro line hLine c hc
    exact (hWrapped.chars _ (List.mem_map_of_mem hLine) c (mem_escaped hc)).imp_right of_mem_escaped

theorem escaped_closed (lines : List (List Char)) :
    escaped (lines.flatMap (· ++ ['\n'])) = (lines.map escaped).flatMap (· ++ ['\n']) := by
  rw [escaped, List.flatMap_assoc, List.flatMap_map]
  refine List.flatMap_congr fun line _ => ?_
  rw [List.flatMap_append]
  rfl

/-- Several lines, each trimmed behind the indent, between line feeds and in front of the last
indent. -/
def manyLines (indent : List Char) (lines : List (List Char)) : List Char :=
  '\n' :: ((lines.map fun line => trimEnd (indent ++ line)).flatMap (· ++ ['\n']) ++ indent)

/-- What a docstring denotes, by the lines of its text. -/
def denoted (indent : List Char) : List (List Char) → List Char
  | [line] => line
  | lines => manyLines indent lines

theorem escaped_manyLines {indent : List Char} (hIndent : ∀ c ∈ indent, c = ' ')
    (lines : List (List Char)) :
    escaped (manyLines indent lines) = manyLines indent (lines.map escaped) := by
  have hSame : escaped indent = indent := escaped_blank fun c hc => by
    rw [hIndent c hc]
    exact isBlank_space
  have hLine : ∀ line, escaped (trimEnd (indent ++ line)) = trimEnd (indent ++ escaped line) :=
    fun line => by rw [← trimEnd_escaped, escaped_append, hSame]
  calc escaped (manyLines indent lines)
      = '\n' :: (escaped ((lines.map fun line => trimEnd (indent ++ line)).flatMap (· ++ ['\n'])) ++
          escaped indent) := by
        rw [manyLines, ← List.nil_append ('\n' :: _), escaped_cut (by decide), escaped_append]
        rfl
    _ = manyLines indent (lines.map escaped) := by
        rw [escaped_closed, hSame, List.map_map, manyLines, List.map_map]
        simp only [Function.comp_def, hLine]

/-- A docstring is the escaped form of what it denotes, between quotes. -/
theorem docstring_eq {indent : String} (hIndent : ∀ c ∈ indent.toList, c = ' ') {text : String}
    {lines : List (List Char)}
    (hLines : (wrap commentWidth (String.ofList (escaped text.toList))).map String.toList =
      lines.map escaped) :
    docstring indent text =
      indent ++ (docQuotes ++ String.ofList (escaped (denoted indent.toList lines)) ++ docQuotes) ++
        "\n" := by
  have hMany : ∀ wrapped : List String, wrapped.map String.toList = lines.map escaped →
      indent ++ docQuotes ++ "\n" ++ String.join (wrapped.map (commentLine indent)) ++ indent ++
          docQuotes ++ "\n" =
        indent ++ (docQuotes ++ String.ofList (escaped (manyLines indent.toList lines)) ++
          docQuotes) ++ "\n" := by
    intro wrapped hWrapped
    have hFeed : "\n".toList = ['\n'] := by decide
    rw [← String.toList_inj, escaped_manyLines hIndent]
    simp only [String.toList_append, String.toList_ofList, toList_commentLines, hWrapped, manyLines,
      hFeed, List.append_assoc, List.cons_append, List.nil_append]
  unfold docstring
  rw [show String.ofList (text.toList.flatMap docChar) = String.ofList (escaped text.toList) from rfl]
  split
  · next line hWrap =>
    rw [hWrap] at hLines
    obtain ⟨plain, rfl, hLine⟩ := List.map_eq_singleton_iff.mp hLines.symm
    rw [denoted, hLine, String.ofList_toList]
    simp only [String.append_assoc]
  · next hNotOne =>
    have hDenoted : denoted indent.toList lines = manyLines indent.toList lines := by
      rw [denoted]
      rintro line rfl
      obtain ⟨first, hFirst, -⟩ := List.map_eq_singleton_iff.mp hLines
      exact hNotOne first hFirst
    rw [hDenoted]
    exact hMany _ hLines

/-- The lines of a text in which each line is closed by a line feed, and what stands behind the last. -/
theorem splitOn_closed {lines : List (List Char)} (hLines : ∀ line ∈ lines, '\n' ∉ line)
    {last : List Char} (hLast : '\n' ∉ last) :
    (lines.flatMap (· ++ ['\n']) ++ last).splitOn '\n' = lines ++ [last] := by
  have hNone : ∀ line : List Char, '\n' ∉ line → ∀ c ∈ line, (c == '\n') = false :=
    fun line hLine c hc => beq_eq_false_iff_ne.mpr fun hSame => hLine (hSame ▸ hc)
  induction lines with
  | nil => exact List.splitOnP_eq_singleton (hNone last hLast)
  | cons line rest ih =>
      obtain ⟨hFirst, hRest⟩ := List.forall_mem_cons.mp hLines
      have hCut := List.splitOnP_append_cons_of_forall_mem (hNone line hFirst) '\n' (beq_self_eq_true _)
        (rest.flatMap (· ++ ['\n']) ++ last)
      have hSplit : (line :: rest).flatMap (· ++ ['\n']) ++ last =
          line ++ '\n' :: (rest.flatMap (· ++ ['\n']) ++ last) := by
        rw [List.flatMap_cons, List.append_assoc, List.append_assoc]
        rfl
      rw [hSplit, List.splitOn, hCut]
      exact congrArg (List.cons line) (ih hRest)

/-- The words of what a docstring denotes, line by line. -/
theorem words_denoted {indent : List Char} (hIndent : ∀ c ∈ indent, c = ' ') {text : List Char}
    {lines : List (List Char)} (hLines : ArePlainLines text lines) :
    ((denoted indent lines).splitOn '\n').map visibleWords =
      if lines.length = 1 then lines.map visibleWords
      else [] :: (lines.map visibleWords).map trimLast ++ [[]] := by
  have hSeparators : ∀ c ∈ indent, isSeparator c = true := fun c hc => by
    rw [hIndent c hc]
    exact isSeparator_space
  have hFeedless : '\n' ∉ indent := fun hFeed => absurd (hIndent _ hFeed) (by decide)
  have hIndented : ∀ line, visibleWords (indent ++ line) = visibleWords line := fun line => by
    rw [visibleWords, words_separators_append hSeparators, visibleWords]
  have hMany : ((manyLines indent lines).splitOn '\n').map visibleWords =
      [] :: (lines.map visibleWords).map trimLast ++ [[]] := by
    have hTrimmed : ∀ line ∈ [] :: lines.map fun line => trimEnd (indent ++ line), '\n' ∉ line := by
      refine List.forall_mem_cons.mpr ⟨List.not_mem_nil, List.forall_mem_map.mpr ?_⟩
      intro line hLine hFeed
      rcases List.mem_append.mp ((List.rdropWhile_prefix isBlank _).subset hFeed) with hIn | hIn
      · exact hFeedless hIn
      · exact (hLines.feedless line hLine).1 hIn
    have hWords : ∀ line, visibleWords (trimEnd (indent ++ line)) = trimLast (visibleWords line) :=
      fun line => by rw [visibleWords_trimEnd, hIndented]
    have hLast : visibleWords indent = [] :=
      visibleWords_blank fun c hc => isBlank_of_isSeparator (hSeparators c hc)
    have hSplit := splitOn_closed hTrimmed hFeedless
    rw [List.flatMap_cons] at hSplit
    rw [manyLines]
    refine (congrArg (List.map visibleWords) hSplit).trans ?_
    rw [List.map_append, List.map_cons, List.map_map, List.map_map, List.map_singleton, hLast]
    simp only [Function.comp_def, hWords]
    rfl
  unfold denoted
  split
  · next line =>
    have hLine := (hLines.feedless line List.mem_cons_self).1
    have hOne := splitOn_closed (List.forall_mem_nil _) hLine
    rw [if_pos List.length_singleton]
    exact congrArg (List.map visibleWords) hOne
  · next hNotOne =>
    rw [hMany, if_neg]
    intro hOne
    obtain ⟨line, rfl⟩ := List.length_eq_one_iff.mp hOne
    exact hNotOne line rfl

theorem of_mem_denoted {indent : List Char} {lines : List (List Char)} {c : Char}
    (h : c ∈ denoted indent lines) : c = '\n' ∨ c ∈ indent ∨ ∃ line ∈ lines, c ∈ line := by
  unfold denoted at h
  split at h
  · next line => exact Or.inr (Or.inr ⟨line, List.mem_cons_self, h⟩)
  · rw [manyLines, List.mem_cons, List.mem_append] at h
    rcases h with hFeed | hClosed | hIndent
    · exact Or.inl hFeed
    · obtain ⟨trimmed, hTrimmed, hc⟩ := List.mem_flatMap.mp hClosed
      obtain ⟨line, hLine, rfl⟩ := List.mem_map.mp hTrimmed
      rcases List.mem_append.mp hc with hIn | hIn
      · rcases List.mem_append.mp ((List.rdropWhile_prefix isBlank _).subset hIn) with hIn | hIn
        · exact Or.inr (Or.inl hIn)
        · exact Or.inr (Or.inr ⟨line, hLine, hIn⟩)
      · exact Or.inl (List.mem_singleton.mp hIn)
    · exact Or.inr (Or.inl hIndent)

/-- **Docstrings denote their text.** For every indent of spaces and every text without NUL a docstring
is one literal between three quotes, the last of its line. In its body every quote and backslash is
escaped. Undoing that gives the visible words of the text in order: on a single line as they are, and
else on several lines, where the last of each line has no blank characters at its end. -/
theorem docstring_denotes {indent text : String} (hIndent : ∀ c ∈ indent.toList, c = ' ')
    (hText : '\x00' ∉ text.toList) :
    ∃ body plain rows,
      docstring indent text = indent ++ (docQuotes ++ String.ofList body ++ docQuotes) ++ "\n" ∧
        readLong (docQuotes.toList ++ body ++ docQuotes.toList) = some (plain.map Char.toNat) ∧
        undoEscapes? body = some plain ∧
        rows ≠ [] ∧ rows.flatten = visibleWords text.toList ∧
        (plain.splitOn '\n').map visibleWords =
          if rows.length = 1 then rows else [] :: rows.map trimLast ++ [[]] := by
  obtain ⟨lines, hSome, hPlain, hLines⟩ := exists_plainLines text
  have hOther : ∀ c ∈ denoted indent.toList lines, c ≠ '\x00' ∧ c ≠ '\r' := by
    intro c hc
    rcases of_mem_denoted hc with rfl | hIn | ⟨line, hLine, hIn⟩
    · decide
    · rw [hIndent c hIn]
      decide
    · refine ⟨?_, fun hReturn => (hPlain.feedless line hLine).2 (hReturn ▸ hIn)⟩
      rintro rfl
      rcases hPlain.chars line hLine _ hIn with hSpace | hBackslash | hNul
      · exact absurd hSpace (by decide)
      · exact absurd hBackslash (by decide)
      · exact hText hNul
  refine ⟨escaped (denoted indent.toList lines), denoted indent.toList lines,
    lines.map visibleWords, docstring_eq hIndent hLines, ?_, undoEscapes?_escaped _, ?_, ?_, ?_⟩
  · have hBody := readLongBody_escaped (fun hNul => (hOther _ hNul).1 rfl)
      (fun hReturn => (hOther _ hReturn).2 rfl)
    rw [List.append_assoc]
    exact hBody
  · exact fun hNone => hSome (List.map_eq_nil_iff.mp hNone)
  · rw [← List.flatMap_def, hPlain.words]
  · rw [words_denoted hIndent hPlain, List.length_map]

/-- A text that ends with a quote and a backslash. -/
theorem denotes_lastBackslash :
    (∀ c ∈ "  ".toList, c = ' ') ∧ '\x00' ∉ "a \"b\"\\".toList ∧
      docstring "  " "a \"b\"\\" = "  \"\"\"a \\\"b\\\"\\\\\"\"\"\n" ∧
      ∃ body plain rows,
        docstring "  " "a \"b\"\\" = "  " ++ (docQuotes ++ String.ofList body ++ docQuotes) ++ "\n" ∧
          readLong (docQuotes.toList ++ body ++ docQuotes.toList) = some (plain.map Char.toNat) ∧
          undoEscapes? body = some plain ∧
          rows ≠ [] ∧ rows.flatten = visibleWords "a \"b\"\\".toList ∧
          (plain.splitOn '\n').map visibleWords =
            if rows.length = 1 then rows else [] :: rows.map trimLast ++ [[]] := by
  have hIndent : ∀ c ∈ "  ".toList, c = ' ' := fun c hc => by
    have hChars : "  ".toList = [' ', ' '] := by decide
    rw [hChars] at hc
    simpa using hc
  have hText : '\x00' ∉ "a \"b\"\\".toList := by decide
  exact ⟨hIndent, hText, by cbv, docstring_denotes hIndent hText⟩

/-- A word with a no-break space at its end stands at the end of a line and loses it. -/
theorem noBreak_lost :
    let text := String.ofList (['a', '\u00a0', ' '] ++ List.replicate 70 'b')
    let body := ['\n', 'a', '\n'] ++ List.replicate 70 'b' ++ ['\n']
    docstring "" text = docQuotes ++ String.ofList body ++ docQuotes ++ "\n" ∧
      undoEscapes? body = some body ∧
      visibleWords body = [['a'], List.replicate 70 'b'] ∧
      visibleWords text.toList = [['a', '\u00a0'], List.replicate 70 'b'] := by
  refine ⟨?_, ?_, ?_, ?_⟩
  · cbv
  · cbv
  · cbv
  · cbv

end CommBindings.Python
