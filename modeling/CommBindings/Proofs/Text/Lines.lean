import CommBindings.Proofs.Text.Wrapping
import CommBindings.Text.Comment

set_option autoImplicit false

/-! # Lines of prose

Prose is wrapped, and in a comment each line is trimmed at its end. The lines have the visible words
of the prose in order (`wrap_lines`). Trimming a line takes nothing from its words but the blank
characters at the end of the last visible one (`visibleWords_trimEnd`): these may be blank without
being separators, such as a no-break space.
-/

namespace CommBindings.Text

/-! ## Words at the two ends of a text -/

/-- An induction along the words of a text: a text is a run without separators, or such a run in front
of a separator and another text. -/
theorem induction_on_words {P : List Char → Prop}
    (hRun : ∀ run, (∀ c ∈ run, isSeparator c = false) → P run)
    (hCut : ∀ run c rest, (∀ d ∈ run, isSeparator d = false) → isSeparator c = true → P rest →
      P (run ++ c :: rest)) (text : List Char) : P text := by
  induction hLength : text.length using Nat.strongRecOn generalizing text with
  | ind n ih =>
      have hTaken : ∀ c ∈ text.takeWhile (fun c => !isSeparator c), isSeparator c = false :=
        fun c hc => by simpa using List.mem_takeWhile_imp hc
      have hAll := List.takeWhile_append_dropWhile (p := fun c => !isSeparator c) (l := text)
      cases hLeft : text.dropWhile (fun c => !isSeparator c) with
      | nil =>
          rw [hLeft, List.append_nil] at hAll
          rw [← hAll]
          exact hRun _ hTaken
      | cons c rest =>
          have hc : isSeparator c = true := by
            have hHead := List.head?_dropWhile_not (fun c => !isSeparator c) text
            rw [hLeft] at hHead
            simpa using hHead
          rw [hLeft] at hAll
          have hShorter : rest.length < n := by
            rw [← hLength, ← hAll, List.length_append, List.length_cons]
            omega
          rw [← hAll]
          exact hCut _ c rest hTaken hc (ih _ hShorter rest rfl)

/-- A run without separators is a word, unless it is empty. -/
theorem words_of_run {run : List Char} (h : ∀ c ∈ run, isSeparator c = false) :
    words run = if run = [] then [] else [run] := by
  by_cases hEmpty : run = []
  · rw [if_pos hEmpty, hEmpty, words_nil]
  · rw [if_neg hEmpty, words_run hEmpty h]

/-- The characters of a word are characters of the text, and no separators. -/
theorem of_mem_words {text word : List Char} (h : word ∈ words text) :
    ∀ c ∈ word, c ∈ text ∧ isSeparator c = false := by
  induction text using induction_on_words with
  | hRun run hSolid =>
      rw [words_of_run hSolid] at h
      split at h
      · cases h
      · rw [List.mem_singleton.mp h]
        exact fun c hc => ⟨hc, hSolid c hc⟩
  | hCut run d rest hSolid hd ih =>
      rw [words_append_separator hd, List.mem_append] at h
      rcases h with hFirst | hRest
      · rw [words_of_run hSolid] at hFirst
        split at hFirst
        · cases hFirst
        · rw [List.mem_singleton.mp hFirst]
          exact fun c hc => ⟨List.mem_append_left _ hc, hSolid c hc⟩
      · intro c hc
        obtain ⟨hMem, hOther⟩ := ih hRest c hc
        exact ⟨List.mem_append_right _ (List.mem_cons_of_mem _ hMem), hOther⟩

theorem isVisible_of_mem {word : List Char} {c : Char} (hMem : c ∈ word)
    (hc : isBlank c = false) : isVisible word = true := by
  rw [isVisible, Bool.not_eq_true', isBlankText, List.all_eq_false]
  exact ⟨c, hMem, by rw [hc]; exact Bool.false_ne_true⟩

/-- A blank text has no visible words. -/
theorem visibleWords_blank {text : List Char} (h : ∀ c ∈ text, isBlank c = true) :
    visibleWords text = [] := by
  rw [visibleWords, List.filter_eq_nil_iff]
  intro word hWord
  have hBlank : isBlankText word = true :=
    List.all_eq_true.mpr fun c hc => h c (of_mem_words hWord c hc).1
  rw [isVisible, hBlank]
  exact Bool.false_ne_true

/-- A text is cut at its last separator: behind the cut there is no other one, and what follows the text
does not change the words before the cut. -/
theorem exists_lastCut (text : List Char) :
    ∃ front run, text = front ++ run ∧ (∀ c ∈ run, isSeparator c = false) ∧
      ∀ more, words (front ++ more) = words front ++ words more := by
  induction text using induction_on_words with
  | hRun run hSolid =>
      refine ⟨[], run, rfl, hSolid, fun more => ?_⟩
      rw [words_nil, List.nil_append, List.nil_append]
  | hCut run c rest hSolid hc ih =>
      obtain ⟨front, last, rfl, hLast, hWords⟩ := ih
      refine ⟨run ++ c :: front, last, by simp, hLast, fun more => ?_⟩
      rw [List.append_assoc, List.cons_append, words_append_separator hc, hWords,
        words_append_separator hc, List.append_assoc]

/-- A text is cut at its first separator: before the cut there is none, and what precedes the text does
not change the words behind the cut. -/
theorem exists_firstCut (text : List Char) :
    ∃ run rest, text = run ++ rest ∧ (∀ c ∈ run, isSeparator c = false) ∧
      ∀ more, words (more ++ rest) = words more ++ words rest := by
  induction text using induction_on_words with
  | hRun run hSolid =>
      refine ⟨run, [], (List.append_nil run).symm, hSolid, fun more => ?_⟩
      rw [words_nil, List.append_nil, List.append_nil]
  | hCut run c rest hSolid hc _ =>
      refine ⟨run, c :: rest, rfl, hSolid, fun more => ?_⟩
      rw [words_append_separator hc, words_cons_separator hc]

/-! ## Trimming -/

theorem isBlank_of_isSeparator {c : Char} (h : isSeparator c = true) : isBlank c = true := by
  simp only [isSeparator, Bool.or_eq_true, decide_eq_true_eq] at h
  rcases h with ((((rfl | rfl) | rfl) | rfl) | rfl) | rfl <;> decide

/-- Behind what trimming leaves of a text there are blank characters. -/
theorem exists_gap (text : List Char) :
    ∃ gap, (∀ c ∈ gap, isBlank c = true) ∧ text = trimEnd text ++ gap :=
  ⟨text.rtakeWhile isBlank, fun _ hc => List.mem_rtakeWhile_imp hc,
    List.rdropWhile_append_rtakeWhile.symm⟩

theorem trimEnd_append_gap {gap : List Char} (hGap : ∀ c ∈ gap, isBlank c = true)
    (front : List Char) : trimEnd (front ++ gap) = trimEnd front := by
  induction gap using List.reverseRecOn with
  | nil => rw [List.append_nil]
  | append_singleton gap c ih =>
      obtain ⟨hFront, hLast⟩ := List.forall_mem_append.mp hGap
      rw [← List.append_assoc]
      exact (List.rdropWhile_concat_pos isBlank _ c (hLast c List.mem_cons_self)).trans (ih hFront)

theorem trimEnd_concat {c : Char} (hc : isBlank c = false) (front : List Char) :
    trimEnd (front ++ [c]) = front ++ [c] :=
  List.rdropWhile_concat_neg isBlank front c (by rw [hc]; exact Bool.false_ne_true)

/-- Trimming leaves nothing, or it ends with a character that is not blank. -/
theorem trimEnd_cases (text : List Char) :
    (trimEnd text = [] ∧ ∀ c ∈ text, isBlank c = true) ∨
      ∃ front c, isBlank c = false ∧ trimEnd text = front ++ [c] := by
  by_cases hNone : trimEnd text = []
  · exact Or.inl ⟨hNone, List.rdropWhile_eq_nil_iff.mp hNone⟩
  · right
    have hLast := List.rdropWhile_last_not isBlank text hNone
    exact ⟨_, _, Bool.eq_false_of_not_eq_true hLast, (List.dropLast_append_getLast hNone).symm⟩

/-- A text in front of another keeps, when both are trimmed, at least what it has when it is trimmed
alone. -/
theorem trimEnd_prefix_append (front back : List Char) :
    trimEnd front <+: trimEnd (front ++ back) := by
  rcases trimEnd_cases back with ⟨-, hBlank⟩ | ⟨start, c, hc, hTrim⟩
  · rw [trimEnd_append_gap hBlank]
  · obtain ⟨gap, hGap, hBack⟩ := exists_gap back
    rw [hBack, hTrim, ← List.append_assoc, ← List.append_assoc, trimEnd_append_gap hGap,
      trimEnd_concat hc, List.append_assoc]
    exact (List.rdropWhile_prefix isBlank front).trans (List.prefix_append _ _)

/-- The words of a line that is trimmed: the last of them is trimmed. -/
def trimLast : List (List Char) → List (List Char)
  | [] => []
  | [word] => [trimEnd word]
  | word :: next :: rest => word :: trimLast (next :: rest)

theorem trimLast_concat (row : List (List Char)) (word : List Char) :
    trimLast (row ++ [word]) = row ++ [trimEnd word] := by
  induction row with
  | nil => rfl
  | cons first rest ih =>
      cases rest with
      | nil => rfl
      | cons next more => exact congrArg (List.cons first) ih

/-- A visible word between two cuts, behind which nothing is visible, is the last of the visible
words. -/
theorem visibleWords_between {front word rest : List Char}
    (hFront : ∀ more, words (front ++ more) = words front ++ words more)
    (hRest : ∀ more, words (more ++ rest) = words more ++ words rest)
    (hBlank : ∀ c ∈ rest, isBlank c = true) (hSolid : ∀ c ∈ word, isSeparator c = false)
    (hVisible : isVisible word = true) :
    visibleWords (front ++ (word ++ rest)) = visibleWords front ++ [word] := by
  have hSome : word ≠ [] := by
    rintro rfl
    exact absurd hVisible (by decide)
  calc visibleWords (front ++ (word ++ rest))
      = (words front ++ ([word] ++ words rest)).filter isVisible := by
        rw [visibleWords, hFront, hRest, words_run hSome hSolid]
    _ = visibleWords front ++ ([word].filter isVisible ++ visibleWords rest) := by
        rw [List.filter_append, List.filter_append]
        rfl
    _ = visibleWords front ++ [word] := by
        rw [visibleWords_blank hBlank, List.append_nil, List.filter_singleton, hVisible]
        rfl

/-- Trimming a line changes none of its visible words but the last, which is trimmed, too. -/
theorem visibleWords_trimEnd (line : List Char) :
    visibleWords (trimEnd line) = trimLast (visibleWords line) := by
  rcases trimEnd_cases line with ⟨hNone, hBlank⟩ | ⟨front, c, hc, hTrim⟩
  · rw [hNone, visibleWords_blank hBlank]
    rfl
  · -- the last visible word is cut out of the line, with what trimming takes from its end
    obtain ⟨gap, hGap, hLine⟩ := exists_gap line
    obtain ⟨before, start, rfl, hStart, hBefore⟩ := exists_lastCut front
    obtain ⟨tail, rest, rfl, hTail, hRest⟩ := exists_firstCut gap
    obtain ⟨hTailBlank, hRestBlank⟩ := List.forall_mem_append.mp hGap
    have hSolid : ∀ d ∈ start ++ [c], isSeparator d = false := by
      refine List.forall_mem_append.mpr ⟨hStart, List.forall_mem_singleton.mpr ?_⟩
      refine Bool.eq_false_of_not_eq_true fun hSeparator => ?_
      rw [isBlank_of_isSeparator hSeparator] at hc
      cases hc
    have hVisible : ∀ more, isVisible (start ++ [c] ++ more) = true :=
      fun more => isVisible_of_mem (by simp) hc
    have hKept : visibleWords (trimEnd line) = visibleWords before ++ [start ++ [c]] := by
      have hEnd : ∀ more, words (more ++ []) = words more ++ words [] := fun more => by
        rw [words_nil, List.append_nil, List.append_nil]
      have hWord := visibleWords_between hBefore hEnd (List.forall_mem_nil _) hSolid
        (List.append_nil (start ++ [c]) ▸ hVisible [])
      rwa [List.append_nil, ← List.append_assoc, ← hTrim] at hWord
    have hWhole : visibleWords line = visibleWords before ++ [start ++ [c] ++ tail] := by
      have hSplit : line = before ++ ((start ++ [c] ++ tail) ++ rest) := by
        rw [hLine, hTrim]
        simp only [List.append_assoc]
      rw [hSplit]
      exact visibleWords_between hBefore hRest hRestBlank
        (List.forall_mem_append.mpr ⟨hSolid, hTail⟩) (hVisible tail)
    rw [hKept, hWhole, trimLast_concat, trimEnd_append_gap hTailBlank, trimEnd_concat hc]

/-! ## Wrapped prose -/

theorem mem_spaced (column : Nat) {text : List Char} {c : Char} (h : c ∈ spaced column text) :
    c = ' ' ∨ c ∈ text := by
  induction text generalizing column with
  | nil => cases h
  | cons d rest ih =>
      cases hd : isSeparator d with
      | true =>
          obtain ⟨gap, column', -, hGap, hSpaced⟩ := spaced_separator column hd rest
          rw [hSpaced, List.mem_append] at h
          rcases h with hIn | hIn
          · exact Or.inl (hGap c hIn)
          · exact (ih _ hIn).imp_right (List.mem_cons_of_mem d)
      | false =>
          rw [spaced_of_not_separator column hd, List.mem_cons] at h
          rcases h with rfl | hIn
          · exact Or.inr List.mem_cons_self
          · exact (ih _ hIn).imp_right (List.mem_cons_of_mem d)

/-- What is true of the lines into which a text is wrapped. -/
structure IsWrapped (text : List Char) (lines : List (List Char)) : Prop where
  some : lines ≠ []
  words : lines.flatMap visibleWords = visibleWords text
  spaces : ∀ line ∈ lines, ∀ c ∈ line, isSeparator c = true → c = ' '
  chars : ∀ line ∈ lines, ∀ c ∈ line, c = ' ' ∨ c ∈ text

/-- The lines of wrapped prose have its visible words in order, and no other characters than those of the
prose and spaces. -/
theorem wrap_lines (width : Nat) (text : String) :
    IsWrapped text.toList ((wrap width text).map String.toList) := by
  obtain ⟨rows, hSome, hRows, hLines⟩ := wrap_layout width text
  obtain ⟨hWords, hEach⟩ := hRows.lines (spaced_separators 0 text.toList)
  rw [hLines]
  constructor
  · exact fun hNone => hSome (List.map_eq_nil_iff.mp hNone)
  · rw [List.flatMap_map, hWords, visibleWords, words_spaced, visibleWords]
  · exact List.forall_mem_map.mpr fun row hRow => (hEach row hRow).1
  · refine List.forall_mem_map.mpr fun row hRow c hc => mem_spaced 0 ?_
    rw [← flatten_chunks (spaced 0 text.toList)]
    obtain ⟨chunk, hChunk, hMem⟩ := List.mem_flatten.mp hc
    exact List.mem_flatten_of_mem ((hRows.parts row hRow).subset hChunk) hMem

/-- Lines behind a leader, each trimmed and closed by a line feed. -/
theorem toList_commentLines (leader : String) (lines : List String) :
    (String.join (lines.map (commentLine leader))).toList =
      ((lines.map String.toList).map fun line => trimEnd (leader.toList ++ line)).flatMap
        (· ++ ['\n']) := by
  rw [String.toList_join, List.flatMap_map, List.flatMap_map, List.flatMap_map]
  refine List.flatMap_congr fun line _ => ?_
  rw [commentLine, String.toList_append, String.toList_ofList]
  rfl

end CommBindings.Text
