import CommBindings.Proofs.Text.Lines
import CommBindings.Target.Basic

set_option autoImplicit false

/-! # Comments and their text

A comment may hold any text. Behind slashes or a hash it stays a comment: whatever line breaks the text
holds, each line of the comment begins with the marks (`comment_contained`).

A block comment of TypeScript ends at the first `*/`, and the text is taken over as it is. So the comment
ends where it should exactly if the text has no `*/` (`docComment_contained_iff`); what stands behind one
in the text becomes code (`text_escapes`).
-/

namespace CommBindings

open Text

/-! ## Lines of a source text -/

/-- The characters at which a line may end. -/
def isLineBreak (c : Char) : Bool := c = '\n' || c = '\r' || c = '\x0b' || c = '\x0c'

/-- The lines of a source text. What stands behind the last line break is a line unless it is empty. -/
def sourceLines (source : List Char) : List (List Char) :=
  let pieces := source.splitOnP isLineBreak
  if pieces.getLast? = some [] then pieces.dropLast else pieces

/-- A character of an indentation. -/
def isIndent (c : Char) : Bool := c = ' ' || c = '\t'

/-- The line is a comment from the marks on, which only an indentation may precede. -/
def IsLineComment (marks : String) (line : List Char) : Prop :=
  marks.toList <+: line.dropWhile isIndent

theorem isSeparator_of_isLineBreak {c : Char} (h : isLineBreak c = true) :
    isSeparator c = true ∧ c ≠ ' ' := by
  simp only [isLineBreak, Bool.or_eq_true, decide_eq_true_eq] at h
  rcases h with ((rfl | rfl) | rfl) | rfl <;> decide

/-- Lines that are each closed by a line feed are the lines of the whole. -/
theorem sourceLines_closed {lines : List (List Char)}
    (h : ∀ line ∈ lines, ∀ c ∈ line, isLineBreak c = false) :
    sourceLines (lines.flatMap (· ++ ['\n'])) = lines := by
  have hPieces : (lines.flatMap (· ++ ['\n'])).splitOnP isLineBreak = lines ++ [[]] := by
    induction lines with
    | nil => rfl
    | cons line rest ih =>
        obtain ⟨hLine, hRest⟩ := List.forall_mem_cons.mp h
        rw [List.flatMap_cons, List.append_assoc, List.singleton_append,
          List.splitOnP_append_cons_of_forall_mem hLine '\n' rfl, ih hRest, List.cons_append]
  rw [sourceLines, hPieces, List.getLast?_concat, List.dropLast_concat, if_pos rfl]

/-! ## Line comments -/

/-- The lines of a comment, without the line feeds that close them. -/
def commentLines (leader text : String) : List (List Char) :=
  ((wrap commentWidth text).map String.toList).map fun line => trimEnd (leader.toList ++ line)

theorem toList_comment (leader text : String) :
    (comment leader text).toList = (commentLines leader text).flatMap (· ++ ['\n']) :=
  toList_commentLines leader (wrap commentWidth text)

theorem commentLines_ne_nil (leader text : String) : commentLines leader text ≠ [] := by
  rw [commentLines, ne_eq, List.map_eq_nil_iff]
  exact (wrap_lines commentWidth text).some

/-- Each line of a comment begins with the leader, trimmed, and holds no line break. -/
theorem of_mem_commentLines {leader : String} (hLeader : ∀ c ∈ leader.toList, isLineBreak c = false)
    {text : String} {line : List Char} (h : line ∈ commentLines leader text) :
    trimEnd leader.toList <+: line ∧ ∀ c ∈ line, isLineBreak c = false := by
  obtain ⟨prose, hProse, rfl⟩ := List.mem_map.mp h
  refine ⟨trimEnd_prefix_append _ _, fun c hc => ?_⟩
  have hMem : c ∈ leader.toList ++ prose := (List.rdropWhile_prefix isBlank _).subset hc
  rcases List.mem_append.mp hMem with hIn | hIn
  · exact hLeader c hIn
  · -- of the separators only spaces are left in wrapped prose
    refine Bool.eq_false_of_not_eq_true fun hBreak => ?_
    obtain ⟨hSeparator, hOther⟩ := isSeparator_of_isLineBreak hBreak
    exact hOther ((wrap_lines commentWidth text).spaces prose hProse c hIn hSeparator)

theorem sourceLines_comment {leader : String} (hLeader : ∀ c ∈ leader.toList, isLineBreak c = false)
    (text : String) : sourceLines (comment leader text).toList = commentLines leader text := by
  rw [toList_comment]
  exact sourceLines_closed fun line hLine => (of_mem_commentLines hLeader hLine).2

theorem isBlank_of_isLineBreak {c : Char} (h : isLineBreak c = true) : isBlank c = true :=
  isBlank_of_isSeparator (isSeparator_of_isLineBreak h).1

theorem of_isIndent {c : Char} (h : isIndent c = true) :
    isLineBreak c = false ∧ isBlank c = true := by
  simp only [isIndent, Bool.or_eq_true, decide_eq_true_eq] at h
  rcases h with rfl | rfl <;> decide

/-- A leader of marks between an indentation and a space makes each line a comment. The marks have no
blank characters. -/
theorem isLineComment_of_leader {leader indent marks : String}
    (hIndent : ∀ c ∈ indent.toList, isIndent c = true) (hMarks : marks.toList ≠ [])
    (hMarksVisible : marks.toList.any isBlank = false)
    (hLeader : leader.toList = indent.toList ++ (marks.toList ++ [' '])) (text : String) :
    ∀ line ∈ sourceLines (comment leader text).toList, IsLineComment marks line := by
  have hVisible : ∀ c ∈ marks.toList, isBlank c = false :=
    fun c hc => Bool.eq_false_of_not_eq_true (List.any_eq_false.mp hMarksVisible c hc)
  have hBreaks : ∀ c ∈ leader.toList, isLineBreak c = false := by
    have hNone : ∀ c ∈ marks.toList, isLineBreak c = false := fun c hc => by
      refine Bool.eq_false_of_not_eq_true fun hBreak => ?_
      have hBlank := isBlank_of_isLineBreak hBreak
      rw [hVisible c hc] at hBlank
      cases hBlank
    rw [hLeader]
    exact List.forall_mem_append.mpr ⟨fun c hc => (of_isIndent (hIndent c hc)).1,
      List.forall_mem_append.mpr ⟨hNone, List.forall_mem_singleton.mpr rfl⟩⟩
  have hTrim : trimEnd leader.toList = indent.toList ++ marks.toList := by
    have hGap : ∀ c ∈ [' '], isBlank c = true := List.forall_mem_singleton.mpr isBlank_space
    have hLast := List.dropLast_append_getLast hMarks
    rw [hLeader, ← List.append_assoc, trimEnd_append_gap hGap, ← hLast, ← List.append_assoc,
      trimEnd_concat (hVisible _ (List.getLast_mem hMarks))]
  rw [sourceLines_comment hBreaks]
  intro line hLine
  obtain ⟨more, rfl⟩ := (of_mem_commentLines hBreaks hLine).1
  have hStart : (marks.toList ++ more).dropWhile isIndent = marks.toList ++ more := by
    obtain ⟨first, rest, hFirst⟩ := List.exists_cons_of_ne_nil hMarks
    rw [hFirst, List.cons_append]
    refine List.dropWhile_cons_of_neg fun hIndented => ?_
    have hBlank := (of_isIndent hIndented).2
    rw [hVisible first (hFirst ▸ List.mem_cons_self)] at hBlank
    cases hBlank
  rw [hTrim, IsLineComment, List.append_assoc, List.dropWhile_append_of_pos hIndent, hStart]
  exact List.prefix_append _ _

/-- **Line comments hold their text.** For every leader without a line break and every text the comment
is a sequence of lines, at least one, each of which begins with the leader, trimmed, and ends with its
only line break, a line feed. So every line of a comment behind slashes or a hash is a comment, whatever
the text. -/
theorem comment_contained {leader indent : String}
    (hLeader : ∀ c ∈ leader.toList, isLineBreak c = false)
    (hIndent : ∀ c ∈ indent.toList, isIndent c = true) (text : String) :
    (∃ lines, lines ≠ [] ∧ comment leader text = String.join (lines.map (· ++ "\n")) ∧
        ∀ line ∈ lines, trimEnd leader.toList <+: line.toList ∧
          ∀ c ∈ line.toList, isLineBreak c = false) ∧
      (∀ c ∈ (comment leader text).toList, c ≠ '\r' ∧ c ≠ '\x0b' ∧ c ≠ '\x0c') ∧
      (∀ line ∈ sourceLines (Rust.docComment indent text).toList, IsLineComment "///" line) ∧
      ∀ line ∈ sourceLines (comment (indent ++ "# ") text).toList, IsLineComment "#" line := by
  have hLines : ∀ line ∈ commentLines leader text, _ ∧ _ :=
    fun line hLine => of_mem_commentLines hLeader hLine
  refine ⟨⟨(commentLines leader text).map String.ofList, ?_, ?_, ?_⟩, ?_, ?_, ?_⟩
  · rw [ne_eq, List.map_eq_nil_iff]
    exact commentLines_ne_nil leader text
  · rw [← String.toList_inj, toList_comment, String.toList_join, List.flatMap_map, List.flatMap_map]
    refine List.flatMap_congr fun line _ => ?_
    rw [String.toList_append, String.toList_ofList]
    rfl
  · refine List.forall_mem_map.mpr fun line hLine => ?_
    rw [String.toList_ofList]
    exact hLines line hLine
  · rw [toList_comment]
    intro c hc
    obtain ⟨line, hLine, hMem⟩ := List.mem_flatMap.mp hc
    rcases List.mem_append.mp hMem with hIn | hIn
    · have hOther := (hLines line hLine).2 c hIn
      refine ⟨?_, ?_, ?_⟩ <;> rintro rfl <;> cases hOther
    · rw [List.mem_singleton.mp hIn]
      decide
  · have hSlashes : (indent ++ "/// ").toList = indent.toList ++ ("///".toList ++ [' ']) :=
      String.toList_append
    exact isLineComment_of_leader hIndent (by decide) (by decide) hSlashes text
  · have hHash : (indent ++ "# ").toList = indent.toList ++ ("#".toList ++ [' ']) :=
      String.toList_append
    exact isLineComment_of_leader hIndent (by decide) (by decide) hHash text

/-- Line breaks in the text, and what would be code on a line of its own. -/
theorem contained_lineBreaks :
    (∀ c ∈ "\t/// ".toList, isLineBreak c = false) ∧ (∀ c ∈ "\t".toList, isIndent c = true) ∧
      Rust.docComment "\t" "one\r\nfn two() \x7b\x7d\x0c" = "\t/// one  fn two() \x7b\x7d\n" ∧
      ∀ line ∈ sourceLines (Rust.docComment "\t" "one\r\nfn two() \x7b\x7d\x0c").toList,
        IsLineComment "///" line := by
  have hLeader : ∀ c ∈ "\t/// ".toList, isLineBreak c = false := by
    intro c hc
    exact Bool.eq_false_of_not_eq_true (List.any_eq_false.mp (by decide) c hc)
  have hIndent : ∀ c ∈ "\t".toList, isIndent c = true := List.forall_mem_singleton.mpr rfl
  have hText : Rust.docComment "\t" "one\r\nfn two() \x7b\x7d\x0c" =
      "\t/// one  fn two() \x7b\x7d\n" := by
    cbv
  obtain ⟨-, -, hSlashes, -⟩ := comment_contained hLeader hIndent "one\r\nfn two() \x7b\x7d\x0c"
  exact ⟨hLeader, hIndent, hText, hSlashes⟩

/-! ## Block comments -/

/-- The number of places at which a block comment would end. -/
def closings : List Char → Nat
  | [] => 0
  | c :: rest => (if c = '*' ∧ rest.head? = some '/' then 1 else 0) + closings rest

/-- What stands behind a block comment, read from its inside on. -/
def afterClosing? : List Char → Option (List Char)
  | [] => none
  | c :: rest => if c = '*' ∧ rest.head? = some '/' then some rest.tail else afterClosing? rest

/-- What stands behind the block comment with which a source text begins, an indentation aside. -/
def afterBlock? (source : List Char) : Option (List Char) :=
  match source.dropWhile isIndent with
  | '/' :: '*' :: inside => afterClosing? inside
  | _ => none

/-- Two texts have the closings of their own, unless one arises where they meet. -/
theorem closings_append {front back : List Char}
    (h : front.getLast? ≠ some '*' ∨ back.head? ≠ some '/') :
    closings (front ++ back) = closings front + closings back := by
  induction front with
  | nil => exact (Nat.zero_add _).symm
  | cons c rest ih =>
      cases rest with
      | nil =>
          have hNone : ¬ (c = '*' ∧ back.head? = some '/') := by
            rintro ⟨rfl, hSlash⟩
            rcases h with hStar | hOther
            · exact hStar rfl
            · exact hOther hSlash
          show (if c = '*' ∧ back.head? = some '/' then 1 else 0) + closings back = _
          rw [if_neg hNone]
          simp [closings]
      | cons d more =>
          rw [List.getLast?_cons_cons] at h
          have hRest := ih h
          show (if c = '*' ∧ some d = some '/' then 1 else 0) + closings (d :: more ++ back) =
            (if c = '*' ∧ some d = some '/' then 1 else 0) + closings (d :: more) + closings back
          rw [hRest, Nat.add_assoc]

theorem closings_cons {c : Char} (h : c ≠ '*') (rest : List Char) :
    closings (c :: rest) = closings rest := by
  rw [closings, if_neg fun hStar => h hStar.1, Nat.zero_add]

theorem closings_star {d : Char} (h : d ≠ '/') (rest : List Char) :
    closings ('*' :: d :: rest) = closings (d :: rest) := by
  rw [closings, if_neg fun hSlash => h (Option.some.inj hSlash.2), Nat.zero_add]

theorem closings_append_cons {d : Char} (h : d ≠ '/') (front rest : List Char) :
    closings (front ++ d :: rest) = closings front + closings (d :: rest) :=
  closings_append (Or.inr fun hSlash => h (Option.some.inj hSlash))

theorem closings_eq_zero {text : List Char} (h : ∀ c ∈ text, c ≠ '*') : closings text = 0 := by
  induction text with
  | nil => rfl
  | cons c rest ih =>
      obtain ⟨hFirst, hRest⟩ := List.forall_mem_cons.mp h
      rw [closings_cons hFirst, ih hRest]

theorem ne_of_isBlank {c : Char} (h : isBlank c = true) : c ≠ '*' ∧ c ≠ '/' := by
  constructor <;> rintro rfl <;> exact absurd h (by decide)

theorem closings_run {run : List Char} (h : ∀ c ∈ run, isSeparator c = false) :
    closings run = ((words run).map closings).sum := by
  rw [words_of_run h]
  split
  · next hEmpty =>
    rw [hEmpty]
    rfl
  · exact (Nat.add_zero _).symm

/-- Every closing lies inside a word. -/
theorem closings_words (text : List Char) : closings text = ((words text).map closings).sum := by
  induction text using induction_on_words with
  | hRun run hSolid => exact closings_run hSolid
  | hCut run c rest hSolid hc ih =>
      obtain ⟨hStar, hSlash⟩ := ne_of_isBlank (isBlank_of_isSeparator hc)
      rw [words_append_separator hc, List.map_append, List.sum_append, ← closings_run hSolid, ← ih,
        closings_append_cons hSlash, closings_cons hStar]

/-- Every closing lies inside a visible word. -/
theorem closings_visibleWords (text : List Char) :
    closings text = ((visibleWords text).map closings).sum := by
  have hNone : ∀ word, isVisible word = false → closings word = 0 := by
    intro word hWord
    rw [isVisible, Bool.not_eq_false', isBlankText, List.all_eq_true] at hWord
    exact closings_eq_zero fun c hc => (ne_of_isBlank (hWord c hc)).1
  rw [closings_words, visibleWords]
  induction words text with
  | nil => rfl
  | cons word rest ih =>
      rw [List.map_cons, List.sum_cons, List.filter_cons, ih]
      cases hWord : isVisible word with
      | true => rfl
      | false => rw [hNone word hWord, Nat.zero_add, if_neg Bool.false_ne_true]

/-- Lines with the visible words of a text have its closings. -/
theorem closings_lines {lines : List (List Char)} {text : List Char}
    (h : lines.flatMap visibleWords = visibleWords text) : (lines.map closings).sum = closings text := by
  rw [closings_visibleWords text, ← h]
  clear h
  induction lines with
  | nil => rfl
  | cons line rest ih =>
      rw [List.map_cons, List.sum_cons, ih, List.flatMap_cons, List.map_append, List.sum_append,
        ← closings_visibleWords]

theorem closings_trimEnd (text : List Char) : closings (trimEnd text) = closings text := by
  obtain ⟨gap, hGap, hText⟩ := exists_gap text
  have hMeet : gap.head? ≠ some '/' := fun hHead =>
    (ne_of_isBlank (hGap '/' (List.mem_of_mem_head? hHead))).2 rfl
  calc closings (trimEnd text)
      = closings (trimEnd text) + closings gap := by
        rw [closings_eq_zero fun c hc => (ne_of_isBlank (hGap c hc)).1, Nat.add_zero]
    _ = closings text := by rw [← closings_append (Or.inr hMeet), ← hText]

/-- The closings of a comment are those of its text, if the leader has none and does not end with the
first half of one. -/
theorem closings_comment {leader : String} (hLeader : closings leader.toList = 0)
    (hEnd : leader.toList.getLast? ≠ some '*') (text : String) :
    closings (comment leader text).toList = closings text.toList := by
  have hLine : ∀ line, closings (trimEnd (leader.toList ++ line)) = closings line := fun line => by
    rw [closings_trimEnd, closings_append (Or.inl hEnd), hLeader, Nat.zero_add]
  have hJoined : ∀ lines : List (List Char),
      closings (lines.flatMap (· ++ ['\n'])) = (lines.map closings).sum := by
    intro lines
    induction lines with
    | nil => rfl
    | cons line rest ih =>
        have hFeed : (line ++ ['\n']).getLast? ≠ some '*' := by
          rw [List.getLast?_concat]
          decide
        rw [List.flatMap_cons, closings_append (Or.inl hFeed), ih, closings_append_cons (by decide),
          List.map_cons, List.sum_cons]
        rfl
  rw [toList_comment, hJoined, commentLines, List.map_map, ← closings_lines
    (wrap_lines commentWidth text).words]
  exact congrArg List.sum (List.map_congr_left fun line _ => hLine line)

theorem exists_lastFeed (leader text : String) : ∃ front, comment leader text = front ++ "\n" := by
  have hSome := commentLines_ne_nil leader text
  refine ⟨String.ofList ((commentLines leader text).dropLast.flatMap (· ++ ['\n']) ++
    (commentLines leader text).getLast hSome), ?_⟩
  rw [← String.toList_inj, toList_comment, String.toList_append, String.toList_ofList,
    List.append_assoc]
  conv_lhs => rw [← List.dropLast_append_getLast hSome, List.flatMap_append, List.flatMap_singleton]
  rfl

/-! ## Reading a block comment -/

theorem afterClosing?_of_first {front : List Char} (h : closings front = 0) (rest : List Char) :
    afterClosing? (front ++ '*' :: '/' :: rest) = some rest := by
  induction front with
  | nil => rfl
  | cons c more ih =>
      rw [closings, Nat.add_eq_zero_iff] at h
      have hNext : (more ++ '*' :: '/' :: rest).head? = some '/' → more.head? = some '/' := by
        cases more with
        | nil => exact fun hStar => absurd (Option.some.inj hStar) (by decide)
        | cons d others => exact id
      have hOpen : ¬ (c = '*' ∧ (more ++ '*' :: '/' :: rest).head? = some '/') := by
        rintro ⟨rfl, hSlash⟩
        rw [if_pos ⟨rfl, hNext hSlash⟩] at h
        cases h.1
      rw [List.cons_append, afterClosing?, if_neg hOpen, ih h.2]

/-- A comment takes the first of the closings. -/
theorem closings_of_afterClosing? {text rest : List Char} (h : afterClosing? text = some rest) :
    closings text = closings rest + 1 := by
  induction text with
  | nil => cases h
  | cons c more ih =>
      rw [afterClosing?] at h
      split at h
      · next hClosing =>
        obtain ⟨rfl, hSlash⟩ := hClosing
        cases more with
        | nil => cases hSlash
        | cons d others =>
            cases hSlash
            cases h
            rw [closings, if_pos ⟨rfl, rfl⟩, closings_cons (by decide), Nat.add_comm]
            rfl
      · next hOpen => rw [closings, if_neg hOpen, Nat.zero_add, ih h]

namespace TypeScript

/-- What a block comment has between its opening and its closing. -/
def inside (indent text : String) : List Char :=
  '*' :: '\n' :: ((comment (indent ++ " * ") text).toList ++ (indent.toList ++ [' ']))

theorem toList_docComment (indent text : String) :
    (docComment indent text).toList =
      indent.toList ++ '/' :: '*' :: (inside indent text ++ '*' :: '/' :: ['\n']) := by
  have hOpening : "/**\n".toList = ['/', '*', '*', '\n'] := by decide
  have hClosing : " */\n".toList = [' ', '*', '/', '\n'] := by decide
  rw [docComment, String.toList_append, String.toList_append, String.toList_append,
    String.toList_append, hOpening, hClosing, inside]
  simp

theorem ne_star_of_isIndent {indent : List Char} (hIndent : ∀ c ∈ indent, isIndent c = true) :
    ∀ c ∈ indent, c ≠ '*' :=
  fun c hc => (ne_of_isBlank (of_isIndent (hIndent c hc)).2).1

/-- The inside of a block comment has the closings of the text. -/
theorem closings_inside {indent : String} (hIndent : ∀ c ∈ indent.toList, isIndent c = true)
    (text : String) : closings (inside indent text) = closings text.toList := by
  have hStarless := ne_star_of_isIndent hIndent
  have hLeader : (indent ++ " * ").toList = indent.toList ++ [' ', '*', ' '] := String.toList_append
  have hNone : closings (indent ++ " * ").toList = 0 := by
    rw [hLeader, closings_append_cons (by decide), closings_eq_zero hStarless]
    rfl
  have hEnd : (indent ++ " * ").toList.getLast? ≠ some '*' := by
    rw [hLeader, List.getLast?_append_of_ne_nil _ (by decide)]
    decide
  have hTail : closings (indent.toList ++ [' ']) = 0 :=
    closings_eq_zero (List.forall_mem_append.mpr
      ⟨hStarless, List.forall_mem_singleton.mpr (by decide)⟩)
  have hMeet : (indent.toList ++ [' ']).head? ≠ some '/' := by
    cases hChars : indent.toList with
    | nil => decide
    | cons c rest =>
        rw [hChars] at hIndent
        intro hHead
        have hSlash : c = '/' := Option.some.inj hHead
        exact (ne_of_isBlank (of_isIndent (hIndent c List.mem_cons_self)).2).2 hSlash
  calc closings (inside indent text)
      = closings ((comment (indent ++ " * ") text).toList ++ (indent.toList ++ [' '])) := by
        rw [inside, closings_star (by decide), closings_cons (by decide)]
    _ = closings text.toList := by
        rw [closings_append (Or.inr hMeet), closings_comment hNone hEnd, hTail, Nat.add_zero]

theorem closings_closed {indent : String} (hIndent : ∀ c ∈ indent.toList, isIndent c = true)
    (text : String) :
    closings (inside indent text ++ '*' :: '/' :: ['\n']) = closings text.toList + 1 := by
  rw [closings_append_cons (by decide), closings_inside hIndent]
  rfl

theorem closings_docComment {indent : String} (hIndent : ∀ c ∈ indent.toList, isIndent c = true)
    (text : String) : closings (docComment indent text).toList = closings text.toList + 1 := by
  have hEnd : indent.toList.getLast? ≠ some '*' := fun hStar =>
    ne_star_of_isIndent hIndent '*' (List.mem_of_getLast? hStar) rfl
  have hOpening : ∀ rest, closings ('/' :: '*' :: '*' :: rest) = closings ('*' :: rest) :=
    fun rest => (closings_cons (by decide) _).trans (closings_star (by decide) rest)
  rw [toList_docComment, closings_append (Or.inl hEnd),
    closings_eq_zero (ne_star_of_isIndent hIndent), Nat.zero_add]
  exact (hOpening _).trans (closings_closed hIndent text)

/-- **What a block comment ends at.** At every indent of tabs and spaces the comment for a text has the
closings of the text and its own, with which its last line ends. So it is one block comment exactly if the
text has no closing. -/
theorem docComment_contained_iff {indent : String} (hIndent : ∀ c ∈ indent.toList, isIndent c = true)
    (text : String) :
    closings (docComment indent text).toList = closings text.toList + 1 ∧
      (∃ front, docComment indent text = front ++ "\n" ++ indent ++ " */\n") ∧
      (afterBlock? (docComment indent text).toList = some ['\n'] ↔ closings text.toList = 0) := by
  have hRead : afterBlock? (docComment indent text).toList =
      afterClosing? (inside indent text ++ '*' :: '/' :: ['\n']) := by
    rw [afterBlock?, toList_docComment, List.dropWhile_append_of_pos hIndent,
      List.dropWhile_cons_of_neg (by decide)]
    rfl
  refine ⟨closings_docComment hIndent text, ?_, ?_⟩
  · obtain ⟨front, hFront⟩ := exists_lastFeed (indent ++ " * ") text
    refine ⟨indent ++ "/**\n" ++ front, ?_⟩
    rw [docComment, hFront]
    simp only [String.append_assoc]
  · rw [hRead]
    constructor
    · intro hEnds
      have hOne := closings_of_afterClosing? hEnds
      rw [closings_closed hIndent] at hOne
      exact Nat.add_right_cancel hOne
    · intro hNone
      exact afterClosing?_of_first ((closings_inside hIndent text).trans hNone) ['\n']

/-- The halves of a closing on two lines, and an opening, leave the comment as it is. -/
theorem contained_halves :
    (∀ c ∈ "\t".toList, isIndent c = true) ∧ closings "half *\n/ of one, /* two".toList = 0 ∧
      afterBlock? (docComment "\t" "half *\n/ of one, /* two").toList = some ['\n'] := by
  have hIndent : ∀ c ∈ "\t".toList, isIndent c = true := List.forall_mem_singleton.mpr rfl
  have hNone : closings "half *\n/ of one, /* two".toList = 0 := by decide
  obtain ⟨-, -, hReads⟩ := docComment_contained_iff hIndent "half *\n/ of one, /* two"
  exact ⟨hIndent, hNone, hReads.mpr hNone⟩

/-- A closing in the text ends the comment, and the rest of the text is code. -/
theorem text_escapes :
    docComment "" "*/ run();" = "/**\n * */ run();\n */\n" ∧
      afterBlock? (docComment "" "*/ run();").toList = some " run();\n */\n".toList ∧
      closings (docComment "" "*/ run();").toList = 2 := by
  have hText : docComment "" "*/ run();" = "/**\n * */ run();\n */\n" := by
    cbv
  rw [hText]
  exact ⟨rfl, by decide, by decide⟩

end TypeScript

end CommBindings
