import CommBindings.Proofs.Naming

set_option autoImplicit false

/-! # Names that meet

The names of generated code are made from the names of contracts, and two different ones can come to
the same. For each way to make names this module tells which do: fields (`rustField_eq_iff`,
`pythonField_eq_iff`), members of enumerations (`enumMember_eq_iff`), and names in camel case
(`camelCase_eq_iff`) and in Pascal case (`pascalCase_eq_iff`). The relations are told by the names that
the contracts have.
-/

namespace CommBindings.Naming

open CommBindings.Text

/-! ## Escapes -/

/-- Two things come to the same where those of a sort are escaped: they are the same, or one is of the
sort and the other is what it is escaped to. -/
def MeetEscaped {α : Type} (mustEscape : α → Prop) (escape : α → α) (a b : α) : Prop :=
  a = b ∨ (mustEscape a ∧ b = escape a) ∨ (mustEscape b ∧ a = escape b)

/-- An escape that is undone by no other, and leads out of the sort that is escaped, brings together
just those that meet. -/
theorem escaped_eq_iff {α : Type} {mustEscape : α → Prop} [DecidablePred mustEscape] {escape : α → α}
    (hInj : Function.Injective escape) (hOut : ∀ a, mustEscape a → ¬ mustEscape (escape a)) {a b : α} :
    (if mustEscape a then escape a else a) = (if mustEscape b then escape b else b) ↔
      MeetEscaped mustEscape escape a b := by
  by_cases ha : mustEscape a
  · by_cases hb : mustEscape b
    · rw [if_pos ha, if_pos hb, hInj.eq_iff]
      constructor
      · exact Or.inl
      · rintro (hSame | ⟨-, rfl⟩ | ⟨-, rfl⟩)
        · exact hSame
        · exact absurd hb (hOut a ha)
        · exact absurd ha (hOut b hb)
    · rw [if_pos ha, if_neg hb]
      constructor
      · exact fun h => Or.inr (Or.inl ⟨ha, h.symm⟩)
      · rintro (rfl | ⟨-, hEscaped⟩ | ⟨hb', -⟩)
        · exact absurd ha hb
        · exact hEscaped.symm
        · exact absurd hb' hb
  · by_cases hb : mustEscape b
    · rw [if_neg ha, if_pos hb]
      constructor
      · exact fun h => Or.inr (Or.inr ⟨hb, h⟩)
      · rintro (rfl | ⟨ha', -⟩ | ⟨-, hEscaped⟩)
        · exact absurd hb ha
        · exact absurd ha' ha
        · exact hEscaped
    · rw [if_neg ha, if_neg hb]
      constructor
      · exact Or.inl
      · rintro (hSame | ⟨ha', -⟩ | ⟨hb', -⟩)
        · exact hSame
        · exact absurd ha' ha
        · exact absurd hb' hb

/-! ## Fields -/

/-- Two names of one field in Rust. With low lines in place of hyphens they are the same, or one is a
reserved word and the other the raw identifier for it. -/
def RustFieldsMeet (a b : String) : Prop :=
  MeetEscaped (· ∈ rustKeywords) ("r#" ++ ·) (withoutHyphens a) (withoutHyphens b)

/-- Two names of one attribute in Python. With low lines in place of hyphens they are the same, or one
is a reserved word and the other is the word with a low line at its end. -/
def PythonFieldsMeet (a b : String) : Prop :=
  MeetEscaped (· ∈ pythonKeywords) (· ++ "_") (withoutHyphens a) (withoutHyphens b)

theorem append_left_injective (text : String) : Function.Injective (text ++ ·) := by
  intro a b h
  have hChars := congrArg String.toList h
  rw [String.toList_append, String.toList_append] at hChars
  exact String.toList_inj.mp (List.append_cancel_left hChars)

theorem append_right_injective (text : String) : Function.Injective (· ++ text) := by
  intro a b h
  have hChars := congrArg String.toList h
  rw [String.toList_append, String.toList_append] at hChars
  exact String.toList_inj.mp (List.append_cancel_right hChars)

theorem rustField_eq_iff {a b : String} : rustField a = rustField b ↔ RustFieldsMeet a b := by
  have hOut : ∀ word ∈ rustKeywords, "r#" ++ word ∉ rustKeywords := by decide +kernel
  unfold rustField RustFieldsMeet
  simp only [List.contains_iff_mem]
  exact escaped_eq_iff (append_left_injective "r#") hOut

theorem pythonField_eq_iff {a b : String} : pythonField a = pythonField b ↔ PythonFieldsMeet a b := by
  have hOut : ∀ word ∈ pythonKeywords, word ++ "_" ∉ pythonKeywords := by decide +kernel
  unfold pythonField PythonFieldsMeet
  simp only [List.contains_iff_mem]
  exact escaped_eq_iff (append_right_injective "_") hOut

/-! ## Camel case and Pascal case -/

/-- An ASCII capital letter. -/
def isCapital (c : Char) : Bool := 'A' ≤ c && c ≤ 'Z'

/-- Every capital letter as a low line and the small letter. -/
def splitWords (chars : List Char) : List Char :=
  chars.flatMap fun c => if isCapital c then ['_', c.toLower] else [c]

/-- The characters of a name, its operators spelled out. -/
def spelledOut (name : String) : List Char := name.toList.flatMap spellOperator

/-- Two names of one argument: with operators spelled out and a low line and the small letter in place
of each capital, they are the same. -/
def CamelMeet (a b : String) : Prop := splitWords (spelledOut a) = splitWords (spelledOut b)

/-- Two names of one variant: with operators spelled out, the first character in upper case, and a low
line and the small letter in place of each capital, they are the same. -/
def PascalMeet (a b : String) : Prop :=
  splitWords (capitalized (spelledOut a)) = splitWords (capitalized (spelledOut b))

theorem small_or_capital_toUpper {c : Char} (h : isSmallLetter c = true) :
    isCapital c = false ∧ isCapital c.toUpper = true ∧ c.toUpper.toLower = c := by
  have hAll : ∀ k < 26, isCapital (Char.ofNat (97 + k)) = false ∧
      isCapital (Char.ofNat (97 + k)).toUpper = true ∧
      (Char.ofNat (97 + k)).toUpper.toLower = Char.ofNat (97 + k) := by
    decide
  obtain ⟨k, hk, rfl⟩ := exists_of_small h
  exact hAll k hk

theorem exists_of_capital {c : Char} (h : isCapital c = true) :
    ∃ k < 26, Char.ofNat (65 + k) = c := by
  rw [isCapital, Bool.and_eq_true, decide_eq_true_eq, decide_eq_true_eq] at h
  have hLow : 65 ≤ c.toNat := h.1
  have hHigh : c.toNat ≤ 90 := h.2
  refine ⟨c.toNat - 65, by omega, ?_⟩
  rw [Nat.add_sub_cancel' hLow, Char.ofNat_toNat]

theorem toLower_of_capital {c : Char} (h : isCapital c = true) :
    isSmallLetter c.toLower = true ∧ c.toLower.toUpper = c := by
  have hAll : ∀ k < 26, isSmallLetter (Char.ofNat (65 + k)).toLower = true ∧
      (Char.ofNat (65 + k)).toLower.toUpper = Char.ofNat (65 + k) := by
    decide
  obtain ⟨k, hk, rfl⟩ := exists_of_capital h
  exact hAll k hk

theorem splitWords_cons (c : Char) (chars : List Char) :
    splitWords (c :: chars) = (if isCapital c then ['_', c.toLower] else [c]) ++ splitWords chars :=
  List.flatMap_cons

/-- Words that are joined and split again are as they were before. -/
theorem splitWords_joinWords (chars : List Char) :
    splitWords (joinWords chars) = splitWords chars := by
  have hLow : isCapital '_' = false := by decide
  fun_induction joinWords chars with
  | case1 c rest hSmall ih =>
      obtain ⟨hApart, hCapital, hBack⟩ := small_or_capital_toUpper hSmall
      -- the low line and the small letter became a capital, which is split into both again
      calc splitWords (c.toUpper :: joinWords rest)
          = ['_', c.toUpper.toLower] ++ splitWords (joinWords rest) := by
            rw [splitWords_cons, if_pos hCapital]
        _ = ['_', c] ++ splitWords rest := by rw [hBack, ih]
        _ = splitWords ('_' :: c :: rest) := by
            rw [splitWords_cons, splitWords_cons, hLow, hApart]
            rfl
  | case2 c rest hSmall ih => rw [splitWords_cons, ih, ← splitWords_cons]
  | case3 c rest hStart ih => rw [splitWords_cons, ih, ← splitWords_cons]
  | case4 => rfl

/-- A low line that joined words keep stands before no small letter, and what follows it is joined. -/
theorem joined_of_low {chars : List Char} (h : joinWords ('_' :: chars) = '_' :: chars) :
    chars.head?.all (fun c => !isSmallLetter c) = true ∧ joinWords chars = chars := by
  cases chars with
  | nil => exact ⟨rfl, rfl⟩
  | cons c rest =>
      rw [joinWords] at h
      split at h
      · next hSmall =>
        -- the capital that takes the place of both is no low line
        exact absurd (List.cons.inj h).1 (toUpper_of_small hSmall).2.1
      · next hSmall =>
        refine ⟨?_, (List.cons.inj h).2⟩
        rw [List.head?_cons, Option.all_some, Bool.not_eq_true', Bool.eq_false_iff]
        exact hSmall

theorem joinWords_low {chars : List Char} (h : chars.head?.all (fun c => !isSmallLetter c) = true) :
    joinWords ('_' :: chars) = '_' :: joinWords chars := by
  cases chars with
  | nil => rfl
  | cons c rest =>
      rw [List.head?_cons, Option.all_some, Bool.not_eq_true'] at h
      rw [joinWords, h, if_neg Bool.false_ne_true]

theorem head_splitWords {chars : List Char} (h : chars.head?.all (fun c => !isSmallLetter c) = true) :
    (splitWords chars).head?.all (fun c => !isSmallLetter c) = true := by
  cases chars with
  | nil => rfl
  | cons c rest =>
      rw [splitWords_cons]
      split
      · rfl
      · exact h

/-- Joined words that are split and joined again are as they were before. -/
theorem joinWords_splitWords {chars : List Char} (h : joinWords chars = chars) :
    joinWords (splitWords chars) = chars := by
  induction chars with
  | nil => rfl
  | cons c rest ih =>
      rw [splitWords_cons]
      -- only a low line looks at what is behind it: a split letter is joined on the spot
      by_cases hLow : c = '_'
      · subst hLow
        obtain ⟨hHead, hRest⟩ := joined_of_low h
        show joinWords ('_' :: splitWords rest) = '_' :: rest
        rw [joinWords_low (head_splitWords hHead), ih hRest]
      · rw [joinWords_cons hLow] at h
        have hRest := ih (List.cons.inj h).2
        by_cases hCapital : isCapital c = true
        · obtain ⟨hSmall, hBack⟩ := toLower_of_capital hCapital
          rw [if_pos hCapital]
          show joinWords ('_' :: c.toLower :: splitWords rest) = c :: rest
          rw [joinWords, if_pos hSmall, hBack, hRest]
        · rw [if_neg hCapital]
          show joinWords (c :: splitWords rest) = c :: rest
          rw [joinWords_cons hLow, hRest]

/-- Names come to one by joining words exactly if they are one once their words are split. -/
theorem joinWords_eq_iff {a b : List Char} :
    joinWords a = joinWords b ↔ splitWords a = splitWords b := by
  constructor
  · intro h
    rw [← splitWords_joinWords a, h, splitWords_joinWords]
  · intro h
    calc joinWords a
        = joinWords (splitWords (joinWords a)) := (joinWords_splitWords (joinWords_joinWords a)).symm
      _ = joinWords (splitWords (joinWords b)) := by rw [splitWords_joinWords, h, splitWords_joinWords]
      _ = joinWords b := joinWords_splitWords (joinWords_joinWords b)

theorem ofList_inj {a b : List Char} : String.ofList a = String.ofList b ↔ a = b := by
  rw [← String.toList_inj, String.toList_ofList, String.toList_ofList]

theorem camelCase_eq_iff {a b : String} : camelCase a = camelCase b ↔ CamelMeet a b :=
  ofList_inj.trans joinWords_eq_iff

theorem joinWords_append_plain {chars : List Char} (h : ∀ c ∈ chars, covers nameMarks c = false)
    (rest : List Char) : joinWords (chars ++ rest) = chars ++ joinWords rest := by
  induction chars with
  | nil => rfl
  | cons c others ih =>
      obtain ⟨hFirst, hOthers⟩ := List.forall_mem_cons.mp h
      rw [List.cons_append, joinWords_cons (spellOperator_of_plain hFirst).2, ih hOthers,
        List.cons_append]

theorem capitalized_of_head {chars : List Char} (h : chars.head?.any isLowercase = false) :
    capitalized chars = chars := by
  cases chars with
  | nil => rfl
  | cons c rest =>
      rw [List.head?_cons, Option.any_some] at h
      rw [capitalized, h, if_neg Bool.false_ne_true]

theorem isLowercase_toUpper {c : Char} (h : isSmallLetter c = true) :
    isLowercase c.toUpper = false := by
  have hAll : ∀ k < 26, isLowercase (Char.ofNat (97 + k)).toUpper = false := by
    decide +kernel
  obtain ⟨k, hk, rfl⟩ := exists_of_small h
  exact hAll k hk

/-- Joined words begin with a lower-case character only if the words did before. -/
theorem head_joinWords_lowercase {chars : List Char} (h : chars.head?.any isLowercase = false) :
    (joinWords chars).head?.any isLowercase = false := by
  cases chars with
  | nil => rfl
  | cons c rest =>
      by_cases hLow : c = '_'
      · subst hLow
        cases rest with
        | nil => exact h
        | cons d others =>
            rw [joinWords]
            split
            · next hSmall => exact isLowercase_toUpper hSmall
            · exact h
      · rw [joinWords_cons hLow]
        exact h

/-- It does not matter whether words are joined before or after the first character is put in upper
case. -/
theorem capitalized_joinWords (chars : List Char) :
    capitalized (joinWords chars) = joinWords (capitalized chars) := by
  cases chars with
  | nil => rfl
  | cons c rest =>
      by_cases hLower : isLowercase c = true
      · -- its upper case has no low line, so nothing behind it is joined with it
        have hPlain := plain_of_lowercase hLower
        rw [joinWords_cons (spellOperator_of_plain hPlain).2, capitalized, capitalized, if_pos hLower,
          if_pos hLower, joinWords_append_plain (upperOf_plain hPlain)]
      · have hHead : (c :: rest).head?.any isLowercase = false := Bool.eq_false_iff.mpr hLower
        rw [capitalized_of_head hHead, capitalized_of_head (head_joinWords_lowercase hHead)]

theorem pascalCase_eq_iff {a b : String} : pascalCase a = pascalCase b ↔ PascalMeet a b := by
  have hChars : ∀ name : String,
      capitalized (camelChars name.toList) = joinWords (capitalized (spelledOut name)) :=
    fun name => capitalized_joinWords (spelledOut name)
  rw [pascalCase, pascalCase, ofList_inj, hChars, hChars, joinWords_eq_iff]
  rfl

/-! ## Members of enumerations -/

/-- The value in Pascal case, with a low line in place of each character that no identifier may
hold. -/
def memberChars (value : String) : List Char := (pascalCase value).toList.map wordOrLowLine

/-- Nothing, or characters of which the first is a digit. -/
def BeginsNoName (chars : List Char) : Prop := chars.head?.all isDigit = true

instance : DecidablePred BeginsNoName := fun chars =>
  inferInstanceAs (Decidable (chars.head?.all isDigit = true))

/-- Two values of one member: in Pascal case, with low lines in place of characters that no identifier
may hold, they are the same, or one of them begins no name and the other is the same with a low line in
front. -/
def MembersMeet (a b : String) : Prop :=
  MeetEscaped BeginsNoName ('_' :: ·) (memberChars a) (memberChars b)

theorem guardFirst_eq (chars : List Char) :
    guardFirst chars = if BeginsNoName chars then '_' :: chars else chars := by
  cases chars with
  | nil => rfl
  | cons c rest =>
      show (if isDigit c = true then '_' :: c :: rest else c :: rest) = _
      by_cases hDigit : isDigit c = true
      · rw [if_pos hDigit, if_pos (show BeginsNoName (c :: rest) from hDigit)]
      · rw [if_neg hDigit, if_neg (show ¬ BeginsNoName (c :: rest) from hDigit)]

theorem enumMember_eq_iff {a b : String} : enumMember a = enumMember b ↔ MembersMeet a b := by
  have hOut : ∀ chars, BeginsNoName chars → ¬ BeginsNoName ('_' :: chars) := by
    intro chars _ hDigit
    have hLow : isDigit '_' = true := hDigit
    exact absurd hLow (by decide)
  have hMember : ∀ value, enumMember value = String.ofList (guardFirst (memberChars value)) :=
    fun _ => rfl
  rw [hMember, hMember, ofList_inj, guardFirst_eq, guardFirst_eq,
    escaped_eq_iff (List.cons_injective) hOut]
  rfl

end CommBindings.Naming
