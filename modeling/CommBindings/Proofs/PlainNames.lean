import CommBindings.Proofs.MeetingNames

set_option autoImplicit false

/-! # Plain names as identifiers

A plain name consists of ASCII letters, digits, low lines and hyphens, and begins with a letter. It is an
identifier if it has no hyphen (`isIdentifier_iff`). Camel case and Pascal case keep names plain and keep
their hyphens (`plain_camelCase`, `plain_pascalCase`); fields and modules lose them. A name in camel case
is a reserved word only if the name is (`camelCase_mem_iff`), and one in Pascal case only if the name is
the word but for its first letter (`pascalCase_eq_iff_word`).
-/

namespace CommBindings.Naming

open CommBindings.Text

/-! ## Characters -/

/-- An ASCII letter. -/
def isLetter (c : Char) : Bool := isSmallLetter c || isCapital c

/-- An ASCII letter or digit. -/
def isAlphanumeric (c : Char) : Bool := isLetter c || ('0' ≤ c && c ≤ '9')

/-- A character of a plain name. -/
def isPlainChar (c : Char) : Bool := isAlphanumeric c || c = '_' || c = '-'

theorem code_of_plain {c : Char} (h : isPlainChar c = true) : c.toNat < 128 := by
  have hCode : ∀ {low high : Char}, high.toNat < 128 → (low ≤ c && c ≤ high) = true → c.toNat < 128 := by
    intro low high hHigh hRange
    rw [Bool.and_eq_true, decide_eq_true_eq, decide_eq_true_eq] at hRange
    have hLess : c.toNat ≤ high.toNat := hRange.2
    omega
  simp only [isPlainChar, isAlphanumeric, isLetter, Bool.or_eq_true, decide_eq_true_eq] at h
  rcases h with (((hSmall | hCapital) | hDigit) | rfl) | rfl
  · exact hCode (by decide) hSmall
  · exact hCode (by decide) hCapital
  · exact hCode (by decide) hDigit
  · decide
  · decide

/-- What holds of all plain ASCII characters holds of every plain character. -/
theorem forall_plain (P : Char → Prop)
    (h : ∀ k < 128, isPlainChar (Char.ofNat k) = true → P (Char.ofNat k)) {c : Char}
    (hPlain : isPlainChar c = true) : P c := by
  have hCode := h c.toNat (code_of_plain hPlain)
  rw [Char.ofNat_toNat] at hCode
  exact hCode hPlain

theorem plain_of_letter {c : Char} (h : isLetter c = true) : isPlainChar c = true := by
  rw [isPlainChar, isAlphanumeric, h]
  rfl

theorem spellOperator_of_plainChar {c : Char} (h : isPlainChar c = true) : spellOperator c = [c] :=
  forall_plain (fun c => spellOperator c = [c]) (by decide) h

/-- A small letter becomes a letter. -/
theorem letter_toUpper {c : Char} (h : isSmallLetter c = true) : isLetter c.toUpper = true := by
  rw [isLetter, (small_or_capital_toUpper h).2.1, Bool.or_true]

/-- The first character of a name in upper case is a letter if it was one. -/
theorem upperOf_letter {c : Char} (h : isLetter c = true) :
    ∃ d, (if isLowercase c then upperOf c else [c]) = [d] ∧ isLetter d = true ∧
      d = if isSmallLetter c then c.toUpper else c := by
  -- on ASCII letters the upper case of Unicode is the plain one
  have hAll := forall_plain (fun c => isLetter c = true →
    (if isLowercase c then upperOf c else [c]) = [if isSmallLetter c then c.toUpper else c])
    (by decide +kernel) (plain_of_letter h) h
  refine ⟨_, hAll, ?_, rfl⟩
  split
  · next hSmall => exact letter_toUpper hSmall
  · exact h

theorem lowerOf_plain {c : Char} (h : isPlainChar c = true) :
    c ≠ 'Σ' ∧ (lowerOf c).all isPlainChar = true :=
  forall_plain (fun c => c ≠ 'Σ' ∧ (lowerOf c).all isPlainChar = true) (by decide +kernel) h

/-! ## Plain names and identifiers -/

/-- Characters of plain names, of which the first is a letter. -/
def arePlain : List Char → Bool
  | [] => false
  | c :: rest => isLetter c && rest.all isPlainChar

/-- A plain name. -/
def isPlain (name : String) : Bool := arePlain name.toList

/-- The name has no hyphen. -/
def Hyphenless (name : String) : Prop := '-' ∉ name.toList

instance : DecidablePred Hyphenless := fun name => inferInstanceAs (Decidable ('-' ∉ name.toList))

/-- Characters of an identifier, where letters and some marks may stand anywhere and digits behind the
first character. -/
def areIdentifier (marks : List Char) : List Char → Bool
  | [] => false
  | c :: rest => (isLetter c || marks.contains c) &&
      rest.all fun d => isAlphanumeric d || marks.contains d

/-- An identifier with some marks. -/
def isIdentifier (marks : List Char) (text : String) : Bool := areIdentifier marks text.toList

theorem arePlain_iff {c : Char} {rest : List Char} : arePlain (c :: rest) = true ↔
    isLetter c = true ∧ ∀ d ∈ rest, isPlainChar d = true := by
  rw [arePlain, Bool.and_eq_true, List.all_eq_true]

theorem all_of_arePlain {chars : List Char} (h : arePlain chars = true) :
    ∀ c ∈ chars, isPlainChar c = true := by
  cases chars with
  | nil => exact List.forall_mem_nil _
  | cons c rest =>
      obtain ⟨hLetter, hRest⟩ := arePlain_iff.mp h
      exact List.forall_mem_cons.mpr ⟨plain_of_letter hLetter, hRest⟩

/-- A plain name is a letter and plain characters behind it. -/
theorem exists_of_isPlain {name : String} (h : isPlain name = true) :
    ∃ c rest, name.toList = c :: rest ∧ isLetter c = true ∧ ∀ d ∈ rest, isPlainChar d = true := by
  unfold isPlain at h
  cases hChars : name.toList with
  | nil =>
      rw [hChars] at h
      cases h
  | cons c rest =>
      rw [hChars] at h
      exact ⟨c, rest, rfl, arePlain_iff.mp h⟩

theorem letter_ne_hyphen {c : Char} (h : isLetter c = true) : c ≠ '-' := by
  rintro rfl
  exact absurd h (by decide)

section

variable {marks : List Char}

/-- A plain character may stand in an identifier exactly if it is no hyphen. -/
theorem identifierChar_iff (hLow : '_' ∈ marks) (hHyphen : '-' ∉ marks) {c : Char}
    (h : isPlainChar c = true) :
    (isAlphanumeric c || marks.contains c) = true ↔ c ≠ '-' := by
  rw [isPlainChar, Bool.or_eq_true, Bool.or_eq_true, decide_eq_true_eq, decide_eq_true_eq] at h
  rw [Bool.or_eq_true, List.contains_iff_mem]
  rcases h with (hAlphanumeric | rfl) | rfl
  · refine ⟨fun _ hSame => ?_, fun _ => Or.inl hAlphanumeric⟩
    rw [hSame] at hAlphanumeric
    exact absurd hAlphanumeric (by decide)
  · exact ⟨fun _ => by decide, fun _ => Or.inr hLow⟩
  · refine ⟨fun hIn => ?_, fun hOther => absurd rfl hOther⟩
    rcases hIn with hIn | hIn
    · exact absurd hIn (by decide)
    · exact absurd hIn hHyphen

/-- A plain name is an identifier exactly if it has no hyphen. -/
theorem isIdentifier_iff (hLow : '_' ∈ marks) (hHyphen : '-' ∉ marks) {name : String}
    (h : isPlain name = true) : isIdentifier marks name = true ↔ Hyphenless name := by
  obtain ⟨c, rest, hChars, hLetter, hRest⟩ := exists_of_isPlain h
  unfold isIdentifier Hyphenless
  rw [hChars, areIdentifier, hLetter, Bool.true_or, Bool.true_and, List.all_eq_true, List.mem_cons,
    not_or]
  constructor
  · intro hAll
    exact ⟨(letter_ne_hyphen hLetter).symm, fun hMem =>
      (identifierChar_iff hLow hHyphen (hRest '-' hMem)).mp (hAll '-' hMem) rfl⟩
  · rintro ⟨-, hNone⟩ d hd
    refine (identifierChar_iff hLow hHyphen (hRest d hd)).mpr ?_
    rintro rfl
    exact hNone hd

end

theorem isPlain_append {name ending : String} (h : isPlain name = true)
    (hEnding : ending.toList.all isPlainChar = true) : isPlain (name ++ ending) = true := by
  obtain ⟨c, rest, hChars, hLetter, hRest⟩ := exists_of_isPlain h
  rw [isPlain, String.toList_append, hChars, List.cons_append, arePlain_iff]
  exact ⟨hLetter, List.forall_mem_append.mpr ⟨hRest, List.all_eq_true.mp hEnding⟩⟩

theorem hyphenless_append {first second : String} :
    Hyphenless (first ++ second) ↔ Hyphenless first ∧ Hyphenless second := by
  unfold Hyphenless
  rw [String.toList_append, List.mem_append, not_or]

/-! ## Camel case and Pascal case -/

theorem spelledOut_of_plain {name : String} (h : isPlain name = true) :
    spelledOut name = name.toList := by
  have hSpelled : ∀ c ∈ name.toList, spellOperator c = [c] :=
    fun c hc => spellOperator_of_plainChar (all_of_arePlain h c hc)
  rw [spelledOut, List.flatMap_congr hSpelled, List.flatMap_singleton']

/-- Words that are joined keep their characters plain, and keep their hyphens. -/
theorem joinWords_plain {chars : List Char} (h : ∀ c ∈ chars, isPlainChar c = true) :
    (∀ c ∈ joinWords chars, isPlainChar c = true) ∧ ('-' ∈ joinWords chars ↔ '-' ∈ chars) := by
  fun_induction joinWords chars with
  | case1 c rest hSmall ih =>
      obtain ⟨-, hRest⟩ := List.forall_mem_cons.mp (List.forall_mem_cons.mp h).2
      obtain ⟨hPlain, hHyphen⟩ := ih hRest
      have hUpper : isLetter c.toUpper = true := letter_toUpper hSmall
      have hLetter : isLetter c = true := by rw [isLetter, hSmall, Bool.true_or]
      refine ⟨List.forall_mem_cons.mpr ⟨plain_of_letter hUpper, hPlain⟩, ?_⟩
      rw [List.mem_cons, List.mem_cons, List.mem_cons, hHyphen,
        or_iff_right (letter_ne_hyphen hUpper).symm, or_iff_right (by decide),
        or_iff_right (letter_ne_hyphen hLetter).symm]
  | case2 c rest hSmall ih =>
      obtain ⟨hFirst, hRest⟩ := List.forall_mem_cons.mp h
      obtain ⟨hPlain, hHyphen⟩ := ih hRest
      exact ⟨List.forall_mem_cons.mpr ⟨hFirst, hPlain⟩,
        by rw [List.mem_cons, hHyphen, List.mem_cons (a := '-') (b := '_')]⟩
  | case3 c rest hStart ih =>
      obtain ⟨hFirst, hRest⟩ := List.forall_mem_cons.mp h
      obtain ⟨hPlain, hHyphen⟩ := ih hRest
      exact ⟨List.forall_mem_cons.mpr ⟨hFirst, hPlain⟩,
        by rw [List.mem_cons, hHyphen, List.mem_cons]⟩
  | case4 => exact ⟨h, Iff.rfl⟩

/-- The characters of a plain name in camel case. -/
theorem camelChars_of_plain {name : String} (h : isPlain name = true) :
    ∃ c rest, name.toList = c :: rest ∧ isLetter c = true ∧
      (∀ d ∈ rest, isPlainChar d = true) ∧ camelChars name.toList = c :: joinWords rest := by
  obtain ⟨c, rest, hChars, hLetter, hRest⟩ := exists_of_isPlain h
  have hLow : c ≠ '_' := by
    rintro rfl
    exact absurd hLetter (by decide)
  refine ⟨c, rest, hChars, hLetter, hRest, ?_⟩
  calc camelChars name.toList
      = joinWords name.toList := congrArg joinWords (spelledOut_of_plain h)
    _ = c :: joinWords rest := by rw [hChars, joinWords_cons hLow]

/-- A plain name stays plain in camel case, and keeps its hyphens. -/
theorem plain_camelCase {name : String} (h : isPlain name = true) :
    isPlain (camelCase name) = true ∧ (Hyphenless (camelCase name) ↔ Hyphenless name) := by
  obtain ⟨c, rest, hChars, hLetter, hRest, hCamel⟩ := camelChars_of_plain h
  obtain ⟨hPlain, hHyphen⟩ := joinWords_plain hRest
  unfold isPlain Hyphenless camelCase
  rw [String.toList_ofList, hCamel, hChars, arePlain_iff, List.mem_cons, List.mem_cons, hHyphen]
  exact ⟨⟨hLetter, hPlain⟩, Iff.rfl⟩

/-- A plain name in Pascal case. -/
theorem pascalCase_of_plain {name : String} (h : isPlain name = true) :
    ∃ c rest, name.toList = c :: rest ∧ isLetter c = true ∧ (∀ d ∈ rest, isPlainChar d = true) ∧
      (pascalCase name).toList = (if isSmallLetter c then c.toUpper else c) :: joinWords rest := by
  obtain ⟨c, rest, hChars, hLetter, hRest, hCamel⟩ := camelChars_of_plain h
  obtain ⟨d, hUpper, -, rfl⟩ := upperOf_letter hLetter
  refine ⟨c, rest, hChars, hLetter, hRest, ?_⟩
  rw [pascalCase, String.toList_ofList, hCamel, capitalized]
  calc (if isLowercase c then upperOf c ++ joinWords rest else c :: joinWords rest)
      = (if isLowercase c then upperOf c else [c]) ++ joinWords rest := by split <;> rfl
    _ = [if isSmallLetter c then c.toUpper else c] ++ joinWords rest := by rw [hUpper]

/-- A plain name stays plain in Pascal case, and keeps its hyphens. -/
theorem plain_pascalCase {name : String} (h : isPlain name = true) :
    isPlain (pascalCase name) = true ∧ (Hyphenless (pascalCase name) ↔ Hyphenless name) := by
  obtain ⟨c, rest, hChars, hLetter, hRest, hPascal⟩ := pascalCase_of_plain h
  obtain ⟨d, -, hCapital, hSame⟩ := upperOf_letter hLetter
  obtain ⟨hPlain, hHyphen⟩ := joinWords_plain hRest
  unfold isPlain Hyphenless
  rw [hPascal, hChars, ← hSame, arePlain_iff, List.mem_cons, List.mem_cons, hHyphen,
    or_iff_right (letter_ne_hyphen hCapital).symm, or_iff_right (letter_ne_hyphen hLetter).symm]
  exact ⟨⟨hCapital, hPlain⟩, Iff.rfl⟩

/-! ## Reserved words -/

/-- Words that consist of small letters when they are joined did so before. -/
theorem joinWords_of_small {chars word : List Char} (hWord : word.all isSmallLetter = true)
    (h : joinWords chars = word) : chars = word := by
  subst h
  fun_induction joinWords chars with
  | case1 c rest hSmall ih =>
      -- where words were joined there is a capital
      rw [List.all_cons, Bool.and_eq_true, (toUpper_of_small hSmall).1] at hWord
      exact absurd hWord.1 Bool.false_ne_true
  | case2 c rest hSmall ih =>
      rw [List.all_cons, Bool.and_eq_true] at hWord
      rw [← ih hWord.2]
  | case3 c rest hStart ih =>
      rw [List.all_cons, Bool.and_eq_true] at hWord
      rw [← ih hWord.2]
  | case4 => rfl

/-- A plain name in camel case is one of some words in small letters only if the name is. -/
theorem camelCase_mem_iff {words : List String}
    (hWords : ∀ word ∈ words, word.toList.all isSmallLetter = true ∧ camelCase word = word)
    {name : String} (h : isPlain name = true) : camelCase name ∈ words ↔ name ∈ words := by
  constructor
  · intro hMem
    have hChars : joinWords name.toList = (camelCase name).toList := by
      rw [camelCase, String.toList_ofList]
      exact congrArg joinWords (spelledOut_of_plain h).symm
    have hSame := joinWords_of_small (hWords _ hMem).1 hChars
    rw [String.toList_inj.mp hSame]
    exact hMem
  · intro hMem
    rw [(hWords name hMem).2]
    exact hMem

theorem joinWords_small {word : List Char} (h : word.all isSmallLetter = true) :
    joinWords word = word := by
  have hMarks : ∀ c ∈ word, covers nameMarks c = false := fun c hc =>
    plain_of_lowercase (isLowercase_of_small (List.all_eq_true.mp h c hc)).1
  calc joinWords word
      = joinWords (word ++ []) := by rw [List.append_nil]
    _ = word ++ joinWords [] := joinWords_append_plain hMarks []
    _ = word := List.append_nil word

theorem toUpper_eq_iff {c first : Char} (hFirst : isSmallLetter first = true) :
    (if isSmallLetter c then c.toUpper else c) = first.toUpper ↔ c = first ∨ c = first.toUpper := by
  by_cases hSmall : isSmallLetter c = true
  · rw [if_pos hSmall]
    constructor
    · intro hSame
      left
      rw [← (small_or_capital_toUpper hSmall).2.2, hSame, (small_or_capital_toUpper hFirst).2.2]
    · rintro (rfl | rfl)
      · rfl
      · rw [(toUpper_of_small hFirst).1] at hSmall
        cases hSmall
  · rw [if_neg hSmall]
    refine ⟨Or.inr, ?_⟩
    rintro (rfl | hSame)
    · exact absurd hFirst hSmall
    · exact hSame

/-- A plain name in Pascal case is a word of small letters behind a capital only if the name is that
word, with a small letter or the capital at its start. -/
theorem pascalCase_eq_iff_word {first : Char} {word : List Char} (hFirst : isSmallLetter first = true)
    (hWord : word.all isSmallLetter = true) {name : String} (h : isPlain name = true) :
    pascalCase name = String.ofList (first.toUpper :: word) ↔
      name = String.ofList (first :: word) ∨ name = String.ofList (first.toUpper :: word) := by
  obtain ⟨c, rest, hChars, -, -, hPascal⟩ := pascalCase_of_plain h
  have hRest : joinWords rest = word ↔ rest = word := by
    constructor
    · exact joinWords_of_small hWord
    · rintro rfl
      exact joinWords_small hWord
  rw [← String.toList_inj, ← String.toList_inj, ← String.toList_inj, hPascal, hChars,
    String.toList_ofList, String.toList_ofList, List.cons.injEq, List.cons.injEq, List.cons.injEq,
    ← or_and_right, toUpper_eq_iff hFirst, hRest]

/-- The word that a letter begins, and the word with the capital in place of the letter. -/
def bothStarts (word : Char × List Char) : List String :=
  [String.ofList (word.1 :: word.2), String.ofList (word.1.toUpper :: word.2)]

/-- A plain name in Pascal case is one of some words only if the name is one of those that begin with a
capital, but for its first letter. -/
theorem mem_bothStarts {reserved : List String} {capitals : List (Char × List Char)}
    (hSmall : ∀ word ∈ capitals, isSmallLetter word.1 = true ∧ word.2.all isSmallLetter = true)
    (hCapitals : ∀ word ∈ reserved, startsSmall word = false →
      word ∈ capitals.map fun word => String.ofList (word.1.toUpper :: word.2))
    {name : String} (h : isPlain name = true) (hMem : pascalCase name ∈ reserved) :
    name ∈ capitals.flatMap bothStarts := by
  obtain ⟨word, hWord, hSame⟩ :=
    List.mem_map.mp (hCapitals _ hMem (startsSmall_pascalCase name))
  obtain ⟨hFirst, hRest⟩ := hSmall word hWord
  refine List.mem_flatMap.mpr ⟨word, hWord, ?_⟩
  rw [bothStarts, List.mem_pair]
  exact (pascalCase_eq_iff_word hFirst hRest h).mp hSame.symm

/-! ## Fields and modules -/

theorem plain_hyphenReplaced {c : Char} (h : isPlainChar c = true) :
    isPlainChar (if c = '-' then '_' else c) = true := by
  split
  · rfl
  · exact h

theorem hyphenless_withoutHyphens (name : String) : Hyphenless (withoutHyphens name) := by
  unfold Hyphenless withoutHyphens
  rw [String.toList_ofList, List.mem_map]
  rintro ⟨c, -, hSame⟩
  split at hSame
  · cases hSame
  · next hOther => exact hOther hSame

/-- With low lines in place of hyphens, a plain name stays plain. -/
theorem plain_withoutHyphens {name : String} (h : isPlain name = true) :
    isPlain (withoutHyphens name) = true := by
  obtain ⟨c, rest, hChars, hLetter, hRest⟩ := exists_of_isPlain h
  rw [isPlain, withoutHyphens, String.toList_ofList, hChars, List.map_cons,
    if_neg (letter_ne_hyphen hLetter), arePlain_iff]
  exact ⟨hLetter, List.forall_mem_map.mpr fun d hd => plain_hyphenReplaced (hRest d hd)⟩

theorem lowerFrom_plain {chars : List Char} (h : ∀ c ∈ chars, isPlainChar c = true)
    (afterCased : Bool) : ∀ c ∈ lowerFrom afterCased chars, isPlainChar c = true := by
  induction chars generalizing afterCased with
  | nil => exact List.forall_mem_nil _
  | cons c rest ih =>
      obtain ⟨hFirst, hRest⟩ := List.forall_mem_cons.mp h
      obtain ⟨hSigma, hLower⟩ := lowerOf_plain hFirst
      rw [lowerFrom, if_neg hSigma]
      exact List.forall_mem_append.mpr ⟨List.all_eq_true.mp hLower, ih hRest _⟩

/-- The name of a module has plain characters if the name of the comm has. -/
theorem plain_moduleName {name : String} (h : isPlain name = true) :
    (moduleName name).toList.all isPlainChar = true := by
  rw [moduleName, withoutHyphens, lower, String.toList_ofList, String.toList_ofList,
    List.all_eq_true]
  exact List.forall_mem_map.mpr fun c hc =>
    plain_hyphenReplaced (lowerFrom_plain (all_of_arePlain h) false c hc)

end CommBindings.Naming
