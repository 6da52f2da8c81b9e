import CommBindings.Proofs.Target.Identifiers
import CommBindings.Proofs.Text.IdentifierCharacters

set_option autoImplicit false

/-! # Members of enumerations

The member that stands for a value is never empty, holds word characters only and begins with no digit.
That does not make it legal in every target (`enumMember_legal_iff`): a word character may be stray, the
first letter may be one that only follows others, 13 values become reserved words, and of some values
only a low line is left. All four are told by the value itself.
-/

namespace CommBindings.Naming

open Text

/-! ## Operators -/

/-- The characters that are spelled out. -/
def operators : List Char := ['=', '!', '<', '>']

theorem spellOperator_of_other {c : Char} (h : c ∉ operators) : spellOperator c = [c] := by
  simp only [operators, List.mem_cons, List.not_mem_nil, or_false, not_or] at h
  obtain ⟨hEq, hNot, hLess, hGreater⟩ := h
  rw [spellOperator, if_neg hEq, if_neg hNot, if_neg hLess, if_neg hGreater]

/-- An operator is spelled out with ASCII letters, at least two. -/
theorem spellOperator_of_operator {c : Char} (h : c ∈ operators) :
    c.toNat < 128 ∧ 1 < (spellOperator c).length ∧ ∀ d ∈ spellOperator c, d.toNat < 128 := by
  have hAll : operators.all (fun c => decide (c.toNat < 128) && decide (1 < (spellOperator c).length) &&
      (spellOperator c).all fun d => d.toNat < 128) = true := by
    decide
  have hOne := List.all_eq_true.mp hAll c h
  rw [Bool.and_eq_true, Bool.and_eq_true, decide_eq_true_eq, decide_eq_true_eq] at hOne
  exact ⟨hOne.1.1, hOne.1.2, fun d hd => of_decide_eq_true (List.all_eq_true.mp hOne.2 d hd)⟩

theorem spellOperator_ne_nil (c : Char) : spellOperator c ≠ [] := by
  by_cases hOperator : c ∈ operators
  · have hLong := (spellOperator_of_operator hOperator).2.1
    exact List.ne_nil_of_length_pos (Nat.zero_lt_of_lt hLong)
  · rw [spellOperator_of_other hOperator]
    exact List.cons_ne_nil _ _

/-! ## Properties that names keep -/

theorem code_toUpper {c : Char} (h : isSmallLetter c = true) : c.toNat < 128 ∧ c.toUpper.toNat < 128 := by
  have hAll : ∀ k < 26, (Char.ofNat (97 + k)).toNat < 128 ∧ (Char.ofNat (97 + k)).toUpper.toNat < 128 := by
    decide
  obtain ⟨k, hk, rfl⟩ := exists_of_small h
  exact hAll k hk

section

variable {p : Char → Bool}

/-- An operator does not have a kept property, and neither do its letters. -/
theorem any_spellOperator (hKept : IsKept p) (c : Char) :
    (spellOperator c).any p = p c ∧ (spellOperator c).head?.any p = p c := by
  by_cases hOperator : c ∈ operators
  · obtain ⟨hCode, -, hLetters⟩ := spellOperator_of_operator hOperator
    have hNone : ∀ d ∈ spellOperator c, p d = false := fun d hd => hKept.plain d (hLetters d hd)
    rw [hKept.plain c hCode]
    constructor
    · exact List.any_eq_false.mpr fun d hd => by rw [hNone d hd]; exact Bool.false_ne_true
    · obtain ⟨d, more, hSpelled⟩ := List.exists_cons_of_ne_nil (spellOperator_ne_nil c)
      rw [hSpelled]
      exact hNone d (hSpelled ▸ List.mem_cons_self)
  · rw [spellOperator_of_other hOperator]
    exact ⟨by simp, rfl⟩

theorem any_spelled (hKept : IsKept p) (chars : List Char) :
    (chars.flatMap spellOperator).any p = chars.any p ∧
      (chars.flatMap spellOperator).head?.any p = chars.head?.any p := by
  constructor
  · rw [List.any_flatMap]
    simp only [(any_spellOperator hKept _).1]
  · cases chars with
    | nil => rfl
    | cons c rest =>
        rw [List.flatMap_cons, List.head?_append_of_ne_nil _ (spellOperator_ne_nil c)]
        exact (any_spellOperator hKept c).2

theorem any_joinWords (hKept : IsKept p) (chars : List Char) :
    (joinWords chars).any p = chars.any p := by
  fun_induction joinWords chars with
  | case1 c rest hSmall ih =>
      obtain ⟨hCode, hUpper⟩ := code_toUpper hSmall
      simp only [List.any_cons, ih, hKept.plain c hCode, hKept.plain _ hUpper,
        hKept.plain '_' (by decide), Bool.false_or]
  | case2 c rest hSmall ih => exact congrArg (p '_' || ·) ih
  | case3 c rest hStart ih => exact congrArg (p c || ·) ih
  | case4 => rfl

theorem head_joinWords_any (hKept : IsKept p) (chars : List Char) :
    (joinWords chars).head?.any p = chars.head?.any p := by
  cases chars with
  | nil => rfl
  | cons c rest =>
      by_cases hLow : c = '_'
      · subst hLow
        have hNone : ∀ d : Char, d.toNat < 128 → (some d).any p = (some '_').any p := fun d hd => by
          rw [Option.any_some, Option.any_some, hKept.plain d hd, hKept.plain '_' (by decide)]
        cases rest with
        | nil => rfl
        | cons d others =>
            rw [joinWords]
            split
            · next hSmall => exact hNone _ (code_toUpper hSmall).2
            · rfl
      · rw [joinWords_cons hLow]
        rfl

theorem any_capitalized (hKept : IsKept p) (chars : List Char) :
    (capitalized chars).any p = chars.any p ∧
      (capitalized chars).head?.any p = chars.head?.any p := by
  cases chars with
  | nil => exact ⟨rfl, rfl⟩
  | cons c rest =>
      rw [capitalized]
      split
      · next hLower =>
        cases hc : p c with
        | true =>
            rw [hKept.fixed c hLower hc]
            exact ⟨rfl, rfl⟩
        | false =>
            have hNone := hKept.upper c hc
            obtain ⟨d, more, hUpper⟩ := List.exists_cons_of_ne_nil (upperOf_ne_nil c)
            have hAny : (upperOf c).any p = false :=
              List.any_eq_false.mpr fun e he => by rw [hNone e he]; exact Bool.false_ne_true
            constructor
            · rw [List.any_append, hAny, List.any_cons, hc]
            · rw [hUpper]
              show p d = p c
              rw [hc, hNone d (hUpper ▸ List.mem_cons_self)]
      · exact ⟨rfl, rfl⟩

/-- A name in Pascal case has the kept properties of the name, and its first character has those of the
first character. -/
theorem any_pascalCase (hKept : IsKept p) (name : String) :
    (pascalCase name).toList.any p = name.toList.any p ∧
      (pascalCase name).toList.head?.any p = name.toList.head?.any p := by
  obtain ⟨hAny, hHead⟩ := any_capitalized hKept (camelChars name.toList)
  obtain ⟨hSpelled, hFirst⟩ := any_spelled hKept name.toList
  rw [pascalCase, String.toList_ofList, hAny, hHead, camelChars, any_joinWords hKept,
    head_joinWords_any hKept]
  exact ⟨hSpelled, hFirst⟩

end

/-! ## The characters of a member -/

theorem toList_enumMember (value : String) :
    (enumMember value).toList = guardFirst (memberChars value) := String.toList_ofList

theorem isWord_wordOrLowLine (c : Char) : isWord (wordOrLowLine c) = true := by
  rw [wordOrLowLine]
  split
  · next hWord => exact hWord
  · decide

/-- The characters of a member are word characters, and the first of them is no digit. -/
theorem enumMember_chars (value : String) :
    (enumMember value).toList ≠ [] ∧ (∀ c ∈ (enumMember value).toList, isWord c = true) ∧
      (enumMember value).toList.head?.any isDigit = false := by
  have hWord : ∀ c ∈ memberChars value, isWord c = true :=
    List.forall_mem_map.mpr fun c _ => isWord_wordOrLowLine c
  have hLow : isWord '_' = true ∧ isDigit '_' = false := by decide
  rw [toList_enumMember, guardFirst_eq]
  split
  · exact ⟨List.cons_ne_nil _ _, List.forall_mem_cons.mpr ⟨hLow.1, hWord⟩, hLow.2⟩
  · next hName =>
    cases hChars : memberChars value with
    | nil => exact absurd (hChars ▸ rfl : BeginsNoName (memberChars value)) hName
    | cons c rest =>
        rw [hChars] at hWord hName
        exact ⟨List.cons_ne_nil _ _, hWord, Bool.eq_false_of_not_eq_true hName⟩

/-- The characters of a member have a property of characters outside of identifiers where those of the
value have it. -/
theorem any_memberChars {p : Char → Bool} (hp : ∀ c, p c = true → isOutside c = true) (value : String) :
    (memberChars value).any p = value.toList.any p ∧
      (memberChars value).head?.any p = value.toList.head?.any p := by
  have hKept := isKept_of_outside hp
  have hSame : ∀ c, p (wordOrLowLine c) = p c := fun c => by
    rw [wordOrLowLine]
    split
    · rfl
    · next hOther =>
      rw [hKept.plain '_' (by decide)]
      exact (Bool.eq_false_of_not_eq_true fun hc => hOther (isWord_of_isOutside (hp c hc))).symm
  obtain ⟨hAny, hHead⟩ := any_pascalCase hKept value
  rw [memberChars, List.any_map, List.head?_map, Option.any_map, ← hAny, ← hHead]
  exact ⟨congrArg (List.any _) (funext hSame), congrArg (Option.any · _) (funext hSame)⟩

/-- A member holds a stray character exactly if its value does. -/
theorem any_isStray_enumMember (value : String) :
    (enumMember value).toList.any isStray = value.toList.any isStray := by
  have hLow : isStray '_' = false := by decide
  rw [toList_enumMember, guardFirst_eq, ← (any_memberChars (fun _ => isOutside_of_isStray) value).1]
  split
  · rw [List.any_cons, hLow, Bool.false_or]
  · rfl

/-- A member begins with a follower exactly if its value does. -/
theorem head_isFollower_enumMember (value : String) :
    (enumMember value).toList.head?.any isFollower = value.toList.head?.any isFollower := by
  have hLow : isFollower '_' = false := by decide
  rw [toList_enumMember, guardFirst_eq,
    ← (any_memberChars (fun _ => isOutside_of_isFollower) value).2]
  split
  · next hNoName =>
    -- a digit in front of which a low line is put is no follower
    show isFollower '_' = _
    rw [hLow]
    cases hFirst : memberChars value with
    | nil => rfl
    | cons c rest =>
        rw [hFirst] at hNoName
        have hDigit : isDigit c = true := hNoName
        refine (Bool.eq_false_of_not_eq_true fun hFollower => ?_).symm
        rw [(isFollower_apart hFollower).2] at hDigit
        cases hDigit
  · rfl

/-! ## Values that become reserved words -/

/-- The ways to write a capital and small letters behind it, which is what they are in Pascal case. -/
def spellings (capital : Char) (small : List Char) : List (List Char) :=
  let starts := capital :: (sourcesOf capital.toNat).map Char.ofNat
  let letters := (List.range 26).map fun k => Char.ofNat (97 + k)
  starts.map (· :: small) ++
    (letters.filter fun letter => starts.contains letter.toUpper).map fun letter =>
      '_' :: letter :: small

/-- An upper case of other characters has no small letter in it. -/
theorem upperOf_noSmall (c : Char) : upperOf c = [c] ∨ ∀ d ∈ upperOf c, isSmallLetter d = false := by
  rcases upperOf_cases c with hSame | ⟨-, -, -, -, hCodes⟩
  · exact Or.inl hSame
  · have hAll : ∀ k < 26, covers [(97, 122)] (Char.ofNat (97 + k)) = true := by
      decide
    refine Or.inr fun d hd => Bool.eq_false_of_not_eq_true fun hSmall => ?_
    have hNone := (not_covers_upper (hCodes d hd)).2
    obtain ⟨k, hk, rfl⟩ := exists_of_small hSmall
    rw [hAll k hk] at hNone
    cases hNone

theorem capitalized_eq_word {capital : Char} {small chars : List Char}
    (hSmall : small.all isSmallLetter = true) (h : capitalized chars = capital :: small) :
    ∃ first, chars = first :: small ∧
      first ∈ capital :: (sourcesOf capital.toNat).map Char.ofNat := by
  cases chars with
  | nil => cases h
  | cons first rest =>
      rw [capitalized] at h
      split at h
      · obtain ⟨d, more, hUpper⟩ := List.exists_cons_of_ne_nil (upperOf_ne_nil first)
        rw [hUpper, List.cons_append, List.cons.injEq] at h
        have hAlone : more = [] := by
          refine List.eq_nil_iff_forall_not_mem.mpr fun e he => ?_
          rcases upperOf_noSmall first with hSame | hNone
          · rw [hSame, List.cons.injEq] at hUpper
            exact absurd he (hUpper.2 ▸ List.not_mem_nil)
          · have hLetter := List.all_eq_true.mp hSmall e (h.2 ▸ List.mem_append_left _ he)
            rw [hNone e (hUpper ▸ List.mem_cons_of_mem _ he)] at hLetter
            cases hLetter
        subst hAlone
        refine ⟨first, by rw [← h.2, List.nil_append], ?_⟩
        rw [h.1] at hUpper
        rcases upperOf_single hUpper with hSame | ⟨run, hRun, hHolds, hCode, -⟩
        · rw [hSame]
          exact List.mem_cons_self
        · have hSource := mem_sourcesOf hRun hHolds hCode
          exact List.mem_cons_of_mem _ (List.mem_map.mpr ⟨_, hSource, Char.ofNat_toNat first⟩)
      · obtain ⟨hFirst, hRest⟩ := List.cons.inj h
        exact ⟨first, by rw [hRest], hFirst ▸ List.mem_cons_self⟩

theorem joinWords_eq_word {first : Char} {small chars : List Char}
    (hSmall : small.all isSmallLetter = true) (h : joinWords chars = first :: small) :
    chars = first :: small ∨
      ∃ letter, isSmallLetter letter = true ∧ letter.toUpper = first ∧
        chars = '_' :: letter :: small := by
  have hJoined : ∀ {rest}, joinWords rest = small → rest = small := joinWords_of_small hSmall
  revert h
  fun_cases joinWords chars with
  | case1 letter rest hLetter =>
      intro h
      obtain ⟨hFirst, hRest⟩ := List.cons.inj h
      exact Or.inr ⟨letter, hLetter, hFirst, by rw [hJoined hRest]⟩
  | case2 letter rest hLetter =>
      -- behind a low line that stays there is no small letter
      intro h
      have hRest := hJoined (List.cons.inj h).2
      rw [← hRest, List.all_cons, Bool.and_eq_true] at hSmall
      exact absurd hSmall.1 hLetter
  | case3 c rest hStart =>
      intro h
      obtain ⟨hFirst, hRest⟩ := List.cons.inj h
      exact Or.inl (by rw [hFirst, hJoined hRest])
  | case4 =>
      intro h
      cases h

/-- A text in which no operator is spelled out was so written. -/
theorem spelled_eq {chars spelled : List Char}
    (hNone : ∀ c ∈ operators, ¬ spellOperator c <:+: spelled)
    (h : chars.flatMap spellOperator = spelled) : chars = spelled := by
  have hSame : ∀ c ∈ chars, spellOperator c = [c] := by
    intro c hc
    refine spellOperator_of_other fun hOperator => hNone c hOperator ?_
    obtain ⟨before, after, rfl⟩ := List.append_of_mem hc
    rw [← h, List.flatMap_append, List.flatMap_cons]
    exact List.infix_append' _ _ _
  rw [← h, List.flatMap_congr hSame, List.flatMap_singleton']

/-- A member without low lines is the value in Pascal case. -/
theorem enumMember_eq_pascalCase {value : String} (h : '_' ∉ (enumMember value).toList) :
    enumMember value = pascalCase value := by
  rw [toList_enumMember, guardFirst_eq] at h
  have hName : ¬ BeginsNoName (memberChars value) := by
    intro hNoName
    rw [if_pos hNoName] at h
    exact h List.mem_cons_self
  rw [if_neg hName] at h
  have hSame : ∀ c ∈ (pascalCase value).toList, wordOrLowLine c = c := by
    intro c hc
    by_cases hWord : isWord c = true
    · exact if_pos hWord
    · have hLow : wordOrLowLine c = '_' := if_neg hWord
      exact absurd (hLow ▸ List.mem_map_of_mem hc) h
  rw [← String.toList_inj, toList_enumMember, guardFirst_eq, if_neg hName]
  exact (List.map_congr_left hSame).trans (List.map_id _)

/-- The values that become reserved words of Rust or Python as members. -/
def reservedValues : List String := [
  "Self", "self", "_self", "\u017felf", "None", "none", "_none", "True", "true", "_true", "False",
  "false", "_false"]

/-- The reserved words that begin with no small letter. -/
def capitalWords : List (Char × List Char) :=
  [('S', ['e', 'l', 'f']), ('N', ['o', 'n', 'e']), ('T', ['r', 'u', 'e']), ('F', ['a', 'l', 's', 'e'])]

theorem spelled_of_pascalCase {word : Char × List Char} (hWord : word ∈ capitalWords) {value : String}
    (h : (pascalCase value).toList = word.1 :: word.2) :
    value.toList.flatMap spellOperator ∈ spellings word.1 word.2 := by
  have hAll : ∀ word ∈ capitalWords, word.2.all isSmallLetter = true := by
    decide
  have hSmall := hAll word hWord
  rw [pascalCase, String.toList_ofList] at h
  obtain ⟨first, hCamel, hFirst⟩ := capitalized_eq_word hSmall h
  rcases joinWords_eq_word hSmall hCamel with hSame | ⟨letter, hLetter, hUpper, hSame⟩
  · rw [hSame]
    exact List.mem_append_left _ (List.mem_map_of_mem hFirst)
  · rw [hSame]
    obtain ⟨k, hk, rfl⟩ := exists_of_small hLetter
    refine List.mem_append_right _ (List.mem_map.mpr ⟨_, List.mem_filter.mpr ⟨?_, ?_⟩, rfl⟩)
    · exact List.mem_map.mpr ⟨k, List.mem_range.mpr hk, rfl⟩
    · rw [hUpper]
      exact List.contains_iff_mem.mpr hFirst

/-- A member is a reserved word of Rust or Python exactly if its value is one of 13. -/
theorem enumMember_reserved_iff (value : String) :
    enumMember value ∈ Rust.reserved ++ pythonKeywords ↔ value ∈ reservedValues := by
  constructor
  · intro hMem
    have hNoLow : ∀ word ∈ Rust.reserved ++ pythonKeywords, '_' ∉ word.toList := by
      decide
    have hCapitals : ∀ word ∈ Rust.reserved ++ pythonKeywords, startsSmall word = false →
        word.toList ∈ capitalWords.map fun word => word.1 :: word.2 := by
      decide
    have hSpellings : ∀ word ∈ capitalWords, ∀ chars ∈ spellings word.1 word.2,
        operators.all (fun c => decide (¬ spellOperator c <:+: chars)) = true ∧
          String.ofList chars ∈ reservedValues := by
      decide
    rw [enumMember_eq_pascalCase (hNoLow _ hMem)] at hMem
    obtain ⟨word, hWord, hSame⟩ :=
      List.mem_map.mp (hCapitals _ hMem (startsSmall_pascalCase value))
    obtain ⟨hNone, hValue⟩ := hSpellings word hWord _ (spelled_of_pascalCase hWord hSame.symm)
    have hNone := fun c hc => of_decide_eq_true (List.all_eq_true.mp hNone c hc)
    rw [← spelled_eq hNone rfl, String.ofList_toList] at hValue
    exact hValue
  · intro hMem
    have hAll : ∀ value ∈ reservedValues, enumMember value ∈ Rust.reserved ++ pythonKeywords := by
      decide +kernel
    exact hAll value hMem

/-! ## Values of which only a low line is left -/

/-- A character in place of which a low line stands when it is the whole value: the low line, and what is
no word character, operators and the combining iota aside. -/
def isMark (c : Char) : Bool := c = '_' || !isWord c && c ∉ operators && c ≠ '\u0345'

/-- The characters of a value of which nothing but a low line is left. -/
def isBare : List Char → Bool
  | [] => true
  | [c] => isMark c
  | _ => false

theorem wordOrLowLine_eq_low {c : Char} : wordOrLowLine c = '_' ↔ c = '_' ∨ isWord c = false := by
  rw [wordOrLowLine]
  constructor
  · intro h
    split at h
    · exact Or.inl h
    · next hOther => exact Or.inr (Bool.eq_false_of_not_eq_true hOther)
  · rintro (rfl | hOther)
    · exact ite_self _
    · rw [hOther, if_neg Bool.false_ne_true]

theorem capitalized_low_iff (c : Char) :
    (capitalized [c]).map wordOrLowLine = ['_'] ↔ c = '_' ∨ isWord c = false ∧ c ≠ '\u0345' := by
  by_cases hLower : isLowercase c = true
  · have hPlain := plain_of_lowercase hLower
    have hLow : c ≠ '_' := (spellOperator_of_plain hPlain).2
    rw [capitalized, if_pos hLower, List.append_nil, or_iff_right hLow]
    constructor
    · intro h
      obtain ⟨d, hUpper, hImage⟩ := List.map_eq_singleton_iff.mp h
      constructor
      · have hImageLow : d ≠ '_' := by
          refine (spellOperator_of_plain (upperOf_plain hPlain d ?_)).2
          rw [hUpper]
          exact List.mem_cons_self
        have hOther := (or_iff_right hImageLow).mp (wordOrLowLine_eq_low.mp hImage)
        refine Bool.eq_false_of_not_eq_true fun hWord => ?_
        rw [isWord_upperOf hWord hUpper] at hOther
        cases hOther
      · rintro rfl
        exact absurd h (by decide)
    · rintro ⟨hOther, hIota⟩
      rcases circled_of_lowercase hLower hOther with hSame | hCircle
      · exact absurd hSame hIota
      · obtain ⟨d, hUpper, hNone⟩ := upperOf_circled hCircle
        rw [hUpper, List.map_singleton, wordOrLowLine_eq_low.mpr (Or.inr hNone)]
  · have hIota : c ≠ '\u0345' := by
      rintro rfl
      exact hLower (by decide)
    rw [capitalized, if_neg hLower, List.map_singleton, List.singleton_inj, wordOrLowLine_eq_low,
      and_iff_left hIota]

/-- A text of one character at most has no operator spelled out. -/
theorem spelled_short {chars spelled : List Char} (hShort : spelled.length ≤ 1)
    (h : chars.flatMap spellOperator = spelled) : chars = spelled := by
  refine spelled_eq (fun c hOperator hInfix => ?_) h
  have hLong := (spellOperator_of_operator hOperator).2.1
  exact absurd (hInfix.length_le.trans hShort) (Nat.not_le.mpr hLong)

theorem length_capitalized (chars : List Char) : chars.length ≤ (capitalized chars).length := by
  cases chars with
  | nil => exact Nat.le_refl _
  | cons c rest =>
      rw [capitalized]
      split
      · have hSome := List.length_pos_iff.mpr (upperOf_ne_nil c)
        rw [List.length_append, List.length_cons]
        omega
      · exact Nat.le_refl _

theorem toList_eq_nil_of_member {value : String} (h : memberChars value = []) : value.toList = [] := by
  rw [memberChars, List.map_eq_nil_iff, pascalCase, String.toList_ofList] at h
  have hCamel : camelChars value.toList = [] := by
    have hLength := length_capitalized (camelChars value.toList)
    rw [h] at hLength
    exact List.length_eq_zero_iff.mp (Nat.le_zero.mp hLength)
  exact spelled_short (Nat.zero_le _) (joinWords_of_small rfl hCamel)

theorem toList_eq_single_of_member {value : String} (h : memberChars value = ['_']) :
    ∃ c, value.toList = [c] ∧ c ∉ operators := by
  rw [memberChars, pascalCase, String.toList_ofList] at h
  have hLength : (camelChars value.toList).length ≤ 1 := by
    have hOne := congrArg List.length h
    rw [List.length_map] at hOne
    exact (length_capitalized _).trans_eq hOne
  cases hCamel : camelChars value.toList with
  | nil =>
      rw [hCamel] at h
      cases h
  | cons e rest =>
      rw [hCamel, List.length_cons] at hLength
      obtain rfl : rest = [] := List.length_eq_zero_iff.mp (by omega)
      rcases joinWords_eq_word rfl hCamel with hSpelled | ⟨letter, hLetter, hUpper, -⟩
      · have hValue : value.toList = [e] := spelled_short (Nat.le_refl 1) hSpelled
        refine ⟨e, hValue, fun hOperator => ?_⟩
        have hLong := (spellOperator_of_operator hOperator).2.1
        rw [hValue, List.flatMap_singleton] at hSpelled
        rw [hSpelled] at hLong
        exact absurd hLong (Nat.lt_irrefl 1)
      · -- a capital is left of two words, and no low line
        have hAll : ∀ k < 26, isWord (Char.ofNat (97 + k)).toUpper = true := by
          decide
        rw [hCamel, ← hUpper, capitalized_low_iff, or_iff_right (toUpper_of_small hLetter).2.1] at h
        obtain ⟨k, hk, rfl⟩ := exists_of_small hLetter
        rw [hAll k hk] at h
        cases h.1

theorem memberChars_single {value : String} {c : Char} (h : value.toList = [c]) (hOther : c ∉ operators) :
    memberChars value = ['_'] ↔ isMark c = true := by
  have hCamel : camelChars [c] = [c] := by
    rw [camelChars, List.flatMap_singleton, spellOperator_of_other hOther]
    by_cases hLow : c = '_'
    · rw [hLow]
      rfl
    · exact joinWords_cons hLow []
  rw [memberChars, pascalCase, String.toList_ofList, h, hCamel, capitalized_low_iff, isMark,
    Bool.or_eq_true, Bool.and_eq_true, Bool.and_eq_true, decide_eq_true_eq, decide_eq_true_eq,
    decide_eq_true_eq, Bool.not_eq_true', and_iff_left hOther]

theorem not_operator_of_isMark {c : Char} (h : isMark c = true) : c ∉ operators := by
  rw [isMark, Bool.or_eq_true, Bool.and_eq_true, Bool.and_eq_true, decide_eq_true_eq,
    decide_eq_true_eq] at h
  rcases h with rfl | ⟨⟨-, hOther⟩, -⟩
  · decide
  · exact hOther

theorem guardFirst_eq_low {chars : List Char} :
    guardFirst chars = ['_'] ↔ chars = [] ∨ chars = ['_'] := by
  rw [guardFirst_eq]
  by_cases hNoName : BeginsNoName chars
  · have hLow : chars ≠ ['_'] := by
      rintro rfl
      exact absurd hNoName (by decide)
    rw [if_pos hNoName, List.cons.injEq, and_iff_right rfl, or_iff_left hLow]
  · have hSome : chars ≠ [] := by
      rintro rfl
      exact hNoName rfl
    rw [if_neg hNoName, or_iff_right hSome]

/-- Of a value only a low line is left exactly if it is empty or a single mark. -/
theorem enumMember_eq_low_iff (value : String) : enumMember value = "_" ↔ isBare value.toList = true := by
  have hText : "_".toList = ['_'] := by decide
  rw [← String.toList_inj, toList_enumMember, hText, guardFirst_eq_low]
  constructor
  · rintro (hNone | hLow)
    · rw [toList_eq_nil_of_member hNone]
      rfl
    · obtain ⟨c, hc, hOther⟩ := toList_eq_single_of_member hLow
      rw [hc]
      exact (memberChars_single hc hOther).mp hLow
  · intro hBare
    match hChars : value.toList with
    | [] =>
        left
        rw [memberChars, pascalCase, hChars]
        rfl
    | [c] =>
        rw [hChars] at hBare
        exact Or.inr ((memberChars_single hChars (not_operator_of_isMark hBare)).mpr hBare)
    | c :: d :: rest =>
        rw [hChars] at hBare
        cases hBare

/-! ## Legal members -/

/-- A member that is an identifier in every target. -/
structure IsLegalMember (member : String) : Prop where
  begins : ∃ c rest, member.toList = c :: rest ∧ mayBegin c = true
  holds : ∀ c ∈ member.toList, mayContinue c = true
  free : member ∉ Rust.reserved ∧ member ∉ pythonKeywords
  named : member ≠ "_"

/-- The values of which the members are legal. -/
structure HasLegalMember (value : String) : Prop where
  regular : ∀ c ∈ value.toList, isStray c = false
  first : ∀ c rest, value.toList = c :: rest → isFollower c = false
  free : value ∉ reservedValues
  named : isBare value.toList = false

theorem holds_iff (value : String) : (∀ c ∈ (enumMember value).toList, mayContinue c = true) ↔
    ∀ c ∈ value.toList, isStray c = false := by
  have hAny := any_isStray_enumMember value
  have hWord := (enumMember_chars value).2.1
  have hNone : ∀ chars : List Char, (∀ c ∈ chars, isStray c = false) ↔ chars.any isStray = false := by
    intro chars
    simp only [List.any_eq_false, Bool.not_eq_true]
  calc (∀ c ∈ (enumMember value).toList, mayContinue c = true)
      ↔ ∀ c ∈ (enumMember value).toList, isStray c = false :=
        forall₂_congr fun c hc => by rw [mayContinue_of_word (hWord c hc), Bool.not_eq_true']
    _ ↔ ∀ c ∈ value.toList, isStray c = false := by rw [hNone, hNone, hAny]

/-- If a value has no stray character, its member begins as an identifier does exactly if the value begins
with no follower. -/
theorem begins_iff {value : String} (hRegular : ∀ c ∈ value.toList, isStray c = false) :
    (∃ c rest, (enumMember value).toList = c :: rest ∧ mayBegin c = true) ↔
      ∀ c rest, value.toList = c :: rest → isFollower c = false := by
  obtain ⟨hSome, hWord, hDigit⟩ := enumMember_chars value
  have hHead := head_isFollower_enumMember value
  have hNoStray := (any_isStray_enumMember value).trans (List.any_eq_false.mpr fun c hc => by
    rw [hRegular c hc]; exact Bool.false_ne_true)
  obtain ⟨c, rest, hChars⟩ := List.exists_cons_of_ne_nil hSome
  rw [hChars] at hWord hDigit hHead hNoStray ⊢
  have hBegins : mayBegin c = !isFollower c := by
    have hStray := List.any_eq_false.mp hNoStray c List.mem_cons_self
    exact mayBegin_of_word (hWord c List.mem_cons_self) hDigit (Bool.eq_false_of_not_eq_true hStray)
  have hFollower : isFollower c = value.toList.head?.any isFollower := hHead
  constructor
  · rintro ⟨d, more, hSame, hMay⟩ first others hValue
    obtain ⟨rfl, rfl⟩ := List.cons.inj hSame
    rw [hBegins, hFollower, hValue, Bool.not_eq_true'] at hMay
    exact hMay
  · intro hFirst
    refine ⟨c, rest, rfl, ?_⟩
    rw [hBegins, hFollower, Bool.not_eq_true']
    cases hValue : value.toList with
    | nil => rfl
    | cons first others => exact hFirst first others hValue

/-- A member is never empty, holds word characters only and begins with no digit. It is legal in every
target exactly if its value has no stray character, does not begin with a follower, is no reserved value,
and is neither empty nor a single mark. -/
theorem enumMember_legal_iff (value : String) :
    (∃ c rest, (enumMember value).toList = c :: rest ∧ isDigit c = false) ∧
      (∀ c ∈ (enumMember value).toList, isWord c = true) ∧
      (IsLegalMember (enumMember value) ↔ HasLegalMember value) := by
  obtain ⟨hSome, hWord, hDigit⟩ := enumMember_chars value
  refine ⟨?_, hWord, ?_⟩
  · obtain ⟨c, rest, hChars⟩ := List.exists_cons_of_ne_nil hSome
    rw [hChars] at hDigit
    exact ⟨c, rest, hChars, hDigit⟩
  · have hFree := enumMember_reserved_iff value
    rw [List.mem_append] at hFree
    have hNamed := enumMember_eq_low_iff value
    constructor
    · intro h
      have hRegular := (holds_iff value).mp h.holds
      exact {
        regular := hRegular
        first := (begins_iff hRegular).mp h.begins
        free := fun hValue => (hFree.mpr hValue).elim h.free.1 h.free.2
        named := Bool.eq_false_of_not_eq_true fun hBare => h.named (hNamed.mpr hBare) }
    · intro h
      exact {
        begins := (begins_iff h.regular).mpr h.first
        holds := (holds_iff value).mpr h.regular
        free := not_or.mp fun hReserved => h.free (hFree.mp hReserved)
        named := fun hLow => absurd (hNamed.mp hLow) (h.named ▸ Bool.false_ne_true) }

/-- The value `none` becomes the constant of Python as a member. -/
theorem none_notLegal : ¬ IsLegalMember (enumMember "none") := fun h =>
  h.free.2 (by decide)

end CommBindings.Naming
