import CommBindings.Proofs.Contract.Typing
import CommBindings.Proofs.Target.EnumMembers

set_option autoImplicit false

/-! # Camel case and Pascal case

A name that has been converted is left alone by the conversions that follow, and so a type that is
declared under a converted name can be named from it again (`conversions_stable`). Pascal case is camel
case with the first character in upper case, unless that is a letter of title case: then the name stays
in camel case, although the letter has an upper case (`pascalCase_eq_upperFirst_iff`).
-/

namespace CommBindings.Naming

open Text

/-! ## Converted names -/

/-- No operator of the name is left to be spelled out, and no word to be joined to the one before. -/
structure IsConverted (name : String) : Prop where
  spelled : ∀ c ∈ name.toList, c ∉ operators
  joined : ∀ front c rest, name.toList = front ++ '_' :: c :: rest → ¬ ('a' ≤ c ∧ c ≤ 'z')

theorem not_operator_of_spelled {c : Char} (h : spellOperator c = [c]) : c ∉ operators := by
  intro hOperator
  have hLong := (spellOperator_of_operator hOperator).2.1
  rw [h] at hLong
  exact absurd hLong (Nat.lt_irrefl 1)

/-- Where all words are joined, no small letter stands behind a low line. -/
theorem not_small_of_joined {chars front rest : List Char} {c : Char} (h : joinWords chars = chars)
    (hChars : chars = front ++ '_' :: c :: rest) : isSmallLetter c = false := by
  fun_induction joinWords chars generalizing front with
  | case1 d others hSmall ih =>
      -- the capital in place of the low line is none
      exact absurd (List.cons.inj h).1 (toUpper_of_small hSmall).2.1
  | case2 d others hSmall ih =>
      cases front with
      | nil =>
          obtain ⟨rfl, -⟩ := List.cons.inj (List.cons.inj hChars).2
          exact Bool.eq_false_iff.mpr hSmall
      | cons e front => exact ih (List.cons.inj h).2 (List.cons.inj hChars).2
  | case3 d others hStart ih =>
      cases front with
      | nil =>
          obtain ⟨rfl, rfl⟩ := List.cons.inj hChars
          exact absurd rfl (hStart c rest rfl)
      | cons e front => exact ih (List.cons.inj h).2 (List.cons.inj hChars).2
  | case4 => exact absurd hChars.symm (List.append_ne_nil_of_right_ne_nil _ (List.cons_ne_nil _ _))

theorem isConverted_of_isCamel {chars : List Char} (h : IsCamel chars) :
    IsConverted (String.ofList chars) where
  spelled := by
    rw [String.toList_ofList]
    exact fun c hc => not_operator_of_spelled (h.spelled c hc)
  joined := by
    rw [String.toList_ofList]
    intro front c rest hChars hLetter
    have hNone := not_small_of_joined h.joined hChars
    rw [isSmallLetter, decide_eq_true hLetter.1, decide_eq_true hLetter.2] at hNone
    cases hNone

theorem camelChars_camelCase (name : String) :
    camelChars (camelCase name).toList = camelChars name.toList := by
  rw [camelCase, String.toList_ofList, camelChars_of_isCamel (isCamel_camelChars _)]

/-- A type named after its owner and itself has one name, whether that of the owner is in Pascal case
already or not. -/
theorem enumName_owner (name : String) (key : Key) (keys : Context) :
    enumName (key :: .text (pascalCase name) :: keys) = enumName (key :: .text name :: keys) := by
  simp only [enumName, Scalar.typeName, pascalCase_pascalCase]

/-- Camel case and Pascal case leave alone what is in camel case already, and so does Pascal case what is
in Pascal case. Neither has an operator, or a low line before a small letter. The name of an
enumeration is the same if that of its owner is converted beforehand. -/
theorem conversions_stable (name : String) :
    camelCase (camelCase name) = camelCase name ∧ pascalCase (pascalCase name) = pascalCase name ∧
      pascalCase (camelCase name) = pascalCase name ∧
      IsConverted (camelCase name) ∧ IsConverted (pascalCase name) ∧
      ∀ key keys,
        enumName (key :: .text (pascalCase name) :: keys) = enumName (key :: .text name :: keys) := by
  refine ⟨?_, pascalCase_pascalCase name, ?_, ?_, ?_, enumName_owner name⟩
  · exact congrArg String.ofList (camelChars_camelCase name)
  · exact congrArg (fun chars => String.ofList (capitalized chars)) (camelChars_camelCase name)
  · exact isConverted_of_isCamel (isCamel_camelChars _)
  · exact isConverted_of_isCamel (isCamel_capitalized (isCamel_camelChars _))

/-! ## Title case -/

/-- The letters of title case. Each stands for two letters of which only the first is a capital. -/
def titleRanges : List (Nat × Nat) := [
  (453, 453), (456, 456), (459, 459), (498, 498), (8072, 8079), (8088, 8095), (8104, 8111),
  (8124, 8124), (8140, 8140), (8188, 8188)]

/-- A letter of title case. -/
def isTitle (c : Char) : Bool := covers titleRanges c

/-- The code points that have another upper case. -/
def upperSources : List Nat :=
  upperSequences.map Prod.fst ++ upperRuns.flatMap fun run =>
    (List.range ((run.last - run.first) / run.step + 1)).map fun k => run.first + k * run.step

/-- What has another upper case is of lower case or of title case. No letter of title case is of lower
case, or in ASCII, or in an upper case. -/
theorem title_tables : Within (codeSet upperSources) (rangeSet (lowercaseRanges ++ titleRanges)) ∧
    Apart (rangeSet titleRanges) (rangeSet lowercaseRanges) ∧
    Apart (rangeSet [(0, 127)]) (rangeSet titleRanges) ∧
    Apart (codeSet upperCodes) (rangeSet titleRanges) := by
  decide +kernel

theorem mem_upperSources {c : Char} (h : upperOf c ≠ [c]) : c.toNat ∈ upperSources := by
  rcases upperOf_inversion c with hSame | ⟨entry, hMem, hKey, -⟩ | ⟨run, hRun, hHolds, -⟩
  · exact absurd hSame h
  · exact List.mem_append_left _ (List.mem_map.mpr ⟨entry, hMem, hKey⟩)
  · obtain ⟨k, hk, hCode⟩ := index_of_holds hHolds
    refine List.mem_append_right _ (List.mem_flatMap.mpr ⟨run, hRun, List.mem_map.mpr ⟨k, ?_, hCode⟩⟩)
    exact List.mem_range.mpr (Nat.lt_succ_of_le hk)

/-- A character that is neither of lower case nor of title case is its own upper case. -/
theorem upperOf_eq_self {c : Char} (hLower : isLowercase c = false) (hTitle : isTitle c = false) :
    upperOf c = [c] := by
  by_contra hOther
  have hSource := covers_of_codes title_tables.1 (mem_upperSources hOther)
  rw [covers_append, Bool.or_eq_true] at hSource
  rcases hSource with hSource | hSource
  · rw [isLowercase, hSource] at hLower
    cases hLower
  · rw [isTitle, hSource] at hTitle
    cases hTitle

/-- A letter of title case is of no lower case, and has another upper case. -/
theorem upperOf_title {c : Char} (h : isTitle c = true) :
    isLowercase c = false ∧ upperOf c ≠ [c] := by
  have hAll : ∀ range ∈ titleRanges, ∀ k < 8, range.1 + k ≤ range.2 →
      upperOf (Char.ofNat (range.1 + k)) ≠ [Char.ofNat (range.1 + k)] := by
    decide +kernel
  refine ⟨covers_apart title_tables.2.1 h, ?_⟩
  have hLong : ∀ range ∈ titleRanges, range.2 < range.1 + 8 := by decide
  obtain ⟨range, hRange, hFirst, hLast⟩ := covers_eq_true_iff.mp h
  have hc : Char.ofNat (range.1 + (c.toNat - range.1)) = c := by
    rw [Nat.add_sub_cancel' hFirst, Char.ofNat_toNat]
  have hOther := hAll range hRange (c.toNat - range.1) (by have := hLong range hRange; omega) (by omega)
  rwa [hc] at hOther

/-- Conversion neither takes away a letter of title case nor brings one in. -/
theorem isKept_isTitle : IsKept isTitle := by
  obtain ⟨-, hLower, hPlain, hUpper⟩ := title_tables
  constructor
  case plain =>
    intro c hc
    refine covers_apart hPlain (covers_eq_true_iff.mpr ⟨(0, 127), List.mem_cons_self, ?_⟩)
    exact ⟨Nat.zero_le _, Nat.le_of_lt_succ hc⟩
  case fixed =>
    intro c hc hTitle
    rw [isLowercase, covers_apart hLower hTitle] at hc
    cases hc
  case upper =>
    intro c hc d hd
    rcases upperOf_cases c with hSame | ⟨first, rest, -, -, hCodes⟩
    · rw [hSame, List.mem_singleton] at hd
      rw [hd, hc]
    · exact not_covers_of_apart hUpper (hCodes d hd)

/-- Whether a name begins with a letter of title case. -/
def startsTitle (name : String) : Bool := name.toList.head?.any isTitle

theorem startsTitle_camelCase (name : String) : startsTitle (camelCase name) = startsTitle name := by
  rw [startsTitle, startsTitle, camelCase, String.toList_ofList, camelChars,
    head_joinWords_any isKept_isTitle]
  exact (any_spelled isKept_isTitle name.toList).2

/-! ## The first character -/

/-- The characters with the first in upper case. -/
def upperFirst : List Char → List Char
  | [] => []
  | c :: rest => upperOf c ++ rest

/-- The first character is put in upper case, unless it is a letter of title case. -/
theorem capitalized_eq (chars : List Char) :
    capitalized chars = if chars.head?.any isTitle then chars else upperFirst chars := by
  cases chars with
  | nil => rfl
  | cons c rest =>
      rw [List.head?_cons, Option.any_some, capitalized, upperFirst]
      by_cases hTitle : isTitle c = true
      · rw [if_pos hTitle, if_neg (Bool.eq_false_iff.mp (upperOf_title hTitle).1)]
      · rw [if_neg hTitle]
        split
        · rfl
        · next hLower =>
          rw [upperOf_eq_self (Bool.eq_false_iff.mpr hLower) (Bool.eq_false_iff.mpr hTitle)]
          rfl

theorem upperFirst_ne_of_title {chars : List Char} (h : chars.head?.any isTitle = true) :
    upperFirst chars ≠ chars := by
  cases chars with
  | nil => cases h
  | cons c rest =>
      intro hSame
      exact (upperOf_title h).2 (List.append_cancel_right (hSame : upperOf c ++ rest = [c] ++ rest))

/-- A name in Pascal case is the name in camel case with the first character in upper case exactly if the
name does not begin with a letter of title case. If it does, the name stays in camel case. -/
theorem pascalCase_eq_upperFirst_iff (name : String) :
    (pascalCase name = String.ofList (upperFirst (camelCase name).toList) ↔ startsTitle name = false) ∧
      pascalCase name = if startsTitle name then camelCase name
        else String.ofList (upperFirst (camelCase name).toList) := by
  have hPascal : pascalCase name = String.ofList (if startsTitle name then (camelCase name).toList
      else upperFirst (camelCase name).toList) := by
    rw [pascalCase, capitalized_eq, ← startsTitle_camelCase, startsTitle, camelCase,
      String.toList_ofList]
  rw [hPascal]
  cases hTitle : startsTitle name with
  | false => exact ⟨⟨fun _ => rfl, fun _ => rfl⟩, rfl⟩
  | true =>
      rw [if_pos rfl, if_pos rfl]
      refine ⟨⟨fun hSame => ?_, fun hNone => by cases hNone⟩, String.ofList_toList⟩
      rw [← startsTitle_camelCase] at hTitle
      exact absurd (String.ofList_injective hSame).symm (upperFirst_ne_of_title hTitle)

/-- `ǅ` stays as it is, although its upper case is `Ǆ`. -/
theorem title_not_upper :
    pascalCase "ǅ" ≠ String.ofList (upperFirst (camelCase "ǅ").toList) ∧
      upperFirst (camelCase "ǅ").toList = ['Ǆ'] := by
  decide +kernel

end CommBindings.Naming
