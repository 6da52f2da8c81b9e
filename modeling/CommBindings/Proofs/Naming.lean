import CommBindings.Naming
import CommBindings.Proofs.Text.LetterCase

set_option autoImplicit false

/-! # Names in Pascal case

A name in Pascal case is its own Pascal case (`pascalCase_pascalCase`): no operator is left to be
spelled out, no low line stands before a small letter, and the first character is a capital if
there is one for it.
-/

namespace CommBindings.Naming

open CommBindings.Text

/-! ## Single characters -/

/-- A small letter is one of 26. -/
theorem exists_of_small {c : Char} (h : isSmallLetter c = true) :
    ∃ k < 26, Char.ofNat (97 + k) = c := by
  rw [isSmallLetter, Bool.and_eq_true, decide_eq_true_eq, decide_eq_true_eq] at h
  have hLow : 97 ≤ c.toNat := h.1
  have hHigh : c.toNat ≤ 122 := h.2
  refine ⟨c.toNat - 97, by omega, ?_⟩
  rw [Nat.add_sub_cancel' hLow, Char.ofNat_toNat]

theorem toUpper_of_small {c : Char} (h : isSmallLetter c = true) :
    isSmallLetter c.toUpper = false ∧ c.toUpper ≠ '_' ∧ spellOperator c.toUpper = [c.toUpper] := by
  have hAll : ∀ k < 26, isSmallLetter (Char.ofNat (97 + k)).toUpper = false ∧
      (Char.ofNat (97 + k)).toUpper ≠ '_' ∧
      spellOperator (Char.ofNat (97 + k)).toUpper = [(Char.ofNat (97 + k)).toUpper] := by
    decide
  obtain ⟨k, hk, rfl⟩ := exists_of_small h
  exact hAll k hk

theorem spellOperator_mem {c d : Char} (h : d ∈ spellOperator c) : spellOperator d = [d] := by
  have hWord : ∀ {letters : List Char},
      letters.all (fun e => decide (spellOperator e = [e])) = true → d ∈ letters →
        spellOperator d = [d] :=
    fun hAll hd => of_decide_eq_true (List.all_eq_true.mp hAll d hd)
  unfold spellOperator at h
  split at h
  · exact hWord (by decide) h
  · split at h
    · exact hWord (by decide) h
    · split at h
      · exact hWord (by decide) h
      · split at h
        · exact hWord (by decide) h
        · rw [List.mem_singleton.mp h]
          simp only [spellOperator, *, if_false]

theorem spellOperator_of_plain {c : Char} (h : covers nameMarks c = false) :
    spellOperator c = [c] ∧ c ≠ '_' := by
  have hNe : ∀ d, covers nameMarks d = true → c ≠ d := by
    intro d hd hSame
    rw [hSame, hd] at h
    cases h
  refine ⟨?_, hNe '_' (by decide)⟩
  rw [spellOperator, if_neg (hNe '=' (by decide)), if_neg (hNe '!' (by decide)),
    if_neg (hNe '<' (by decide)), if_neg (hNe '>' (by decide))]

/-! ## Camel case -/

/-- Nothing is left to be done for camel case: no operators and no words to be joined. -/
structure IsCamel (chars : List Char) : Prop where
  spelled : ∀ c ∈ chars, spellOperator c = [c]
  joined : joinWords chars = chars

theorem camelChars_of_isCamel {chars : List Char} (h : IsCamel chars) :
    camelChars chars = chars := by
  have hSpelled : chars.flatMap spellOperator = chars := by
    have hRest := h.spelled
    clear h
    induction chars with
    | nil => rfl
    | cons c rest ih =>
        rw [List.flatMap_cons, hRest c List.mem_cons_self,
          ih fun d hd => hRest d (List.mem_cons_of_mem _ hd)]
        rfl
  rw [camelChars, hSpelled, h.joined]

theorem joinWords_cons {c : Char} (h : c ≠ '_') (rest : List Char) :
    joinWords (c :: rest) = c :: joinWords rest := by
  rw [joinWords]
  intro d others hStart
  exact absurd hStart h

/-- Joined words begin with the first character or with a capital. -/
theorem head_joinWords (c : Char) (rest : List Char) :
    ∃ first others, joinWords (c :: rest) = first :: others ∧
      (first = c ∨ isSmallLetter first = false) := by
  by_cases hLow : c = '_'
  · cases rest with
    | nil =>
        subst hLow
        exact ⟨'_', [], rfl, Or.inl rfl⟩
    | cons d others =>
        subst hLow
        rw [joinWords]
        by_cases hSmall : isSmallLetter d = true
        · rw [if_pos hSmall]
          exact ⟨_, _, rfl, Or.inr (toUpper_of_small hSmall).1⟩
        · rw [if_neg hSmall]
          exact ⟨_, _, rfl, Or.inl rfl⟩
  · exact ⟨c, joinWords rest, joinWords_cons hLow rest, Or.inl rfl⟩

/-- Words are joined at once: no low line before a small letter is left. -/
theorem joinWords_joinWords (chars : List Char) :
    joinWords (joinWords chars) = joinWords chars := by
  fun_induction joinWords chars with
  | case1 c rest hSmall ih => rw [joinWords_cons (toUpper_of_small hSmall).2.1, ih]
  | case2 c rest hSmall ih =>
      -- the low line stays, and no small letter has come to stand behind it
      obtain ⟨first, others, hHead, hFirst⟩ := head_joinWords c rest
      rw [hHead] at ih ⊢
      have hStays : isSmallLetter first = false := by
        rcases hFirst with rfl | hFirst
        · exact Bool.eq_false_iff.mpr hSmall
        · exact hFirst
      rw [joinWords, hStays, if_neg Bool.false_ne_true, ih]
  | case3 c rest hStart ih =>
      by_cases hLow : c = '_'
      · cases rest with
        | nil =>
            subst hLow
            rfl
        | cons d others => exact absurd rfl (hStart d others hLow)
      · rw [joinWords_cons hLow, ih]
  | case4 => rfl

theorem joinWords_spelled {chars : List Char} (h : ∀ c ∈ chars, spellOperator c = [c]) :
    ∀ c ∈ joinWords chars, spellOperator c = [c] := by
  fun_induction joinWords chars with
  | case1 c rest hSmall ih =>
      have hRest := ih fun d hd => h d (List.mem_cons_of_mem _ (List.mem_cons_of_mem _ hd))
      exact List.forall_mem_cons.mpr ⟨(toUpper_of_small hSmall).2.2, hRest⟩
  | case2 c rest hSmall ih =>
      have hRest := ih fun d hd => h d (List.mem_cons_of_mem _ hd)
      exact List.forall_mem_cons.mpr ⟨h '_' List.mem_cons_self, hRest⟩
  | case3 c rest hStart ih =>
      have hRest := ih fun d hd => h d (List.mem_cons_of_mem _ hd)
      exact List.forall_mem_cons.mpr ⟨h c List.mem_cons_self, hRest⟩
  | case4 => exact fun c hc => absurd hc List.not_mem_nil

theorem isCamel_camelChars (chars : List Char) : IsCamel (camelChars chars) where
  spelled := by
    refine joinWords_spelled fun c hc => ?_
    obtain ⟨d, -, hd⟩ := List.mem_flatMap.mp hc
    exact spellOperator_mem hd
  joined := joinWords_joinWords _

/-! ## Pascal case -/

theorem isCamel_append {chars rest : List Char} (hChars : ∀ c ∈ chars, covers nameMarks c = false)
    (hRest : IsCamel rest) : IsCamel (chars ++ rest) := by
  induction chars with
  | nil => exact hRest
  | cons c others ih =>
      have hPlain := spellOperator_of_plain (hChars c List.mem_cons_self)
      have hOthers := ih fun d hd => hChars d (List.mem_cons_of_mem _ hd)
      constructor
      · exact List.forall_mem_cons.mpr ⟨hPlain.1, hOthers.spelled⟩
      · rw [List.cons_append, joinWords_cons hPlain.2, hOthers.joined]

theorem plain_of_lowercase {c : Char} (h : isLowercase c = true) :
    covers nameMarks c = false := by
  have hApart : Apart (codeSet [33, 60, 61, 62, 95]) (rangeSet lowercaseRanges) := by
    decide +kernel
  by_contra hCovers
  obtain ⟨range, hRange, hLow, hHigh⟩ :=
    covers_eq_true_iff.mp (Bool.not_eq_false _ ▸ hCovers)
  have hCode : c.toNat ∈ [33, 60, 61, 62, 95] := by
    simp only [nameMarks, List.mem_cons, List.not_mem_nil, or_false] at hRange ⊢
    rcases hRange with rfl | rfl | rfl <;> simp only at hLow hHigh <;> omega
  have hOther : isLowercase c = false := not_covers_of_apart hApart hCode
  rw [h] at hOther
  cases hOther

/-- A capital at the start leaves camel case as it is. -/
theorem isCamel_capitalized {chars : List Char} (h : IsCamel chars) :
    IsCamel (capitalized chars) := by
  cases chars with
  | nil => exact h
  | cons c rest =>
      rw [capitalized]
      split
      · next hLower =>
        -- one character may become several, none of which is an operator or a low line
        have hPlain := plain_of_lowercase hLower
        have hRest : IsCamel rest := by
          refine ⟨fun d hd => h.spelled d (List.mem_cons_of_mem _ hd), ?_⟩
          have hJoined := h.joined
          rw [joinWords_cons (spellOperator_of_plain hPlain).2] at hJoined
          exact (List.cons.inj hJoined).2
        exact isCamel_append (upperOf_plain hPlain) hRest
      · exact h

theorem capitalized_capitalized (chars : List Char) :
    capitalized (capitalized chars) = capitalized chars := by
  cases chars with
  | nil => rfl
  | cons c rest =>
      by_cases hLower : isLowercase c = true
      · cases hUpper : upperOf c with
        | nil => exact absurd hUpper (upperOf_ne_nil c)
        | cons first others =>
            have hOnce : capitalized (c :: rest) = first :: (others ++ rest) := by
              rw [capitalized, if_pos hLower, hUpper, List.cons_append]
            rw [hOnce, capitalized]
            -- the new head is no lower-case character, or it has no upper case
            rcases upperOf_head hUpper with hFirst | hFirst
            · rw [hFirst, if_neg Bool.false_ne_true]
            · rw [hFirst, List.singleton_append, ite_self]
      · have hOnce : capitalized (c :: rest) = c :: rest := by
          rw [capitalized, if_neg hLower]
        rw [hOnce, hOnce]

/-- A name in Pascal case is its own Pascal case. -/
theorem pascalCase_pascalCase (name : String) : pascalCase (pascalCase name) = pascalCase name := by
  have hCamel := isCamel_capitalized (isCamel_camelChars name.toList)
  rw [pascalCase, pascalCase, String.toList_ofList, camelChars_of_isCamel hCamel,
    capitalized_capitalized]

/-! ## Names with an ending -/

/-- Whether a name begins with an ASCII lower-case letter. -/
def startsSmall (name : String) : Bool := name.toList.head?.any isSmallLetter

theorem isLowercase_of_small {c : Char} (h : isSmallLetter c = true) :
    isLowercase c = true ∧ upperOf c ≠ [c] := by
  have hAll : ∀ k < 26, isLowercase (Char.ofNat (97 + k)) = true ∧
      upperOf (Char.ofNat (97 + k)) ≠ [Char.ofNat (97 + k)] := by
    decide
  obtain ⟨k, hk, rfl⟩ := exists_of_small h
  exact hAll k hk

theorem startsSmall_pascalCase (name : String) : startsSmall (pascalCase name) = false := by
  rw [startsSmall, pascalCase, String.toList_ofList]
  cases camelChars name.toList with
  | nil => rfl
  | cons c rest =>
      rw [capitalized]
      by_cases hLower : isLowercase c = true
      · rw [if_pos hLower]
        cases hUpper : upperOf c with
        | nil => exact absurd hUpper (upperOf_ne_nil c)
        | cons first others =>
            show isSmallLetter first = false
            by_contra hSmall
            obtain ⟨hFirst, hChanged⟩ := isLowercase_of_small (Bool.not_eq_false _ ▸ hSmall)
            rcases upperOf_head hUpper with hCapital | hSame
            · rw [hFirst] at hCapital
              cases hCapital
            · exact hChanged hSame
      · rw [if_neg hLower]
        show isSmallLetter c = false
        by_contra hSmall
        exact hLower (isLowercase_of_small (Bool.not_eq_false _ ▸ hSmall)).1

theorem startsSmall_append {first second : String} (hFirst : startsSmall first = false)
    (hSecond : startsSmall second = false) : startsSmall (first ++ second) = false := by
  rw [startsSmall, String.toList_append]
  rw [startsSmall] at hFirst hSecond
  cases hChars : first.toList with
  | nil => exact hSecond
  | cons c rest =>
      rw [hChars] at hFirst
      exact hFirst

theorem pythonField_eq_field {name : String} : pythonField name = "field" ↔ name = "field" := by
  constructor
  · intro h
    have h : (if pythonKeywords.contains (withoutHyphens name) then withoutHyphens name ++ "_"
        else withoutHyphens name) = "field" := h
    split at h
    · -- a reserved word would have a low line at its end
      have hEnd := congrArg (fun text => text.toList.getLast?) h
      simp only [String.toList_append] at hEnd
      rw [List.getLast?_append_of_ne_nil _ (by decide)] at hEnd
      exact absurd hEnd (by decide)
    · have hChars : (name.toList.map fun c => if c = '-' then '_' else c) = "field".toList := by
        rw [← h, withoutHyphens, String.toList_ofList]
      have hSame : (name.toList.map fun c => if c = '-' then '_' else c) = name.toList := by
        refine (List.map_congr_left fun c hc => ?_).trans (List.map_id _)
        have hLetter : (if c = '-' then '_' else c) ∈ "field".toList := by
          rw [← hChars]
          exact List.mem_map_of_mem hc
        by_cases hHyphen : c = '-'
        · rw [if_pos hHyphen] at hLetter
          exact absurd hLetter (by decide)
        · rw [if_neg hHyphen]
          rfl
      rw [hSame] at hChars
      exact String.toList_inj.mp hChars
  · rintro rfl
    decide

end CommBindings.Naming
