import CommBindings.Proofs.Naming

set_option autoImplicit false

/-! # Names without NUL

No character but NUL has NUL in its upper or lower case, as the tables show. So the names that are
formed from a name hold NUL only if the name does.
-/

namespace CommBindings

namespace Text

theorem mapCase_ne_nul {runs : List CaseRun} {sequences : List (Nat × List Nat)}
    (hRuns : ∀ n ∈ runs.flatMap CaseRun.images, Char.ofNat n ≠ '\x00')
    (hSequences : ∀ n ∈ sequences.flatMap Prod.snd, Char.ofNat n ≠ '\x00') {c : Char}
    (hc : c ≠ '\x00') : ∀ d ∈ mapCase runs sequences c, d ≠ '\x00' := by
  unfold mapCase
  cases hSequence : sequences.lookup c.toNat with
  | some codes =>
      obtain ⟨before, after, hEntries, -⟩ := List.lookup_eq_some_iff.mp hSequence
      have hMem : (c.toNat, codes) ∈ sequences := by
        rw [hEntries]
        exact List.mem_append_right _ List.mem_cons_self
      exact List.forall_mem_map.mpr fun n hn =>
        hSequences n (List.mem_flatMap.mpr ⟨_, hMem, hn⟩)
  | none =>
      cases hRun : runs.find? (·.holds c.toNat) with
      | none => exact List.forall_mem_singleton.mpr hc
      | some run =>
          have hHolds : run.holds c.toNat = true := by
            simpa using List.find?_some hRun
          exact List.forall_mem_singleton.mpr (hRuns _
            (List.mem_flatMap.mpr ⟨run, List.mem_of_find?_eq_some hRun, mem_images hHolds⟩))

theorem upperOf_ne_nul {c : Char} (hc : c ≠ '\x00') : ∀ d ∈ upperOf c, d ≠ '\x00' :=
  mapCase_ne_nul (by decide +kernel) (by decide +kernel) hc

theorem lowerOf_ne_nul {c : Char} (hc : c ≠ '\x00') : ∀ d ∈ lowerOf c, d ≠ '\x00' :=
  mapCase_ne_nul (by decide +kernel) (by decide) hc

theorem lowerFrom_ne_nul {afterCased : Bool} {chars : List Char} (h : ∀ c ∈ chars, c ≠ '\x00') :
    ∀ d ∈ lowerFrom afterCased chars, d ≠ '\x00' := by
  induction chars generalizing afterCased with
  | nil => exact h
  | cons c rest ih =>
      obtain ⟨hFirst, hRest⟩ := List.forall_mem_cons.mp h
      rw [lowerFrom]
      refine List.forall_mem_append.mpr ⟨?_, ih hRest⟩
      split
      · refine List.forall_mem_singleton.mpr ?_
        rw [lowerSigma]
        split <;> decide
      · exact lowerOf_ne_nul hFirst

end Text

namespace Naming

open Text

theorem spellOperator_ne_nul {c : Char} (hc : c ≠ '\x00') : ∀ d ∈ spellOperator c, d ≠ '\x00' := by
  unfold spellOperator
  split
  · simp
  · split
    · simp
    · split
      · simp
      · split
        · simp
        · exact List.forall_mem_singleton.mpr hc

theorem toUpper_ne_nul {c : Char} (h : isSmallLetter c = true) : c.toUpper ≠ '\x00' := by
  have hAll : ∀ k < 26, (Char.ofNat (97 + k)).toUpper ≠ '\x00' := by
    decide
  obtain ⟨k, hk, rfl⟩ := exists_of_small h
  exact hAll k hk

theorem joinWords_ne_nul {chars : List Char} (h : ∀ c ∈ chars, c ≠ '\x00') :
    ∀ d ∈ joinWords chars, d ≠ '\x00' := by
  fun_induction joinWords chars with
  | case1 c rest hSmall ih =>
      obtain ⟨-, hLater⟩ := List.forall_mem_cons.mp h
      obtain ⟨-, hRest⟩ := List.forall_mem_cons.mp hLater
      exact List.forall_mem_cons.mpr ⟨toUpper_ne_nul hSmall, ih hRest⟩
  | case2 c rest hSmall ih =>
      obtain ⟨hFirst, hLater⟩ := List.forall_mem_cons.mp h
      exact List.forall_mem_cons.mpr ⟨hFirst, ih hLater⟩
  | case3 c rest hNoPair ih =>
      obtain ⟨hFirst, hRest⟩ := List.forall_mem_cons.mp h
      exact List.forall_mem_cons.mpr ⟨hFirst, ih hRest⟩
  | case4 => exact h

theorem pascalCase_ne_nul {name : String} (h : ∀ c ∈ name.toList, c ≠ '\x00') :
    ∀ d ∈ (pascalCase name).toList, d ≠ '\x00' := by
  have hCamel : ∀ d ∈ camelChars name.toList, d ≠ '\x00' := by
    refine joinWords_ne_nul fun d hd => ?_
    obtain ⟨c, hc, hd⟩ := List.mem_flatMap.mp hd
    exact spellOperator_ne_nul (h c hc) d hd
  rw [pascalCase, String.toList_ofList]
  cases hChars : camelChars name.toList with
  | nil => exact List.forall_mem_nil _
  | cons first rest =>
      rw [hChars] at hCamel
      obtain ⟨hFirst, hRest⟩ := List.forall_mem_cons.mp hCamel
      rw [capitalized]
      split
      · exact List.forall_mem_append.mpr ⟨upperOf_ne_nul hFirst, hRest⟩
      · exact hCamel

theorem moduleName_ne_nul {name : String} (h : ∀ c ∈ name.toList, c ≠ '\x00') :
    ∀ d ∈ (moduleName name).toList, d ≠ '\x00' := by
  rw [moduleName, withoutHyphens, String.toList_ofList, lower, String.toList_ofList]
  refine List.forall_mem_map.mpr fun c hc => ?_
  split
  · decide
  · exact lowerFrom_ne_nul h c hc

end Naming

end CommBindings
