import CommBindings.Text.LetterCase
import Mathlib

set_option autoImplicit false

/-! # Upper case is upper case

The upper case of a character begins with no lower-case character, unless the character has no
upper case at all, and it holds none of the characters that are treated apart in names
(`upperOf_head`, `upperOf_plain`). Both are read off the tables, with sets of code points as bits
of a number.
-/

namespace CommBindings.Text

/-! ## Sets of code points -/

/-- The set of some code points, as bits. -/
def codeSet (codes : List Nat) : Nat := codes.foldr (fun n set => set ||| 1 <<< n) 0

theorem testBit_codeSet {codes : List Nat} {n : Nat} (h : n ∈ codes) :
    (codeSet codes).testBit n = true := by
  induction codes with
  | nil => exact absurd h List.not_mem_nil
  | cons first rest ih =>
      show (codeSet rest ||| 1 <<< first).testBit n = true
      rw [Nat.testBit_or, Bool.or_eq_true]
      rcases List.mem_cons.mp h with rfl | hRest
      · exact Or.inr (by simp [Nat.testBit_shiftLeft])
      · exact Or.inl (ih hRest)

/-- The set of the code points in some ranges, as bits. -/
def rangeSet (ranges : List (Nat × Nat)) : Nat :=
  ranges.foldr (fun range set => set ||| (2 ^ (range.2 + 1 - range.1) - 1) <<< range.1) 0

theorem testBit_rangeSet (ranges : List (Nat × Nat)) (c : Char) :
    (rangeSet ranges).testBit c.toNat = covers ranges c := by
  induction ranges with
  | nil => exact Nat.zero_testBit _
  | cons range rest ih =>
      have hFirst : ((2 ^ (range.2 + 1 - range.1) - 1) <<< range.1).testBit c.toNat =
          (decide (range.1 ≤ c.toNat) && decide (c.toNat ≤ range.2)) := by
        rw [Nat.testBit_shiftLeft, Nat.testBit_two_pow_sub_one, Bool.eq_iff_iff]
        simp only [Bool.and_eq_true, decide_eq_true_eq]
        omega
      show (rangeSet rest ||| (2 ^ (range.2 + 1 - range.1) - 1) <<< range.1).testBit c.toNat = _
      rw [Nat.testBit_or, ih, hFirst, Bool.or_comm]
      rfl

/-- No code point lies in both sets. -/
def Apart (set other : Nat) : Prop := set &&& other = 0

instance (set other : Nat) : Decidable (Apart set other) :=
  inferInstanceAs (Decidable (set &&& other = 0))

/-- Each code point of the first set lies in the second. -/
def Within (set other : Nat) : Prop := set ||| other = other

instance (set other : Nat) : Decidable (Within set other) :=
  inferInstanceAs (Decidable (set ||| other = other))

theorem not_covers_of_apart {codes : List Nat} {ranges : List (Nat × Nat)} {c : Char}
    (hApart : Apart (codeSet codes) (rangeSet ranges)) (hc : c.toNat ∈ codes) :
    covers ranges c = false := by
  have hBit := congrArg (Nat.testBit · c.toNat) hApart
  simp only [Nat.testBit_and, testBit_codeSet hc, testBit_rangeSet, Bool.true_and,
    Nat.zero_testBit] at hBit
  exact hBit

/-- No character lies in both of two sets that are apart. -/
theorem covers_apart {ranges others : List (Nat × Nat)} {c : Char}
    (hApart : Apart (rangeSet ranges) (rangeSet others)) (hc : covers ranges c = true) :
    covers others c = false := by
  have hBit := congrArg (Nat.testBit · c.toNat) hApart
  simp only [Nat.testBit_and, testBit_rangeSet, hc, Bool.true_and, Nat.zero_testBit] at hBit
  exact hBit

/-- A character of a set lies in each set that holds it. -/
theorem covers_of_within {ranges others : List (Nat × Nat)} {c : Char}
    (hWithin : Within (rangeSet ranges) (rangeSet others)) (hc : covers ranges c = true) :
    covers others c = true := by
  have hBit := congrArg (Nat.testBit · c.toNat) hWithin
  simp only [Nat.testBit_or, testBit_rangeSet, hc, Bool.true_or] at hBit
  exact hBit.symm

/-- The characters of one range are those of its code points in turn. -/
theorem exists_of_covers {first last : Nat} {c : Char} (hc : covers [(first, last)] c = true) :
    ∃ k, first + k ≤ last ∧ c = Char.ofNat (first + k) := by
  obtain ⟨range, hRange, hFirst, hLast⟩ := covers_eq_true_iff.mp hc
  rw [List.mem_singleton.mp hRange] at hFirst hLast
  refine ⟨c.toNat - first, ?_, ?_⟩
  · rw [Nat.add_sub_cancel' hFirst]
    exact hLast
  · rw [Nat.add_sub_cancel' hFirst, Char.ofNat_toNat]

theorem eq_of_covers {n : Nat} {c : Char} (hc : covers [(n, n)] c = true) : c = Char.ofNat n := by
  obtain ⟨k, hk, rfl⟩ := exists_of_covers hc
  rw [Nat.le_antisymm hk (Nat.le_add_right n k)]

/-- A character that has its code in a set of codes lies in each set of ranges that holds it. -/
theorem covers_of_codes {codes : List Nat} {ranges : List (Nat × Nat)} {c : Char}
    (hWithin : Within (codeSet codes) (rangeSet ranges)) (hc : c.toNat ∈ codes) :
    covers ranges c = true := by
  have hBit := congrArg (Nat.testBit · c.toNat) hWithin
  simp only [Nat.testBit_or, testBit_codeSet hc, testBit_rangeSet, Bool.true_or] at hBit
  exact hBit.symm

theorem covers_append (ranges others : List (Nat × Nat)) (c : Char) :
    covers (ranges ++ others) c = (covers ranges c || covers others c) := List.any_append

/-! ## The table of upper case -/

/-- The code points that those of a run become. -/
def CaseRun.images (run : CaseRun) : List Nat :=
  (List.range ((run.last - run.first) / run.step + 1)).map fun k =>
    (((run.first + k * run.step : Nat) : Int) + run.distance).toNat

theorem bounds_of_holds {run : CaseRun} {n : Nat} (h : run.holds n = true) :
    run.first ≤ n ∧ n ≤ run.last := by
  unfold CaseRun.holds at h
  rw [Bool.and_eq_true, Bool.and_eq_true, decide_eq_true_eq, decide_eq_true_eq] at h
  exact h.1

/-- The code points of a run are a number of steps away from its first. -/
theorem index_of_holds {run : CaseRun} {n : Nat} (h : run.holds n = true) :
    ∃ k ≤ (run.last - run.first) / run.step, run.first + k * run.step = n := by
  unfold CaseRun.holds at h
  rw [Bool.and_eq_true, Bool.and_eq_true, decide_eq_true_eq, decide_eq_true_eq, beq_iff_eq] at h
  obtain ⟨⟨hFirst, hLast⟩, hStep⟩ := h
  refine ⟨(n - run.first) / run.step, Nat.div_le_div_right (by omega), ?_⟩
  rw [Nat.div_mul_cancel (Nat.dvd_of_mod_eq_zero hStep)]
  omega

theorem mem_images {run : CaseRun} {n : Nat} (h : run.holds n = true) :
    ((n : Int) + run.distance).toNat ∈ run.images := by
  obtain ⟨k, hk, rfl⟩ := index_of_holds h
  exact List.mem_map.mpr ⟨k, List.mem_range.mpr (Nat.lt_succ_of_le hk), rfl⟩

/-- The code points with which an upper case can begin; that of a number that is no code point
is 0. -/
def upperHeads : List Nat :=
  0 :: upperRuns.flatMap CaseRun.images ++ upperSequences.filterMap fun entry => entry.2.head?

/-- The code points that an upper case can hold. -/
def upperCodes : List Nat :=
  0 :: upperRuns.flatMap CaseRun.images ++ upperSequences.flatMap Prod.snd

/-- The characters that are treated apart in names: `!`, `<`, `=`, `>` and the low line. -/
def nameMarks : List (Nat × Nat) := [(33, 33), (60, 62), (95, 95)]

/-- An upper case begins with no lower-case character and holds no mark and no small letter. -/
theorem upper_apart : Apart (codeSet upperHeads) (rangeSet lowercaseRanges) ∧
    Apart (codeSet upperCodes) (rangeSet (nameMarks ++ [(97, 122)])) := by
  decide +kernel

theorem not_covers_upper {c : Char} (hc : c.toNat ∈ upperCodes) :
    covers nameMarks c = false ∧ covers [(97, 122)] c = false := by
  have hNone := not_covers_of_apart upper_apart.2 hc
  rwa [covers_append, Bool.or_eq_false_iff] at hNone

theorem toNat_ofNat_mem {codes : List Nat} {n : Nat} (h : n ∈ codes) :
    (Char.ofNat n).toNat ∈ 0 :: codes := by
  unfold Char.ofNat
  split
  · exact List.mem_cons_of_mem _ h
  · exact List.mem_cons_self

/-- The upper case of a character is the character itself, a sequence of the table, or the image in a run
of the table. -/
theorem upperOf_inversion (c : Char) :
    upperOf c = [c] ∨
      (∃ entry ∈ upperSequences, entry.1 = c.toNat ∧ upperOf c = entry.2.map Char.ofNat) ∨
      ∃ run ∈ upperRuns, run.holds c.toNat = true ∧
        upperOf c = [Char.ofNat (c.toNat + run.distance).toNat] := by
  rw [upperOf, mapCase]
  cases hSequence : upperSequences.lookup c.toNat with
  | some codes =>
      obtain ⟨before, after, hEntry, -⟩ := List.lookup_eq_some_iff.mp hSequence
      have hMem : (c.toNat, codes) ∈ upperSequences := by
        rw [hEntry]
        exact List.mem_append_right _ List.mem_cons_self
      exact Or.inr (Or.inl ⟨_, hMem, rfl, rfl⟩)
  | none =>
      cases hRun : upperRuns.find? (·.holds c.toNat) with
      | none => exact Or.inl rfl
      | some run =>
          have hHolds : run.holds c.toNat = true := by
            simpa using List.find?_some hRun
          exact Or.inr (Or.inr ⟨run, List.mem_of_find?_eq_some hRun, hHolds, rfl⟩)

/-- The upper case of a character is the character, or it is in the table. -/
theorem upperOf_cases (c : Char) :
    upperOf c = [c] ∨ ∃ first rest, upperOf c = first :: rest ∧ first.toNat ∈ upperHeads ∧
      ∀ d ∈ upperOf c, d.toNat ∈ upperCodes := by
  rcases upperOf_inversion c with hSame | ⟨⟨n, codes⟩, hMem, -, hUpper⟩ | ⟨run, hRun, hHolds, hUpper⟩
  · exact Or.inl hSame
  · right
    have hFilled : ∀ entry ∈ upperSequences, entry.2 ≠ [] := by
      decide
    cases codes with
    | nil => exact absurd rfl (hFilled _ hMem)
    | cons first rest =>
        refine ⟨Char.ofNat first, rest.map Char.ofNat, hUpper, ?_, ?_⟩
        · exact toNat_ofNat_mem (List.mem_append_right _
            (List.mem_filterMap.mpr ⟨_, hMem, rfl⟩))
        · rw [hUpper]
          refine List.forall_mem_map.mpr fun code hCode => ?_
          exact toNat_ofNat_mem (List.mem_append_right _
            (List.mem_flatMap.mpr ⟨_, hMem, hCode⟩))
  · right
    have hImage : ((c.toNat : Int) + run.distance).toNat ∈ upperRuns.flatMap CaseRun.images :=
      List.mem_flatMap.mpr ⟨run, hRun, mem_images hHolds⟩
    refine ⟨_, [], hUpper, toNat_ofNat_mem (List.mem_append_left _ hImage), ?_⟩
    rw [hUpper]
    exact List.forall_mem_singleton.mpr (toNat_ofNat_mem (List.mem_append_left _ hImage))

theorem images_valid : (upperRuns.flatMap CaseRun.images).all
    (fun n => decide (0 < n ∧ n.isValidChar)) = true := by
  decide +kernel

/-- The image of a character in a run. -/
theorem image_of_run {run : CaseRun} (hRun : run ∈ upperRuns) {n : Nat} (hHolds : run.holds n = true) :
    ((Char.ofNat (n + run.distance).toNat).toNat : Int) = n + run.distance ∧
      (Char.ofNat (n + run.distance).toNat).toNat ∈ upperRuns.flatMap CaseRun.images := by
  have hImage : ((n : Int) + run.distance).toNat ∈ upperRuns.flatMap CaseRun.images :=
    List.mem_flatMap.mpr ⟨run, hRun, mem_images hHolds⟩
  obtain ⟨hPositive, hValid⟩ := of_decide_eq_true (List.all_eq_true.mp images_valid _ hImage)
  rw [Char.toNat_ofNat, if_pos hValid]
  exact ⟨by omega, hImage⟩

/-- A single character that is the upper case of another is its image in a run. -/
theorem upperOf_single {c d : Char} (h : upperOf c = [d]) :
    c = d ∨ ∃ run ∈ upperRuns, run.holds c.toNat = true ∧ (d.toNat : Int) = c.toNat + run.distance ∧
      d.toNat ∈ upperRuns.flatMap CaseRun.images := by
  rcases upperOf_inversion c with hSame | ⟨⟨n, codes⟩, hMem, -, hUpper⟩ | ⟨run, hRun, hHolds, hUpper⟩
  · exact Or.inl (List.cons.inj (hSame.symm.trans h)).1
  · -- no sequence is a single code point
    have hLong : ∀ entry ∈ upperSequences, entry.2.length ≠ 1 := by
      decide
    have hLength := congrArg List.length (hUpper.symm.trans h)
    rw [List.length_map] at hLength
    exact absurd hLength (hLong _ hMem)
  · rw [← (List.cons.inj (hUpper.symm.trans h)).1]
    exact Or.inr ⟨run, hRun, hHolds, image_of_run hRun hHolds⟩

/-- The code points of which the runs make `n`. -/
def sourcesOf (n : Nat) : List Nat := upperRuns.filterMap fun run =>
  let source := ((n : Int) - run.distance).toNat
  if run.holds source then some source else none

theorem mem_sourcesOf {run : CaseRun} (hRun : run ∈ upperRuns) {n image : Nat}
    (hHolds : run.holds n = true) (hImage : (image : Int) = n + run.distance) :
    n ∈ sourcesOf image := by
  have hSource : ((image : Int) - run.distance).toNat = n := by omega
  refine List.mem_filterMap.mpr ⟨run, hRun, ?_⟩
  simp only [hSource, hHolds, if_true]

/-- The upper case of a character begins with no lower-case one, if it is not the character. -/
theorem upperOf_head {c first : Char} {rest : List Char} (h : upperOf c = first :: rest) :
    isLowercase first = false ∨ upperOf first = [first] := by
  rcases upperOf_cases c with hSame | ⟨first', rest', hUpper, hHead, -⟩
  · right
    rw [hSame] at h
    cases h
    exact hSame
  · left
    rw [hUpper] at h
    cases h
    exact not_covers_of_apart upper_apart.1 hHead

theorem upperOf_ne_nil (c : Char) : upperOf c ≠ [] := by
  rcases upperOf_cases c with hSame | ⟨first, rest, hUpper, -⟩
  · rw [hSame]
    exact List.cons_ne_nil _ _
  · rw [hUpper]
    exact List.cons_ne_nil _ _

/-- The upper case of a character holds none of those that are treated apart in names, if the
character is none. -/
theorem upperOf_plain {c : Char} (hc : covers nameMarks c = false) :
    ∀ d ∈ upperOf c, covers nameMarks d = false := by
  rcases upperOf_cases c with hSame | ⟨first, rest, -, -, hCodes⟩
  · rw [hSame]
    exact List.forall_mem_singleton.mpr hc
  · exact fun d hd => (not_covers_upper (hCodes d hd)).1

end CommBindings.Text
