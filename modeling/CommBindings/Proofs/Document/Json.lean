import CommBindings.Document.Json
import CommBindings.Proofs.Document.Parts
import CommBindings.Proofs.Results

set_option autoImplicit false

/-! # What JSON texts say is plain

The keys of an object in a JSON text are texts, and an integer with too many digits is refused. So
every value that is read from a JSON text is plain (`isPlain_read`). The proof follows the readers of
values, items and members together, which call each other with less fuel (`readsPlain`).
-/

namespace CommBindings

namespace Numeral

/-- Digits of a base write a number below the power of the base that has as many digits. -/
theorem ofDigits_lt {base : Nat} {digits : List Nat} (h : ∀ d ∈ digits, d < base) :
    ofDigits base digits < base ^ digits.length := by
  have hFold : ∀ front, digits.foldl (· * base + ·) front < (front + 1) * base ^ digits.length := by
    induction digits with
    | nil =>
        intro front
        simp
    | cons d rest ih =>
        obtain ⟨hFirst, hRest⟩ := List.forall_mem_cons.mp h
        intro front
        calc rest.foldl (· * base + ·) (front * base + d)
            < (front * base + d + 1) * base ^ rest.length := ih hRest _
          _ ≤ ((front + 1) * base) * base ^ rest.length := by
              apply Nat.mul_le_mul_right
              rw [Nat.add_mul]
              omega
          _ = (front + 1) * base ^ (rest.length + 1) := by
              rw [Nat.mul_assoc, Nat.pow_succ']
  have hAll := hFold 0
  rwa [Nat.zero_add, Nat.one_mul] at hAll

theorem decimalValue_lt {digits : List Char} (h : ∀ c ∈ digits, isDecimal c = true) :
    decimalValue digits < 10 ^ digits.length := by
  have hBelow : ∀ d ∈ digits.map (fun c => c.toNat - 48), d < 10 := by
    refine List.forall_mem_map.mpr fun c hc => ?_
    have hDecimal := h c hc
    rw [isDecimal, Bool.and_eq_true, decide_eq_true_eq, decide_eq_true_eq] at hDecimal
    omega
  have hValue := ofDigits_lt hBelow
  rwa [List.length_map] at hValue

end Numeral

/-- An integer with digits enough to be shown is shown. -/
theorem isShort_of_lt {n : Int} {length : Nat} (h : n.natAbs < 10 ^ length)
    (hLength : length ≤ Numeral.maxDigits) : (Scalar.int n).isShort = true := by
  have hPower : ∀ limit, length ≤ limit → Nat.pow 10 length ≤ Nat.pow 10 limit :=
    fun limit => Nat.pow_le_pow_right (Nat.zero_lt_succ 9)
  rw [Scalar.isShort, integerText?]
  split
  · next hLong => exact absurd (Nat.le_trans (hPower _ hLength) hLong) (Nat.not_le.mpr h)
  · rfl

namespace Json

open Value

theorem splitInteger_isDecimal (text : List Char) :
    ∀ c ∈ (splitInteger text).1, Numeral.isDecimal c = true := by
  unfold splitInteger
  split
  · exact List.forall_mem_singleton.mpr (by decide)
  · exact fun c hc => List.mem_takeWhile_imp hc

theorem isPlain_readNumber {text rest : List Char} {value : Value}
    (h : readNumber text = .ok (value, rest)) : value.isPlain = true := by
  unfold readNumber at h
  split at h
  next negative unsigned _ =>
  simp only at h
  split at h
  · cases h
  · split at h
    · -- an integer
      split at h
      · cases h
      · next hLength =>
        cases h
        have hValue := Numeral.decimalValue_lt (splitInteger_isDecimal unsigned)
        rw [isPlain, every]
        refine isShort_of_lt ?_ (Nat.le_of_not_lt hLength)
        split
        · rw [Int.natAbs_neg, Int.natAbs_natCast]
          exact hValue
        · exact hValue
    · cases h
      rfl

theorem isPlain_readWord {text rest : List Char} {value : Value}
    (h : readWord? text = some (value, rest)) : value.isPlain = true := by
  have hWords : ∀ word ∈ words, word.2.isShort = true := by
    decide
  obtain ⟨word, hFind, hValue⟩ := Option.map_eq_some_iff.mp h
  cases hValue
  rw [isPlain, every]
  exact hWords word (List.mem_of_find?_eq_some hFind)

/-- Whatever is read with so much fuel is plain. -/
structure ReadsPlain (fuel : Nat) : Prop where
  value : ∀ text value rest, readValue fuel text = .ok (value, rest) → value.isPlain = true
  items : ∀ text items rest, readItems fuel text = .ok (items, rest) →
    everyItem Scalar.isShort Mapping.hasTextKeys items = true
  members : ∀ text members rest, readMembers fuel text = .ok (members, rest) →
    Mapping.hasTextKeys members = true ∧
      everyEntry Scalar.isShort Mapping.hasTextKeys members = true

theorem readsPlain_zero : ReadsPlain 0 where
  value := fun text value rest h => by
    rw [readValue] at h
    cases h
  items := fun text items rest h => by
    rw [readItems] at h
    cases h
  members := fun text members rest h => by
    rw [readMembers] at h
    cases h

theorem isPlain_readValue {fuel : Nat} (ih : ReadsPlain fuel) {text rest : List Char}
    {value : Value} (h : readValue (fuel + 1) text = .ok (value, rest)) :
    value.isPlain = true := by
  unfold readValue at h
  split at h
  · -- a text
    split at h
    · cases h
      rfl
    · cases h
  · -- a list
    split at h
    · cases h
      rfl
    · split at h
      · next items _ hItems =>
        cases h
        rw [isPlain, every]
        exact ih.items _ _ _ hItems
      · cases h
  · -- an object
    split at h
    · cases h
      rfl
    · split at h
      · next members _ hMembers =>
        cases h
        obtain ⟨hKeys, hValues⟩ := ih.members _ _ _ hMembers
        rw [isPlain, every, Bool.and_eq_true]
        exact every_dedupEntries hKeys hValues
      · cases h
  · split at h
    · next result hWord =>
      cases h
      exact isPlain_readWord hWord
    · exact isPlain_readNumber h

theorem everyItem_readItems {fuel : Nat} (ih : ReadsPlain fuel) {text rest : List Char}
    {items : List Value} (h : readItems (fuel + 1) text = .ok (items, rest)) :
    everyItem Scalar.isShort Mapping.hasTextKeys items = true := by
  rw [readItems] at h
  obtain ⟨⟨item, afterItem⟩, hItem, h⟩ := bind_eq_ok.mp h
  have hFirst := ih.value _ _ _ hItem
  simp only at h
  split at h
  · cases h
    rw [everyItem, everyItem, Bool.and_true]
    exact hFirst
  · obtain ⟨⟨others, afterOthers⟩, hOthers, h⟩ := bind_eq_ok.mp h
    cases h
    rw [everyItem, ih.items _ _ _ hOthers, Bool.and_true]
    exact hFirst
  · cases h

theorem every_readMembers {fuel : Nat} (ih : ReadsPlain fuel) {text rest : List Char}
    {members : List (Key × Value)} (h : readMembers (fuel + 1) text = .ok (members, rest)) :
    Mapping.hasTextKeys members = true ∧
      everyEntry Scalar.isShort Mapping.hasTextKeys members = true := by
  unfold readMembers at h
  split at h
  · obtain ⟨⟨name, afterName⟩, -, h⟩ := bind_eq_ok.mp h
    simp only at h
    split at h
    · obtain ⟨⟨value, afterValue⟩, hValue, h⟩ := bind_eq_ok.mp h
      have hFirst := ih.value _ _ _ hValue
      simp only at h
      split at h
      · cases h
        rw [everyEntry, everyEntry, Bool.and_true]
        exact ⟨rfl, hFirst⟩
      · obtain ⟨⟨others, afterOthers⟩, hOthers, h⟩ := bind_eq_ok.mp h
        cases h
        obtain ⟨hKeys, hValues⟩ := ih.members _ _ _ hOthers
        rw [everyEntry, hValues, Bool.and_true]
        exact ⟨hKeys, hFirst⟩
      · cases h
    · cases h
  · cases h

theorem readsPlain (fuel : Nat) : ReadsPlain fuel := by
  induction fuel with
  | zero => exact readsPlain_zero
  | succ fuel ih =>
      exact ⟨fun _ _ _ h => isPlain_readValue ih h, fun _ _ _ h => everyItem_readItems ih h,
        fun _ _ _ h => every_readMembers ih h⟩

/-- What is read from a JSON text is plain. -/
theorem isPlain_read {text : List Char} {value : Value} (h : read text = .ok value) :
    value.isPlain = true := by
  unfold read at h
  split at h
  · cases h
  · split at h
    · cases h
    · next found rest hFound =>
      split at h
      · cases h
        exact (readsPlain _).value _ _ _ hFound
      · cases h

end Json

end CommBindings
