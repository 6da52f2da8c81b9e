set_option autoImplicit false

/-! # Character ranges

Classes of characters given as lists of code point ranges.
-/

namespace CommBindings.Text

/-- Whether one of the ranges holds the character; both ends of a range belong to it. -/
def covers (ranges : List (Nat × Nat)) (c : Char) : Bool :=
  ranges.any fun range => range.1 ≤ c.toNat && c.toNat ≤ range.2

theorem covers_eq_true_iff {ranges : List (Nat × Nat)} {c : Char} :
    covers ranges c = true ↔ ∃ range ∈ ranges, range.1 ≤ c.toNat ∧ c.toNat ≤ range.2 := by
  simp [covers]

end CommBindings.Text
