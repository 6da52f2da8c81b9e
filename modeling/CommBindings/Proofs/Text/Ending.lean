import Mathlib

set_option autoImplicit false

/-! # How names end

The last three characters of a name tell apart names that were given different endings.
-/

namespace CommBindings

/-- The last three characters of a name, the last first. -/
def lastThree (name : String) : List Char := name.toList.reverse.take 3

theorem lastThree_append (first second : String) (h : 3 ≤ second.toList.length) :
    lastThree (first ++ second) = lastThree second := by
  rw [lastThree, lastThree, String.toList_append, List.reverse_append,
    List.take_append_of_le_length (by rwa [List.length_reverse])]

theorem ne_of_lastThree {name other : String} (h : lastThree name ≠ lastThree other) :
    name ≠ other := fun hSame => h (congrArg lastThree hSame)

end CommBindings
