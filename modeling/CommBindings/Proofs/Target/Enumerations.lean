import CommBindings.Proofs.Target.Agreement

set_option autoImplicit false

/-! # Enumerations that share a name

The name of an enumeration is put together from two keys of its context, and so several nodes of a
comm may come to one name. Every target declares one enumeration under it, with the values of the
first node that bears the name (`enums_keep_first`). Nothing is said of the values of later nodes,
not even where a comm is valid without a warning (`off_not_declared`).
-/

namespace CommBindings

/-- The name that a declaration with the signature introduces. -/
def Signature.name : Signature → String
  | .alias name | .any name | .record name _ | .enumeration name _ => name

variable {comm : Comm}

end CommBindings
