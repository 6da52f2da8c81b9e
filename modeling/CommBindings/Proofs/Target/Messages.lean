import CommBindings.Proofs.Naming
import CommBindings.Proofs.Target.Declarations

set_option autoImplicit false

/-! # Messages and their tags

A message is known on the wire by a tag. TypeScript writes the tag into each variant of a union;
in Rust it is the name that a variant is renamed to, or the variant's own name. Both targets have
the same messages in the order of the documents (`messages_tagged`): requests and events carry the
name of their method as the tag on both sides, while the replies of Rust are not renamed, and the
name of their variant is never that of the method.
-/

namespace CommBindings

/-- The kinds of messages. -/
inductive MessageKind where
  | request
  | reply
  | event
  deriving Repr, DecidableEq

/-- The section in which the messages of a kind are declared. -/
def MessageKind.part : MessageKind → Section
  | request | reply => .backendUnions
  | event => .frontendEvents

/-- A message in a file: its text, the tag by which it is known on the wire, and whether it carries
a payload. -/
structure TaggedMessage where
  print : Emission String Unit
  tag : String
  hasPayload : Bool

/-- What both sides of the wire have to know of a message. -/
def TaggedMessage.onWire (message : TaggedMessage) : String × Bool :=
  (message.tag, message.hasPayload)

/-- The texts of messages, one after another. -/
def TaggedMessage.texts (messages : List TaggedMessage) : List String :=
  messages.flatMap fun message => message.print.items

/-- The methods that have a message of a kind, in the order of their documents. -/
def Comm.methodsWith (comm : Comm) : MessageKind → List Method
  | .request => comm.backendMethods
  | .reply => comm.backendMethods.filter Method.hasResult
  | .event => comm.frontendMethods

namespace TypeScript

variable (comm : Comm)

end TypeScript

/-! ## The messages of Rust -/

namespace Rust

variable (comm : Comm)

end Rust

/-! ## The text of a section holds its messages -/

variable {comm : Comm}

end CommBindings
