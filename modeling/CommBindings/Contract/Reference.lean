import CommBindings.Contract.Basic
import CommBindings.Naming

set_option autoImplicit false

/-! # References

A reference names a node of a document by the keys on the way to it, as in
`#/components/schemas/item`. It stands for the type that is named after the last key.
-/

namespace CommBindings

/-- The parts of a text between slashes. -/
def splitSlashes : List Char → List (List Char)
  | [] => [[]]
  | c :: rest =>
    if c = '/' then [] :: splitSlashes rest
    else
      match splitSlashes rest with
      | [] => [[c]]
      | part :: parts => (c :: part) :: parts

/-- The segments of a pointer. -/
def segments (pointer : String) : List String := (splitSlashes pointer.toList).map String.ofList

/-- The last segment of a pointer. -/
def lastSegment (pointer : String) : String := (segments pointer).getLast?.getD ""

/-- The node at the end of a way through a value. The segment `#` goes nowhere. -/
def follow (value : Value) : List String → Option Value
  | [] => some value
  | segment :: rest =>
    if segment = "#" then follow value rest
    else
      match value with
      | .mapping entries _ =>
        match Mapping.get? entries segment with
        | some next => follow next rest
        | none => none
      | _ => none

/-- The node that a pointer names in a document. -/
def lookupPointer (pointer : String) (document : Value) : Option Value :=
  follow document (segments pointer)

/-- The documents of the contracts, as messages name them; none if no name is known. -/
def joinedSources (contracts : List Contract) : Option String :=
  let joined := ", ".intercalate ((contracts.map Contract.source).filter fun source => source ≠ "")
  if joined = "" then none else some joined

/-- The name of the type that a pointer refers to, if one of the contracts has the node. -/
def resolveReference (contracts : List Contract) (pointer : String) : Except Fault String :=
  if contracts.any fun contract => (lookupPointer pointer (.mapping contract.document none)).isSome then
    .ok (Naming.pascalCase (lastSegment pointer))
  else .error (.unresolvedReference pointer (joinedSources contracts))

end CommBindings
