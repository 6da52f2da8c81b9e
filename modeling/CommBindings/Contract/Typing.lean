import CommBindings.Contract.Reference

set_option autoImplicit false

/-! # Types and names of nodes

A node of a schema has a *context*: the keys that enclose it, innermost first. From it come the
names of the types that stand for objects and enumerations. The types of all other nodes are put
together from the tokens of a target's type table.
-/

namespace CommBindings

/-- The keys that enclose a node, innermost first. -/
abbrev Context := List Key

/-- A type of a target: a token of its table, a declared type, or a list. -/
inductive TypeExpr where
  | token (text : String)
  | named (name : String)
  | listOf (opening : String) (element : TypeExpr) (closing : String)
  deriving Repr, DecidableEq

namespace TypeExpr

/-- The text of a type. -/
def text : TypeExpr → String
  | token text => text
  | named name => name
  | listOf opening element closing => opening ++ element.text ++ closing

end TypeExpr

/-- The tokens of a target, by the word for what they stand for. -/
abbrev TypeTable := List (String × String)

namespace TypeTable

/-- The word under which a table has the token that opens a list. -/
def listOpening : String := "array-begin"

/-- The word under which a table has the token that closes a list. -/
def listClosing : String := "array-end"

/-- The word under which a table has the type of arbitrary values. -/
def anyObject : String := "object"

/-- The words that a table must have. -/
def words : List String := Kind.all.map Kind.word ++ [listOpening, listClosing, anyObject]

/-- The token for a word that the table must have. -/
def require (table : TypeTable) (word : String) : Except Fault String :=
  match table.lookup word with
  | some token => .ok token
  | none => .error (.tokenMissing word)

/-- The token for a scalar type of a value under the given key. -/
def scalar (table : TypeTable) (key : Key) (kind : Kind) : Except Fault TypeExpr :=
  match table.lookup kind.word with
  | some token => .ok (.token token)
  | none => do
    let shown ← key.label
    .error (.unmappedType kind.word ("value '" ++ shown ++ "'") none)

/-- Checks that a table with the given words is complete. -/
def check (name : String) (given : List String) : Except Fault Unit :=
  let missing := words.filter fun word => !given.contains word
  if missing.isEmpty then .ok ()
  else .error (.tableIncomplete name (missing.mergeSort fun a b => decide (a ≤ b)))

end TypeTable

namespace Scalar

/-- The name in Pascal case of a type that is named after the key. -/
def typeName (key : Key) : Except Fault String :=
  match key with
  | .text name => .ok (Naming.pascalCase name)
  | other => .error (.unnameable other)

end Scalar

/-- The type of a schema under a key. Enumerations are plain strings here. -/
def deriveType (contracts : List Contract) (table : TypeTable) (key : Key) :
    Schema → Except Fault TypeExpr
  | .array items _ => do
    let opening ← table.require TypeTable.listOpening
    let element ← deriveType contracts table key items
    let closing ← table.require TypeTable.listClosing
    pure (.listOf opening element closing)
  | .reference pointer _ => (resolveReference contracts pointer).map .named
  | .object node =>
    match node.name with
    | some name => .ok (.named (Naming.pascalCase name))
    | none => key.typeName.map .named
  | .enumeration _ _ => table.scalar key .string
  | .primitive kind _ => table.scalar key kind

/-- The key that names an object: its own name, or the innermost key of its context. -/
def objectKey (context : Context) (node : ObjectSchema) : Except Fault Key :=
  match node.name, context with
  | some name, _ => .ok (.text name)
  | none, key :: _ => .ok key
  | none, [] => .error (.violation .objectIsNamed .null none)

/-- The name of the type that stands for an object. -/
def objectName (context : Context) (node : ObjectSchema) : Except Fault String := do
  (← objectKey context node).typeName

/-- The name of the type that stands for an enumeration: the name of its owner, and its own. -/
def enumName : Context → Except Fault String
  | key :: owner :: _ => do
    let first ← owner.typeName
    let second ← key.typeName
    pure (first ++ second)
  | [key] => key.typeName
  | [] => .error (.violation .enumerationIsNamed .null none)

/-- The context of the items of an array. It is that of the array, unless this is a single key:
then the items have a key of their own, so that their type does not take the name of the array. -/
def itemsContext : Context → Except Fault Context
  | [key] => do
    let shown ← key.label
    pure [.text (shown ++ "_item")]
  | context => .ok context

/-- The context of the result of a method. -/
def resultContext (method : String) : Context := [.text (method ++ "_result")]

/-- The context of a parameter of a method. -/
def paramContext (method param : String) : Context := [.text param, .text method]

/-- The type of a field, a parameter or a result in its context. -/
def fieldType (contracts : List Contract) (table : TypeTable) (context : Context) :
    Schema → Except Fault TypeExpr
  | .enumeration _ _ => (enumName context).map .named
  | .array items _ => do
    let opening ← table.require TypeTable.listOpening
    let inner ← itemsContext context
    let element ← fieldType contracts table inner items
    let closing ← table.require TypeTable.listClosing
    pure (.listOf opening element closing)
  | schema =>
    match context with
    | key :: _ => deriveType contracts table key schema
    | [] => .error .emptyContext

/-- What is said of an object: its own description, or where it stands. -/
def describeObject (context : Context) (node : ObjectSchema) : Except Fault String :=
  match node.description, context with
  | some description, _ => .ok description
  | none, key :: owner :: _ => do
    let first ← key.typeName
    let second ← owner.typeName
    pure (first ++ " in " ++ second)
  | none, _ =>
    let field : Key := match node.name, context with
      | some name, _ => .text name
      | none, key :: _ => key
      | none, [] => .null
    violate .objectIsDescribed field none

/-- What is said of an enumeration: where it stands. -/
def describeEnum : Context → Except Fault String
  | key :: owner :: _ => do
    let first ← key.typeName
    let second ← owner.typeName
    pure ("Possible values for " ++ first ++ " in " ++ second)
  | [key] => do
    let name ← key.typeName
    pure ("Possible values for " ++ name)
  | [] => .error .emptyContext

end CommBindings
