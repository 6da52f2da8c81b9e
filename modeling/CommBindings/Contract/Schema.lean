import CommBindings.Fault
import CommBindings.Text.Blank

set_option autoImplicit false

/-! # Schemas

The shapes that a node of a contract's schema can have, and how a raw node is read as one of them.
Every later pass works on these shapes and not on raw nodes.
-/

namespace CommBindings

/-- The scalar types. -/
inductive Kind where
  | boolean
  | integer
  | number
  | string
  | null
  deriving Repr, DecidableEq

/-- The word for a scalar type. -/
def Kind.word : Kind → String
  | boolean => "boolean"
  | integer => "integer"
  | number => "number"
  | string => "string"
  | null => "null"

/-- The scalar types. -/
def Kind.all : List Kind := [.boolean, .integer, .number, .string, .null]

/-- The scalar type that a word names. -/
def Kind.ofWord? (word : String) : Option Kind := Kind.all.find? fun kind => kind.word = word

mutual

/-- A structured value with named properties. `required` is sorted and without repetitions; it may
hold names of no property. -/
structure ObjectSchema where
  name : Option String
  description : Option String
  properties : List (Key × Schema)
  required : List String
  additional : Bool

/-- A node of a schema. -/
inductive Schema where
  | primitive (kind : Kind) (description : Option String)
  | array (items : Schema) (description : Option String)
  | object (node : ObjectSchema)
  | enumeration (values : List String) (description : Option String)
  | reference (pointer : String) (description : Option String)

end

namespace ObjectSchema

/-- Whether the object stands for an arbitrary value. -/
def isAny (node : ObjectSchema) : Bool := node.properties.isEmpty && node.additional

/-- Whether the property must be there. -/
def isRequired (node : ObjectSchema) (key : Key) : Bool :=
  match key with
  | .text name => node.required.contains name
  | _ => false

end ObjectSchema

namespace Schema

/-- The node's own description. -/
def description : Schema → Option String
  | primitive _ description | array _ description | enumeration _ description
  | reference _ description => description
  | object node => node.description

end Schema

/-- The text under a key if it says anything. -/
def Mapping.prose? (m : Mapping) (key : String) : Option String :=
  match m.get? key with
  | some (.scalar (.text text)) => if Text.isBlankText text.toList then none else some text
  | _ => none

theorem sizeOf_lookupEntry_lt {m : Mapping} {key : Key} {value : Value}
    (h : lookupEntry m key = some value) : sizeOf value < sizeOf m := by
  induction m with
  | nil => simp [lookupEntry] at h
  | cons entry rest ih =>
    obtain ⟨k, v⟩ := entry
    simp only [lookupEntry, List.find?_cons] at h
    split at h
    · simp only [Option.map_some, Option.some.injEq] at h
      subst h
      simp only [List.cons.sizeOf_spec, Prod.mk.sizeOf_spec]
      omega
    · have := ih (by simpa [lookupEntry] using h)
      simp only [List.cons.sizeOf_spec]
      omega

theorem sizeOf_get?_lt {m : Mapping} {key : String} {value : Value}
    (h : m.get? key = some value) : sizeOf value < sizeOf m :=
  sizeOf_lookupEntry_lt h

theorem sizeOf_entries?_lt {value : Value} {m : Mapping} (h : value.entries? = some m) :
    sizeOf m < sizeOf value := by
  cases value <;> simp only [Value.entries?, Option.some.injEq, reduceCtorEq] at h
  subst h
  simp only [Value.mapping.sizeOf_spec]
  omega

namespace Schema

/-- The texts in sorted order, each once. -/
def sortedTexts (texts : List String) : List String :=
  (texts.mergeSort fun a b => decide (a ≤ b)).eraseDups

/-- The entries of a mapping where none, or something void, means no entries; `none` is something
else. -/
def optionalEntries? : Option Value → Option Mapping
  | none => some []
  | some (.mapping entries _) => some entries
  | some value => if value.isVoid then some [] else none

/-- The items of a list where none, or something void, means no items; `none` is something
else. -/
def optionalItems? : Option Value → Option (List Value)
  | none => some []
  | some (.list items _) => some items
  | some value => if value.isVoid then some [] else none

theorem sizeOf_optionalEntries?_le {value : Option Value} {m : Mapping}
    (h : optionalEntries? value = some m) : m = [] ∨ ∃ v, value = some v ∧ sizeOf m < sizeOf v := by
  unfold optionalEntries? at h
  split at h
  · simp_all
  · right
    simp only [Option.some.injEq] at h
    subst h
    exact ⟨_, rfl, by simp only [Value.mapping.sizeOf_spec]; omega⟩
  · split at h <;> simp_all

/-- The name that an object gives itself: a text that is not empty, or none. -/
def ownName? (m : Mapping) : Option (Option String) :=
  match m.get? "name" with
  | none => some none
  | some (.scalar .null) => some none
  | some (.scalar (.text name)) => if name = "" then none else some (some name)
  | some _ => none

/-- The values of an enumeration. -/
def readValues (location : Key) (source : Option String) (values : Value) :
    Except Fault (List String) :=
  match values with
  | .list (first :: rest) _ =>
    match (first :: rest).mapM Value.asText? with
    | some texts => .ok texts
    | none => violate .enumerationHasTexts location source
  | _ => violate .enumerationIsList location source

/-- The scalar type that a raw node asks for. -/
def readKind (location : Key) (source : Option String) (type : Option Value) :
    Except Fault Kind :=
  match type with
  | none | some (.scalar .null) => violate .schemaHasKind location source
  | some value =>
    match value.asText?.bind Kind.ofWord? with
    | some kind => .ok kind
    | none => do
      let shown ← value.label
      let place ← location.label
      .error (.unmappedType shown ("schema '" ++ place ++ "'") source)

/-- Whether a raw node asks for a shape by name. -/
def asksFor (type : Option Value) (word : String) : Bool :=
  match type with
  | some (.scalar (.text text)) => text = word
  | _ => false

mutual

/-- Reads a raw node. `location` says where it stands and `source` which document it is from. -/
def read (source : Option String) (location : Key) (raw : Value) : Except Fault Schema :=
  match _hm : raw.entries? with
  | none => violate .schemaIsMapping location source
  | some m =>
    let type := m.get? "type"
    let description := m.prose? "description"
    if asksFor type "array" then
      match _hi : m.get? "items" with
      | none => violate .arrayHasItems location source
      | some items => do
        let place ← location.label
        let itemSchema ← read source (.text (place ++ "[]")) items
        pure (.array itemSchema description)
    else
      match m.get? "$ref" with
      | some pointer =>
        match pointer with
        | .scalar (.text text) =>
          if text = "" then violate .referenceIsText location source
          else pure (.reference text description)
        | _ => violate .referenceIsText location source
      | none =>
        match m.get? "enum" with
        | some values => do
          let texts ← readValues location source values
          pure (.enumeration texts description)
        | none =>
          if asksFor type "object" then
            match ownName? m with
            | none => violate .objectNameIsText location source
            | some name =>
              match _hp : optionalEntries? (m.get? "properties") with
              | none => violate .propertiesAreMapping location source
              | some rawProperties => do
                let owner := match name with
                  | some text => .text text
                  | none => location
                let properties ← readProperties source owner rawProperties
                match optionalItems? (m.get? "required") with
                | none => violate .requiredIsList location source
                | some rawRequired =>
                  let additional := match m.get? "additionalProperties" with
                    | some (.scalar (.bool b)) => b
                    | _ => false
                  if properties.isEmpty && !additional then
                    violate .objectHasProperties owner source
                  else do
                    let required ← rawRequired.mapM Value.label
                    pure (.object ⟨name, description, properties, sortedTexts required,
                      additional⟩)
          else do
            let kind ← readKind location source type
            pure (.primitive kind description)
termination_by sizeOf raw
decreasing_by
  · have := sizeOf_entries?_lt _hm
    have := sizeOf_get?_lt _hi
    omega
  · have := sizeOf_entries?_lt _hm
    rcases sizeOf_optionalEntries?_le _hp with h | ⟨v, hv, h⟩
    · subst h
      have : 1 ≤ sizeOf m := by
        cases m <;> simp only [List.nil.sizeOf_spec, List.cons.sizeOf_spec] <;> omega
      simp only [List.nil.sizeOf_spec]
      omega
    · have := sizeOf_get?_lt hv
      omega

/-- Reads the properties of an object. Each must have a description of its own. -/
def readProperties (source : Option String) (owner : Key) (raw : List (Key × Value)) :
    Except Fault (List (Key × Schema)) :=
  match raw with
  | [] => .ok []
  | (key, value) :: rest => do
    let place := (← owner.label) ++ "." ++ (← key.label)
    if (value.entries?.bind fun m => m.prose? "description").isNone then
      violate .propertyIsDescribed (.text place) source
    else do
      let schema ← read source (.text place) value
      let others ← readProperties source owner rest
      pure ((key, schema) :: others)
termination_by sizeOf raw

end

end Schema

end CommBindings
