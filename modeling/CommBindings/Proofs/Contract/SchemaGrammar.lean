import CommBindings.Proofs.Contract.Reading
import CommBindings.Proofs.Contract.SortedTexts

set_option autoImplicit false

/-! # The grammar of schemas

Which raw nodes are schemas (`Schema.InGrammar`), and which schema says what a raw node says
(`Schema.Mirrors`). Both are told by the entries of mappings alone, without a look at how they are
read. Reading comes to a schema exactly for the nodes in the grammar, and the schema mirrors the node
(`read_grammar`).
-/

namespace CommBindings

/-! ## Entries of mappings -/

/-- A text that is not blank stands under the key. -/
def Mapping.Says (m : Mapping) (key text : String) : Prop :=
  m.get? key = some (.text text) ∧ Text.isBlankText text.toList = false

/-- What is kept of an optional text: the text that stands under the key, if it is not blank. -/
def Mapping.Keeps (m : Mapping) (key : String) (kept : Option String) : Prop :=
  ∀ text, kept = some text ↔ m.Says key text

/-- What entries there are where they are optional: none if they are left out or something void stands
for them, and else those of a mapping. -/
inductive OptionalEntries : Option Value → Mapping → Prop where
  | absent : OptionalEntries none []
  | void {value : Value} (h : value.isVoid = true) : OptionalEntries (some value) []
  | given {entries : Mapping} {mark : Option Mark} :
      OptionalEntries (some (.mapping entries mark)) entries

/-- What items there are where they are optional: none if they are left out or something void stands
for them, and else those of a list. -/
inductive OptionalItems : Option Value → List Value → Prop where
  | absent : OptionalItems none []
  | void {value : Value} (h : value.isVoid = true) : OptionalItems (some value) []
  | given {items : List Value} {mark : Option Mark} : OptionalItems (some (.list items mark)) items

theorem some_text_ne {a b : String} (h : a ≠ b) : some (Value.text a) ≠ some (.text b) := by
  rintro ⟨⟩
  exact h rfl

theorem says_iff_prose {m : Mapping} {key text : String} :
    m.Says key text ↔ m.prose? key = some text := by
  unfold Mapping.Says Mapping.prose?
  split
  · next found hFound =>
    rw [hFound, Value.text, Option.some.injEq, Value.scalar.injEq, Scalar.text.injEq]
    by_cases hBlank : Text.isBlankText found.toList = true
    · rw [if_pos hBlank]
      constructor
      · rintro ⟨rfl, hText⟩
        rw [hBlank] at hText
        cases hText
      · exact nofun
    · rw [if_neg hBlank, Option.some.injEq]
      constructor
      · exact fun h => h.1
      · rintro rfl
        exact ⟨rfl, Bool.not_eq_true _ ▸ hBlank⟩
  · next hOther =>
    constructor
    · intro h
      exact absurd h.1 (hOther text)
    · exact nofun

theorem keeps_prose (m : Mapping) (key : String) : m.Keeps key (m.prose? key) :=
  fun _ => says_iff_prose.symm

theorem optionalEntries_iff {value : Option Value} {entries : Mapping} :
    OptionalEntries value entries ↔ Schema.optionalEntries? value = some entries := by
  constructor
  · intro h
    cases h with
    | absent => rfl
    | given => rfl
    | void hVoid =>
        unfold Schema.optionalEntries?
        split
        · rfl
        · next found mark hFound =>
          -- a mapping that counts as absent has no entries
          cases hFound
          rw [List.isEmpty_iff.mp hVoid]
        · next other _ hFound =>
          cases hFound
          rw [if_pos hVoid]
  · intro h
    unfold Schema.optionalEntries? at h
    split at h
    · cases h
      exact .absent
    · cases h
      exact .given
    · split at h
      · next hVoid =>
        cases h
        exact .void hVoid
      · cases h

theorem optionalItems_iff {value : Option Value} {items : List Value} :
    OptionalItems value items ↔ Schema.optionalItems? value = some items := by
  constructor
  · intro h
    cases h with
    | absent => rfl
    | given => rfl
    | void hVoid =>
        unfold Schema.optionalItems?
        split
        · rfl
        · next found mark hFound =>
          cases hFound
          rw [List.isEmpty_iff.mp hVoid]
        · next other _ hFound =>
          cases hFound
          rw [if_pos hVoid]
  · intro h
    unfold Schema.optionalItems? at h
    split at h
    · cases h
      exact .absent
    · cases h
      exact .given
    · split at h
      · next hVoid =>
        cases h
        exact .void hVoid
      · cases h

theorem label_of_isShort {key : Key} (h : key.isShort = true) :
    ∃ shown, key.label = .ok shown := by
  obtain ⟨shown, hShown⟩ := Option.isSome_iff_exists.mp (Value.display_of_isShortScalar h)
  exact ⟨shown, by rw [Scalar.label, hShown]⟩

theorem label_total {value : Value} (h : value.isShort = true) : ∃ text, value.label = .ok text := by
  obtain ⟨text, hText⟩ := Option.isSome_iff_exists.mp (Value.display_of_isShort h)
  exact ⟨text, by rw [Value.label, hText]⟩

theorem valueLabel_iff {value : Value} {text : String} :
    value.label = .ok text ↔ value.display? = some text := by
  unfold Value.label
  split
  · next shown hShown => simp [hShown]
  · next hNone => simp [hNone]

namespace Schema

/-! ## The grammar -/

/-- The shapes that raw nodes ask for. -/
inductive Shape where
  | array
  | reference
  | enumeration
  | object
  | scalar
  deriving DecidableEq

/-- The shape that a mapping asks for. The type `array` goes before all else; then it counts whether
there is a `$ref`, then whether there is an `enum`, and then the type. -/
inductive HasShape (m : Mapping) : Shape → Prop where
  | array (hType : m.get? "type" = some (.text "array")) : HasShape m .array
  | reference (hType : m.get? "type" ≠ some (.text "array")) (hReference : m.get? "$ref" ≠ none) :
      HasShape m .reference
  | enumeration (hType : m.get? "type" ≠ some (.text "array")) (hReference : m.get? "$ref" = none)
      (hEnum : m.get? "enum" ≠ none) : HasShape m .enumeration
  | object (hReference : m.get? "$ref" = none) (hEnum : m.get? "enum" = none)
      (hType : m.get? "type" = some (.text "object")) : HasShape m .object
  | scalar (hArray : m.get? "type" ≠ some (.text "array")) (hReference : m.get? "$ref" = none)
      (hEnum : m.get? "enum" = none) (hObject : m.get? "type" ≠ some (.text "object")) :
      HasShape m .scalar

/-- The node is a mapping with a description that is not blank. -/
def IsDescribed (raw : Value) : Prop :=
  ∃ (m : Mapping) (mark : Option Mark) (text : String), raw = .mapping m mark ∧ m.Says "description" text

/-- The name that an object may give itself is left out, is `null`, or is a text that is not empty. -/
def MayBeNamed (m : Mapping) : Prop :=
  m.get? "name" = none ∨ m.get? "name" = some .null ∨
    ∃ name, m.get? "name" = some (.text name) ∧ name ≠ ""

/-- Further properties are allowed: the entry for them is literally `true`. -/
def IsOpen (m : Mapping) : Prop := m.get? "additionalProperties" = some (.scalar (.bool true))

/-- The raw nodes that are schemas. -/
inductive InGrammar : Value → Prop where
  | array {m : Mapping} {mark : Option Mark} {items : Value} (hShape : HasShape m .array)
      (hItems : m.get? "items" = some items) (hInside : InGrammar items) :
      InGrammar (.mapping m mark)
  | reference {m : Mapping} {mark : Option Mark} {pointer : String}
      (hShape : HasShape m .reference) (hPointer : m.get? "$ref" = some (.text pointer))
      (hText : pointer ≠ "") : InGrammar (.mapping m mark)
  | enumeration {m : Mapping} {mark inner : Option Mark} {values : List String}
      (hShape : HasShape m .enumeration)
      (hValues : m.get? "enum" = some (.list (values.map .text) inner)) (hSome : values ≠ []) :
      InGrammar (.mapping m mark)
  | object {m entries : Mapping} {mark : Option Mark} {required : List Value}
      (hShape : HasShape m .object) (hName : MayBeNamed m)
      (hEntries : OptionalEntries (m.get? "properties") entries)
      (hDescribed : ∀ entry ∈ entries, IsDescribed entry.2)
      (hInside : ∀ entry ∈ entries, InGrammar entry.2)
      (hRequired : OptionalItems (m.get? "required") required)
      (hSubstance : entries ≠ [] ∨ IsOpen m) : InGrammar (.mapping m mark)
  | scalar {m : Mapping} {mark : Option Mark} {kind : Kind} (hShape : HasShape m .scalar)
      (hKind : m.get? "type" = some (.text kind.word)) : InGrammar (.mapping m mark)

/-- The schema says what the raw node says, at every depth: it has the properties of the node with
their keys and the values of the node, in their order, the pointer, the name and the texts of all that
is required, each once; and descriptions are kept if they are not blank. -/
inductive Mirrors : Value → Schema → Prop where
  | array {m : Mapping} {mark : Option Mark} {items : Value} {part : Schema}
      {description : Option String} (hShape : HasShape m .array)
      (hItems : m.get? "items" = some items) (hInside : Mirrors items part)
      (hDescription : m.Keeps "description" description) :
      Mirrors (.mapping m mark) (.array part description)
  | reference {m : Mapping} {mark : Option Mark} {pointer : String} {description : Option String}
      (hShape : HasShape m .reference) (hPointer : m.get? "$ref" = some (.text pointer))
      (hDescription : m.Keeps "description" description) :
      Mirrors (.mapping m mark) (.reference pointer description)
  | enumeration {m : Mapping} {mark inner : Option Mark} {values : List String}
      {description : Option String} (hShape : HasShape m .enumeration)
      (hValues : m.get? "enum" = some (.list (values.map .text) inner))
      (hDescription : m.Keeps "description" description) :
      Mirrors (.mapping m mark) (.enumeration values description)
  | object {m entries : Mapping} {mark : Option Mark} {required : List Value} {node : ObjectSchema}
      (hShape : HasShape m .object)
      (hName : ∀ name, node.name = some name ↔ m.get? "name" = some (.text name))
      (hDescription : m.Keeps "description" node.description)
      (hEntries : OptionalEntries (m.get? "properties") entries)
      (hKeys : node.properties.map Prod.fst = entries.map Prod.fst)
      (hInside : ∀ pair ∈ entries.zip node.properties, Mirrors pair.1.2 pair.2.2)
      (hItems : OptionalItems (m.get? "required") required)
      (hRequired : ∀ text, text ∈ node.required ↔
        ∃ item ∈ required, item.display? = some text)
      (hOnce : node.required.Nodup) (hOpen : node.additional = true ↔ IsOpen m) :
      Mirrors (.mapping m mark) (.object node)
  | scalar {m : Mapping} {mark : Option Mark} {kind : Kind} {description : Option String}
      (hShape : HasShape m .scalar) (hKind : m.get? "type" = some (.text kind.word))
      (hDescription : m.Keeps "description" description) :
      Mirrors (.mapping m mark) (.primitive kind description)

/-- Every mapping asks for a shape. -/
theorem hasShape_total (m : Mapping) : ∃ shape, HasShape m shape := by
  by_cases hArray : m.get? "type" = some (.text "array")
  · exact ⟨_, .array hArray⟩
  · by_cases hReference : m.get? "$ref" = none
    · by_cases hEnum : m.get? "enum" = none
      · by_cases hObject : m.get? "type" = some (.text "object")
        · exact ⟨_, .object hReference hEnum hObject⟩
        · exact ⟨_, .scalar hArray hReference hEnum hObject⟩
      · exact ⟨_, .enumeration hArray hReference hEnum⟩
    · exact ⟨_, .reference hArray hReference⟩

theorem asksFor_iff {type : Option Value} {word : String} :
    asksFor type word = true ↔ type = some (.text word) := by
  unfold asksFor
  split
  · next text => simp [Value.text]
  · next hOther =>
    constructor
    · exact nofun
    · intro h
      exact absurd h (hOther word)

theorem isDescribed_iff {raw : Value} :
    IsDescribed raw ↔ (raw.entries?.bind fun m => m.prose? "description").isSome = true := by
  constructor
  · rintro ⟨m, mark, text, rfl, hSays⟩
    rw [Value.entries?, Option.bind_some, says_iff_prose.mp hSays]
    rfl
  · intro h
    obtain ⟨text, hText⟩ := Option.isSome_iff_exists.mp h
    obtain ⟨m, hEntries, hProse⟩ := Option.bind_eq_some_iff.mp hText
    obtain ⟨mark, rfl⟩ := Value.entries?_eq_some_iff.mp hEntries
    exact ⟨m, mark, text, rfl, says_iff_prose.mpr hProse⟩

/-! ## Reading by shape -/

/-- Where the parts of an object stand: under its own name, or where the object stands. -/
def ownerOf (location : Key) : Option String → Key
  | some name => .text name
  | none => location

/-- Whether further properties are allowed, as it is read. -/
def readOpen (m : Mapping) : Bool :=
  match m.get? "additionalProperties" with
  | some (.scalar (.bool b)) => b
  | _ => false

theorem readOpen_iff {m : Mapping} : readOpen m = true ↔ IsOpen m := by
  unfold readOpen IsOpen
  split
  · next b hSome => simp [hSome]
  · next hOther =>
    constructor
    · intro h
      cases h
    · intro h
      exact absurd h (hOther true)

section

variable {source : Option String} {location : Key} {m : Mapping} {mark : Option Mark}
  {schema : Schema}

theorem read_array_iff (h : HasShape m .array) :
    read source location (.mapping m mark) = .ok schema ↔
      ∃ items place part, m.get? "items" = some items ∧ location.label = .ok place ∧
        read source (.text (place ++ "[]")) items = .ok part ∧
        schema = .array part (m.prose? "description") := by
  cases h with
  | array hType =>
    rw [read]
    simp only [Value.entries?]
    rw [if_pos (asksFor_iff.mpr hType)]
    split
    · next hItems =>
      constructor
      · exact fun hRead => absurd hRead violate_ne_ok
      · rintro ⟨items, _, _, hSome, -⟩
        rw [hItems] at hSome
        cases hSome
    · next items hItems =>
      constructor
      · intro hRead
        obtain ⟨place, hPlace, hRead⟩ := bind_eq_ok.mp hRead
        obtain ⟨part, hPart, hRead⟩ := bind_eq_ok.mp hRead
        cases hRead
        exact ⟨items, place, part, hItems, hPlace, hPart, rfl⟩
      · rintro ⟨_, place, part, hSome, hPlace, hPart, rfl⟩
        rw [hItems] at hSome
        cases hSome
        exact bind_eq_ok.mpr ⟨place, hPlace, bind_eq_ok.mpr ⟨part, hPart, rfl⟩⟩

theorem read_reference_iff (h : HasShape m .reference) :
    read source location (.mapping m mark) = .ok schema ↔
      ∃ pointer, m.get? "$ref" = some (.text pointer) ∧ pointer ≠ "" ∧
        schema = .reference pointer (m.prose? "description") := by
  cases h with
  | reference hType hReference =>
    obtain ⟨value, hValue⟩ := Option.ne_none_iff_exists'.mp hReference
    rw [read]
    simp only [Value.entries?]
    rw [if_neg (fun hArray => hType (asksFor_iff.mp hArray)), hValue]
    simp only
    split
    · next text =>
      constructor
      · intro hRead
        obtain ⟨hText, hRead⟩ := unless_violated hRead
        cases hRead
        exact ⟨text, rfl, hText, rfl⟩
      · rintro ⟨_, hSome, hText, rfl⟩
        cases hSome
        rw [if_neg hText]
        rfl
    · next hOther =>
      constructor
      · exact fun hRead => absurd hRead violate_ne_ok
      · rintro ⟨text, hSome, -⟩
        exact absurd (Option.some.inj hSome) (hOther text)

theorem asText?_eq_some_iff {value : Value} {text : String} :
    value.asText? = some text ↔ value = .text text := by
  unfold Value.asText?
  split
  · simp [Value.text]
  · next hOther =>
    constructor
    · intro h
      cases h
    · rintro rfl
      exact absurd rfl (hOther text)

theorem mapM_asText? {values : List Value} {texts : List String} :
    values.mapM Value.asText? = some texts ↔ values = texts.map .text := by
  induction values generalizing texts with
  | nil => cases texts <;> simp
  | cons value rest ih =>
      rw [List.mapM_cons]
      constructor
      · intro h
        obtain ⟨first, hFirst, h⟩ := Option.bind_eq_some_iff.mp h
        obtain ⟨others, hOthers, h⟩ := Option.bind_eq_some_iff.mp h
        cases h
        rw [List.map_cons, asText?_eq_some_iff.mp hFirst, ih.mp hOthers]
      · intro h
        cases texts with
        | nil => cases h
        | cons text others =>
            obtain ⟨rfl, hRest⟩ := List.cons.inj h
            exact Option.bind_eq_some_iff.mpr ⟨text, rfl,
              Option.bind_eq_some_iff.mpr ⟨others, ih.mpr hRest, rfl⟩⟩

theorem readValues_iff {values : Value} {texts : List String} :
    readValues location source values = .ok texts ↔
      texts ≠ [] ∧ ∃ inner, values = .list (texts.map .text) inner := by
  unfold readValues
  split
  · next first rest inner =>
    split
    · next found hFound =>
      have hAll := mapM_asText?.mp hFound
      constructor
      · intro h
        cases h
        refine ⟨?_, inner, by rw [hAll]⟩
        rintro rfl
        cases hAll
      · rintro ⟨-, other, hSame⟩
        -- the texts are told by the values
        obtain ⟨hSame, -⟩ := Value.list.inj hSame
        have hTexts := mapM_asText?.mpr hSame
        rw [hFound] at hTexts
        rw [Option.some.inj hTexts]
    · next hNone =>
      constructor
      · exact fun h => absurd h violate_ne_ok
      · rintro ⟨-, other, hSame⟩
        obtain ⟨hSame, -⟩ := Value.list.inj hSame
        rw [mapM_asText?.mpr hSame] at hNone
        cases hNone
  · next hOther =>
    constructor
    · exact fun h => absurd h violate_ne_ok
    · rintro ⟨hSome, inner, rfl⟩
      cases texts with
      | nil => exact absurd rfl hSome
      | cons first rest => exact absurd rfl (hOther _ _ _)

theorem read_enumeration_iff (h : HasShape m .enumeration) :
    read source location (.mapping m mark) = .ok schema ↔
      ∃ values inner, m.get? "enum" = some (.list (values.map .text) inner) ∧ values ≠ [] ∧
        schema = .enumeration values (m.prose? "description") := by
  cases h with
  | enumeration hType hReference hEnum =>
    obtain ⟨value, hValue⟩ := Option.ne_none_iff_exists'.mp hEnum
    rw [read]
    simp only [Value.entries?]
    rw [if_neg (fun hArray => hType (asksFor_iff.mp hArray)), hReference, hValue]
    constructor
    · intro hRead
      obtain ⟨texts, hTexts, hRead⟩ := bind_eq_ok.mp hRead
      cases hRead
      obtain ⟨hSome, inner, rfl⟩ := readValues_iff.mp hTexts
      exact ⟨texts, inner, rfl, hSome, rfl⟩
    · rintro ⟨texts, inner, hTexts, hSome, rfl⟩
      cases hTexts
      exact bind_eq_ok.mpr ⟨texts, readValues_iff.mpr ⟨hSome, inner, rfl⟩, rfl⟩

theorem ofWord?_eq_some_iff {word : String} {kind : Kind} :
    Kind.ofWord? word = some kind ↔ word = kind.word := by
  constructor
  · intro h
    have hWord := List.find?_some h
    exact (of_decide_eq_true hWord).symm
  · rintro rfl
    cases kind <;> decide

theorem readKind_iff {type : Option Value} {kind : Kind} :
    readKind location source type = .ok kind ↔ type = some (.text kind.word) := by
  unfold readKind
  split
  · constructor
    · exact fun h => absurd h violate_ne_ok
    · exact nofun
  · constructor
    · exact fun h => absurd h violate_ne_ok
    · exact nofun
  · next value _ =>
    split
    · next found hFound =>
      obtain ⟨word, hWord, hKind⟩ := Option.bind_eq_some_iff.mp hFound
      rw [asText?_eq_some_iff.mp hWord, ofWord?_eq_some_iff.mp hKind]
      constructor
      · intro h
        cases h
        rfl
      · intro h
        have hSame : found.word = kind.word := by simpa [Value.text] using h
        rw [← Option.some.inj ((ofWord?_eq_some_iff.mpr rfl).symm.trans
          (ofWord?_eq_some_iff.mpr hSame))]
    · next hNone =>
      constructor
      · intro h
        obtain ⟨shown, -, h⟩ := bind_eq_ok.mp h
        obtain ⟨place, -, h⟩ := bind_eq_ok.mp h
        cases h
      · intro h
        rw [Option.some.inj h, asText?_eq_some_iff.mpr rfl, Option.bind_some,
          ofWord?_eq_some_iff.mpr rfl] at hNone
        cases hNone

theorem read_scalar_iff (h : HasShape m .scalar) :
    read source location (.mapping m mark) = .ok schema ↔
      ∃ kind, m.get? "type" = some (.text (Kind.word kind)) ∧
        schema = .primitive kind (m.prose? "description") := by
  cases h with
  | scalar hArray hReference hEnum hObject =>
    rw [read]
    simp only [Value.entries?]
    rw [if_neg (fun hAsked => hArray (asksFor_iff.mp hAsked)), hReference, hEnum]
    simp only
    rw [if_neg (fun hAsked => hObject (asksFor_iff.mp hAsked))]
    constructor
    · intro hRead
      obtain ⟨kind, hKind, hRead⟩ := bind_eq_ok.mp hRead
      cases hRead
      exact ⟨kind, readKind_iff.mp hKind, rfl⟩
    · rintro ⟨kind, hKind, rfl⟩
      exact bind_eq_ok.mpr ⟨kind, readKind_iff.mpr hKind, rfl⟩

theorem isSubstantial_iff {properties : List (Key × Schema)} :
    ¬ (properties.isEmpty && !readOpen m) = true ↔ properties ≠ [] ∨ IsOpen m := by
  rw [← readOpen_iff, Bool.and_eq_true, not_and_or, List.isEmpty_iff, Bool.not_eq_true',
    Bool.not_eq_false]

theorem read_object_iff (h : HasShape m .object) :
    read source location (.mapping m mark) = .ok schema ↔
      ∃ name entries properties required texts,
        ownName? m = some name ∧ OptionalEntries (m.get? "properties") entries ∧
        readProperties source (ownerOf location name) entries = .ok properties ∧
        OptionalItems (m.get? "required") required ∧ (properties ≠ [] ∨ IsOpen m) ∧
        required.mapM Value.label = .ok texts ∧
        schema = .object ⟨name, m.prose? "description", properties, sortedTexts texts,
          readOpen m⟩ := by
  cases h with
  | object hReference hEnum hType =>
    have hArray : ¬ asksFor (m.get? "type") "array" = true := by
      rw [hType]
      decide
    rw [read]
    simp only [Value.entries?]
    rw [if_neg hArray, hReference, hEnum]
    simp only
    rw [if_pos (asksFor_iff.mpr hType)]
    split
    · next hName =>
      constructor
      · exact fun hRead => absurd hRead violate_ne_ok
      · rintro ⟨_, _, _, _, _, hSome, -⟩
        rw [hName] at hSome
        cases hSome
    · next name hName =>
      split
      · next hEntries =>
        constructor
        · exact fun hRead => absurd hRead violate_ne_ok
        · rintro ⟨_, _, _, _, _, -, hSome, -⟩
          rw [optionalEntries_iff, hEntries] at hSome
          cases hSome
      · next entries hEntries =>
        constructor
        · intro hRead
          obtain ⟨properties, hProperties, hRead⟩ := bind_eq_ok.mp hRead
          have hProperties : readProperties source (ownerOf location name) entries =
              .ok properties := by
            cases name <;> exact hProperties
          split at hRead
          · exact absurd hRead violate_ne_ok
          · next required hRequired =>
            obtain ⟨hSubstance, hRead⟩ := unless_violated hRead
            obtain ⟨texts, hTexts, hRead⟩ := bind_eq_ok.mp hRead
            cases hRead
            exact ⟨name, entries, properties, required, texts, hName,
              optionalEntries_iff.mpr hEntries, hProperties, optionalItems_iff.mpr hRequired,
              isSubstantial_iff.mp hSubstance, hTexts, rfl⟩
        · rintro ⟨_, _, properties, required, texts, hSome, hGiven, hProperties, hRequired,
            hSubstance, hTexts, rfl⟩
          rw [hName] at hSome
          cases hSome
          rw [optionalEntries_iff, hEntries] at hGiven
          cases hGiven
          refine bind_eq_ok.mpr ⟨properties, by cases name <;> exact hProperties, ?_⟩
          rw [optionalItems_iff.mp hRequired]
          exact (if_neg (isSubstantial_iff.mpr hSubstance)).trans
            (bind_eq_ok.mpr ⟨texts, hTexts, rfl⟩)

end

/-! ## Properties -/

theorem readProperties_ok {source : Option String} {owner : Key} {entries : Mapping}
    {properties : List (Key × Schema)} (h : readProperties source owner entries = .ok properties) :
    (∀ entry ∈ entries, IsDescribed entry.2) ∧
      ∀ pair ∈ entries.zip properties, ∃ place, read source place pair.1.2 = .ok pair.2.2 := by
  induction entries generalizing properties with
  | nil => exact ⟨List.forall_mem_nil _, List.forall_mem_nil _⟩
  | cons entry rest ih =>
      rw [readProperties] at h
      obtain ⟨first, -, h⟩ := bind_eq_ok.mp h
      obtain ⟨second, -, h⟩ := bind_eq_ok.mp h
      obtain ⟨hDescribed, h⟩ := unless_violated h
      obtain ⟨schema, hSchema, h⟩ := bind_eq_ok.mp h
      obtain ⟨others, hOthers, h⟩ := bind_eq_ok.mp h
      cases h
      obtain ⟨hAllDescribed, hAllRead⟩ := ih hOthers
      rw [Option.isNone_iff_eq_none, ← ne_eq, Option.ne_none_iff_isSome] at hDescribed
      rw [List.zip_cons_cons]
      exact ⟨List.forall_mem_cons.mpr ⟨isDescribed_iff.mpr hDescribed, hAllDescribed⟩,
        List.forall_mem_cons.mpr ⟨⟨_, hSchema⟩, hAllRead⟩⟩

theorem readProperties_total {source : Option String} {owner : Key} {entries : Mapping}
    (hOwner : owner.isShort = true) (hKeys : Mapping.hasShortKeys entries = true)
    (hDescribed : ∀ entry ∈ entries, IsDescribed entry.2)
    (hRead : ∀ entry ∈ entries, ∀ place : String,
      ∃ schema, read source (.text place) entry.2 = .ok schema) :
    ∃ properties, readProperties source owner entries = .ok properties := by
  induction entries with
  | nil => exact ⟨[], by rw [readProperties]⟩
  | cons entry rest ih =>
      rw [Mapping.hasShortKeys, List.all_cons, Bool.and_eq_true] at hKeys
      obtain ⟨hFirst, hRest⟩ := List.forall_mem_cons.mp hDescribed
      obtain ⟨hFirstRead, hRestRead⟩ := List.forall_mem_cons.mp hRead
      obtain ⟨others, hOthers⟩ := ih hKeys.2 hRest hRestRead
      obtain ⟨first, hFirstLabel⟩ := label_of_isShort hOwner
      obtain ⟨second, hSecondLabel⟩ := label_of_isShort hKeys.1
      obtain ⟨schema, hSchema⟩ := hFirstRead (first ++ "." ++ second)
      have hSome := isDescribed_iff.mp hFirst
      rw [Option.isSome_iff_ne_none, ne_eq, ← Option.isNone_iff_eq_none] at hSome
      refine ⟨(entry.1, schema) :: others, ?_⟩
      rw [readProperties]
      refine bind_eq_ok.mpr ⟨first, hFirstLabel, bind_eq_ok.mpr ⟨second, hSecondLabel, ?_⟩⟩
      exact (if_neg hSome).trans
        (bind_eq_ok.mpr ⟨schema, hSchema, bind_eq_ok.mpr ⟨others, hOthers, rfl⟩⟩)

theorem isShort_ownerOf {location : Key} (h : location.isShort = true) (name : Option String) :
    (ownerOf location name).isShort = true := by
  cases name with
  | none => exact h
  | some text => rfl

theorem hasShortKeys_of_optionalEntries {m entries : Mapping} {key : String}
    (hGet : ∀ {key value}, m.get? key = some value → value.isShort = true)
    (h : OptionalEntries (m.get? key) entries) : entries.hasShortKeys = true := by
  rcases Value.optionalEntries?_some (optionalEntries_iff.mp h) with rfl | ⟨value, hSome, hEntries⟩
  · rfl
  · exact (Value.every_of_entries? (hGet hSome) hEntries).1

theorem mapping_of_read {source : Option String} {location : Key} {raw : Value} {schema : Schema}
    (h : read source location raw = .ok schema) :
    ∃ (m : Mapping) (mark : Option Mark), raw = .mapping m mark := by
  obtain ⟨m, hEntries, -⟩ := read_ok h
  exact ⟨m, Value.entries?_eq_some_iff.mp hEntries⟩

theorem length_of_keys {entries : Mapping} {properties : List (Key × Schema)}
    (h : properties.map Prod.fst = entries.map Prod.fst) : entries.length = properties.length := by
  have hLengths := congrArg List.length h
  rw [List.length_map, List.length_map] at hLengths
  exact hLengths.symm

/-- A member of the first of two lists of one length has a partner in the second. -/
theorem exists_pair {α β : Type} {as : List α} {bs : List β} (h : as.length = bs.length) {a : α}
    (ha : a ∈ as) : ∃ pair ∈ as.zip bs, pair.1 = a := by
  rw [← List.map_fst_zip (le_of_eq h)] at ha
  exact List.mem_map.mp ha

theorem sizeOf_entry_lt {m entries : Mapping} {key : String} {entry : Key × Value}
    (hEntries : OptionalEntries (m.get? key) entries) (h : entry ∈ entries) :
    sizeOf entry.2 < sizeOf m := by
  have hEntry : sizeOf entry.2 < sizeOf entry := by
    cases entry
    simp only [Prod.mk.sizeOf_spec]
    omega
  have hMember := List.sizeOf_lt_of_mem h
  rcases sizeOf_optionalEntries?_le (optionalEntries_iff.mp hEntries) with rfl | ⟨value, hGet, hLess⟩
  · exact absurd h List.not_mem_nil
  · have := sizeOf_get?_lt hGet
    omega

/-! ## Reading follows the grammar -/

theorem ownName?_iff {m : Mapping} {name : Option String} :
    ownName? m = some name ↔
      MayBeNamed m ∧ ∀ text, name = some text ↔ m.get? "name" = some (.text text) := by
  unfold ownName? MayBeNamed
  cases hName : m.get? "name" with
  | none => cases name <;> simp
  | some value =>
      split
      · next hNone => cases hNone
      · next hNull =>
        cases hNull
        cases name <;> simp [Value.text, Value.null]
      · next text hText =>
        cases hText
        by_cases hEmpty : text = ""
        · simp [hEmpty, Value.text, Value.null]
        · rw [if_neg hEmpty]
          cases name <;> simp [hEmpty, Value.text, Value.null, eq_comm]
      · next hNull hText hSame =>
        cases hSame
        constructor
        · exact nofun
        · rintro ⟨hSome | hSome | ⟨text, hSome, -⟩, -⟩
          · cases hSome
          · exact absurd (Option.some.inj hSome) hNull
          · exact absurd (Option.some.inj hSome) (hText text)

theorem ownName?_total {m : Mapping} (h : MayBeNamed m) : ∃ name, ownName? m = some name := by
  refine ⟨(m.get? "name").bind Value.asText?, ownName?_iff.mpr ⟨h, fun text => ?_⟩⟩
  rw [Option.bind_eq_some_iff]
  simp only [asText?_eq_some_iff, exists_eq_right]

theorem mem_labels {items : List Value} {texts : List String}
    (h : items.mapM Value.label = .ok texts) (text : String) :
    text ∈ texts ↔ ∃ item ∈ items, item.display? = some text := by
  constructor
  · intro hText
    obtain ⟨item, hItem, hLabel⟩ := mem_of_mapM h hText
    exact ⟨item, hItem, valueLabel_iff.mp hLabel⟩
  · rintro ⟨item, hItem, hShown⟩
    obtain ⟨other, hOther, hLabel⟩ := exists_of_mapM h hItem
    have hSame : other = text := Option.some.inj ((valueLabel_iff.mp hLabel).symm.trans hShown)
    exact hSame ▸ hOther

/-- What is read is in the grammar, and the schema mirrors it. -/
theorem read_sound {source : Option String} {location : Key} {raw : Value} {schema : Schema}
    (h : read source location raw = .ok schema) : InGrammar raw ∧ Mirrors raw schema := by
  -- the recursion is on the node: whatever stands in an entry is smaller than the mapping
  obtain ⟨m, mark, hRaw⟩ := mapping_of_read h
  have hWhole : sizeOf m < sizeOf raw := by
    rw [hRaw, Value.mapping.sizeOf_spec]
    omega
  rw [hRaw] at h ⊢
  obtain ⟨shape, hShape⟩ := hasShape_total m
  have hProse := keeps_prose m "description"
  cases shape with
  | array =>
      obtain ⟨items, place, part, hItems, -, hPart, rfl⟩ := (read_array_iff hShape).mp h
      have hSmaller := sizeOf_get?_lt hItems
      obtain ⟨hGrammar, hMirrors⟩ := read_sound hPart
      exact ⟨.array hShape hItems hGrammar, .array hShape hItems hMirrors hProse⟩
  | reference =>
      obtain ⟨pointer, hPointer, hText, rfl⟩ := (read_reference_iff hShape).mp h
      exact ⟨.reference hShape hPointer hText, .reference hShape hPointer hProse⟩
  | enumeration =>
      obtain ⟨values, inner, hValues, hSome, rfl⟩ := (read_enumeration_iff hShape).mp h
      exact ⟨.enumeration hShape hValues hSome, .enumeration hShape hValues hProse⟩
  | scalar =>
      obtain ⟨kind, hKind, rfl⟩ := (read_scalar_iff hShape).mp h
      exact ⟨.scalar hShape hKind, .scalar hShape hKind hProse⟩
  | object =>
      obtain ⟨name, entries, properties, required, texts, hName, hEntries, hProperties, hRequired,
        hSubstance, hTexts, rfl⟩ := (read_object_iff hShape).mp h
      obtain ⟨hMayBeNamed, hNamed⟩ := ownName?_iff.mp hName
      obtain ⟨hDescribed, hRead⟩ := readProperties_ok hProperties
      have hKeys := map_fst_readProperties hProperties
      -- each property, beside the entry that it was read from
      have hInside : ∀ pair ∈ entries.zip properties,
          InGrammar pair.1.2 ∧ Mirrors pair.1.2 pair.2.2 := by
        intro pair hPair
        obtain ⟨place, hPlace⟩ := hRead pair hPair
        have hSmaller := sizeOf_entry_lt hEntries (List.of_mem_zip hPair).1
        exact read_sound hPlace
      refine ⟨.object hShape hMayBeNamed hEntries hDescribed ?_ hRequired ?_,
        .object hShape hNamed hProse hEntries hKeys (fun pair hPair => (hInside pair hPair).2)
          hRequired (fun text => ?_) (nodup_eraseDups _) readOpen_iff⟩
      · intro entry hEntry
        obtain ⟨pair, hPair, rfl⟩ := exists_pair (length_of_keys hKeys) hEntry
        exact (hInside pair hPair).1
      · refine hSubstance.imp_left fun hSome hNone => hSome ?_
        rw [hNone] at hKeys
        exact List.map_eq_nil_iff.mp hKeys
      · rw [mem_sortedTexts, mem_labels hTexts]
termination_by sizeOf raw

/-- What is in the grammar is read, if the texts for messages and names can be formed. -/
theorem read_complete {source : Option String} {raw : Value} (h : InGrammar raw)
    (hShort : raw.isShort = true) {location : Key} (hPlace : location.isShort = true) :
    ∃ schema, read source location raw = .ok schema := by
  induction h generalizing location with
  | array hShape hItems _ ih =>
      obtain ⟨-, hInside⟩ := Value.every_of_entries? hShort rfl
      obtain ⟨place, hLabel⟩ := label_of_isShort hPlace
      obtain ⟨part, hPart⟩ := @ih (Value.every_of_get? hInside hItems) (.text _) rfl
      exact ⟨_, (read_array_iff hShape).mpr ⟨_, place, part, hItems, hLabel, hPart, rfl⟩⟩
  | reference hShape hPointer hText =>
      exact ⟨_, (read_reference_iff hShape).mpr ⟨_, hPointer, hText, rfl⟩⟩
  | enumeration hShape hValues hSome =>
      exact ⟨_, (read_enumeration_iff hShape).mpr ⟨_, _, hValues, hSome, rfl⟩⟩
  | scalar hShape hKind => exact ⟨_, (read_scalar_iff hShape).mpr ⟨_, hKind, rfl⟩⟩
  | @object m entries _ required hShape hName hEntries hDescribed _ hRequired hSubstance ih =>
      obtain ⟨-, hInside⟩ := Value.every_of_entries? hShort rfl
      obtain ⟨name, hOwn⟩ := ownName?_total hName
      have hGet : ∀ {key value}, m.get? key = some value → value.isShort = true :=
        fun hSome => Value.every_of_get? hInside hSome
      -- every property is read, wherever it stands
      have hParts := Value.every_of_optionalEntries? (fun _ hSome => hGet hSome)
        (optionalEntries_iff.mp hEntries)
      obtain ⟨properties, hProperties⟩ := @readProperties_total source _ _
        (isShort_ownerOf hPlace name) (hasShortKeys_of_optionalEntries hGet hEntries) hDescribed
        fun entry hEntry place => ih entry hEntry (Value.everyEntry_iff.mp hParts entry hEntry) rfl
      -- and every required name has a text
      have hItems := Value.every_of_optionalItems? (fun _ hSome => hGet hSome)
        (optionalItems_iff.mp hRequired)
      obtain ⟨texts, hTexts⟩ := mapM_total fun item hItem =>
        label_total (hItems item hItem)
      refine ⟨_, (read_object_iff hShape).mpr ⟨name, entries, properties, required, texts, hOwn,
        hEntries, hProperties, hRequired, ?_, hTexts, rfl⟩⟩
      refine hSubstance.imp_left fun hSome hNone => hSome ?_
      have hKeys := map_fst_readProperties hProperties
      rw [hNone] at hKeys
      exact List.map_eq_nil_iff.mp hKeys.symm

/-- **The grammar of schemas.** A raw node without overlong integers is read as a schema exactly if it
is in the grammar, and the schema that is read mirrors the node. -/
theorem read_grammar {source : Option String} {location : Key} {raw : Value}
    (hPlace : location.isShort = true) (hShort : raw.isShort = true) :
    ((∃ schema, read source location raw = .ok schema) ↔ InGrammar raw) ∧
      ∀ schema, read source location raw = .ok schema → Mirrors raw schema := by
  refine ⟨⟨?_, fun hGrammar => read_complete hGrammar hShort hPlace⟩, fun schema hRead => ?_⟩
  · rintro ⟨schema, hRead⟩
    exact (read_sound hRead).1
  · exact (read_sound hRead).2

/-- An object with a list of texts and a reference, whose third property has a number for a key. The
list of what is required names a text, nothing and a number. -/
def boxNode : Value :=
  .mapping
    [(.text "type", .text "object"), (.text "name", .text "box"), (.text "description", .text " "),
      (.text "properties", .mapping
        [(.text "items", .mapping
            [(.text "type", .text "array"), (.text "description", .text "What is inside"),
              (.text "items", .mapping [(.text "enum", .list [.text "cup", .text "pen"] none)] none)]
            none),
          (.text "next", .mapping
            [(.text "$ref", .text "#/box"), (.text "description", .text "What is under it"),
              (.text "type", .text "object")] none),
          (.int 1, .mapping
            [(.text "type", .text "integer"), (.text "description", .text "How many")] none)] none),
      (.text "required", .list [.text "items", .null, .scalar (.int 1)] none)] none

theorem inGrammar_boxNode : InGrammar boxNode := by
  have hEnum : InGrammar (.mapping [(.text "enum", .list (["cup", "pen"].map .text) none)] none) :=
    .enumeration (.enumeration nofun rfl nofun) rfl nofun
  refine .object (.object rfl rfl rfl) (Or.inr (Or.inr ⟨"box", rfl, by decide⟩)) .given ?_ ?_ .given
    (Or.inl (List.cons_ne_nil _ _))
  · refine List.forall_mem_cons.mpr
      ⟨?_, List.forall_mem_cons.mpr ⟨?_, List.forall_mem_singleton.mpr ?_⟩⟩
    · exact ⟨_, _, "What is inside", rfl, rfl, rfl⟩
    · exact ⟨_, _, "What is under it", rfl, rfl, rfl⟩
    · exact ⟨_, _, "How many", rfl, rfl, rfl⟩
  · refine List.forall_mem_cons.mpr
      ⟨?_, List.forall_mem_cons.mpr ⟨?_, List.forall_mem_singleton.mpr ?_⟩⟩
    · exact .array (.array rfl) rfl hEnum
    · exact .reference (.reference (some_text_ne (by decide)) nofun) rfl (by decide)
    · exact @InGrammar.scalar _ _ .integer
        (.scalar (some_text_ne (by decide)) rfl rfl (some_text_ne (by decide))) rfl

/-- The object is read, at any depth, and the schema mirrors it. -/
theorem read_boxNode :
    ∃ schema, read (some "box.json") (.text "box") boxNode = .ok schema ∧ Mirrors boxNode schema := by
  obtain ⟨hAccepted, hMirrors⟩ :=
    @read_grammar (some "box.json") (.text "box") boxNode rfl (by decide +kernel)
  obtain ⟨schema, hRead⟩ := hAccepted.mpr inGrammar_boxNode
  exact ⟨schema, hRead, hMirrors schema hRead⟩

end Schema

end CommBindings
