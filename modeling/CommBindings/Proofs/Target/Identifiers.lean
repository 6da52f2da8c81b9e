import CommBindings.Proofs.PlainNames
import CommBindings.Proofs.Target.Entries

set_option autoImplicit false

/-! # Which identifiers are legal

What a target takes for an identifier is told by its lexical grammar and its reserved words. In a comm
with plain names some identifiers are always legal: the attributes of Python and the members of its
handler, and the functions of Rust and Python. The others are legal exactly if the names that they are
made from are fit for it (`legal_exactly`): mostly if they have no hyphen, and in places if they are none
of some words. So the comm `shop` with a method `type` has a member of its handler in Rust that is
illegal (`type_notLegal`), although a field with that name is escaped.
-/

namespace CommBindings

open Naming

/-! ## Lexical grammars -/

namespace Rust

/-- The words that are keywords everywhere. -/
def strictWords : List String := [
  "as", "async", "await", "break", "const", "continue", "crate", "dyn", "else", "enum", "extern",
  "false", "fn", "for", "if", "impl", "in", "let", "loop", "match", "mod", "move", "mut", "pub",
  "ref", "return", "self", "Self", "static", "struct", "super", "trait", "true", "type", "unsafe",
  "use", "where", "while"]

/-- The words that are reserved without a meaning yet. -/
def keptWords : List String := [
  "abstract", "become", "box", "do", "final", "macro", "override", "priv", "try", "typeof",
  "unsized", "virtual", "yield"]

/-- All words that no identifier may be. -/
def reserved : List String := strictWords ++ keptWords

/-- The words that no raw identifier may be. -/
def unescapable : List String := ["crate", "self", "super", "Self"]

/-- An identifier of Rust: a word that is not reserved, or a raw identifier. -/
inductive IsLegal : String → Prop where
  | word {text : String} (hShape : isIdentifier ['_'] text = true) (hLow : text ≠ "_")
      (hFree : text ∉ reserved) : IsLegal text
  | raw {word : String} (hShape : isIdentifier ['_'] word = true) (hLow : word ≠ "_")
      (hFree : word ∉ unescapable) : IsLegal ("r#" ++ word)

end Rust

namespace Python

/-- An identifier of Python. -/
structure IsLegal (text : String) : Prop where
  shape : isIdentifier ['_'] text = true
  free : text ∉ pythonKeywords

end Python

namespace TypeScript

/-- The words that are reserved in modules and classes. -/
def reserved : List String := [
  "await", "break", "case", "catch", "class", "const", "continue", "debugger", "default", "delete",
  "do", "else", "enum", "export", "extends", "false", "finally", "for", "function", "if",
  "implements", "import", "in", "instanceof", "interface", "let", "new", "null", "package",
  "private", "protected", "public", "return", "static", "super", "switch", "this", "throw", "true",
  "try", "typeof", "var", "void", "while", "with", "yield"]

/-- A name of a property or a member, which may be a reserved word. -/
def IsName (text : String) : Prop := isIdentifier ['_', '$'] text = true

/-- An identifier of TypeScript that names a type, a class or an argument. -/
structure IsLegal (text : String) : Prop where
  shape : isIdentifier ['_', '$'] text = true
  free : text ∉ reserved

end TypeScript

/-! ## Plain texts -/

/-- A plain text is legal exactly if it has no hyphen and is not reserved. -/
def Judges (IsLegal : String → Prop) (reserved : List String) : Prop :=
  ∀ {text : String}, isPlain text = true → (IsLegal text ↔ Hyphenless text ∧ text ∉ reserved)

theorem Python.judges : Judges Python.IsLegal pythonKeywords := by
  intro text h
  have hShape := isIdentifier_iff (by decide : '_' ∈ ['_']) (by decide) h
  exact ⟨fun hLegal => ⟨hShape.mp hLegal.shape, hLegal.free⟩,
    fun hText => ⟨hShape.mpr hText.1, hText.2⟩⟩

theorem TypeScript.judges : Judges TypeScript.IsLegal TypeScript.reserved := by
  intro text h
  have hShape := isIdentifier_iff (by decide : '_' ∈ ['_', '$']) (by decide) h
  exact ⟨fun hLegal => ⟨hShape.mp hLegal.shape, hLegal.free⟩,
    fun hText => ⟨hShape.mpr hText.1, hText.2⟩⟩

theorem TypeScript.judges_names : Judges TypeScript.IsName [] := by
  intro text h
  rw [TypeScript.IsName, isIdentifier_iff (by decide) (by decide) h]
  exact (and_iff_left List.not_mem_nil).symm

theorem ne_low_of_plain {text : String} (h : isPlain text = true) : text ≠ "_" := by
  rintro rfl
  exact absurd h (by decide)

theorem mark_ne_plain {c : Char} {text : String} (h : isPlain text = true) (hMem : c ∈ text.toList) :
    c ≠ '#' := by
  rintro rfl
  exact absurd (all_of_arePlain h '#' hMem) (by decide)

theorem mem_raw (word : String) : '#' ∈ ("r#" ++ word).toList := by
  rw [String.toList_append]
  exact List.mem_append_left _ (by decide)

theorem Rust.judges : Judges Rust.IsLegal Rust.reserved := by
  intro text h
  have hShape := isIdentifier_iff (by decide : '_' ∈ ['_']) (by decide) h
  constructor
  · intro hLegal
    cases hLegal with
    | word hWord _ hFree => exact ⟨hShape.mp hWord, hFree⟩
    | raw _ _ _ => exact absurd rfl (mark_ne_plain h (mem_raw _))
  · rintro ⟨hNone, hFree⟩
    exact .word (hShape.mpr hNone) (ne_low_of_plain h) hFree

/-- A raw identifier is legal exactly if its word has no hyphen and can be escaped. -/
theorem Rust.isLegal_raw_iff {word : String} (h : isPlain word = true) :
    Rust.IsLegal ("r#" ++ word) ↔ Hyphenless word ∧ word ∉ Rust.unescapable := by
  have hShape := isIdentifier_iff (by decide : '_' ∈ ['_']) (by decide) h
  constructor
  · intro hLegal
    generalize hText : "r#" ++ word = text at hLegal
    cases hLegal with
    | word hWord _ _ =>
        -- no identifier has the mark of raw ones
        rw [← hText, isIdentifier, String.toList_append] at hWord
        exact absurd hWord Bool.false_ne_true
    | raw hWord _ hFree =>
        rw [← append_left_injective "r#" hText] at hWord hFree
        exact ⟨hShape.mp hWord, hFree⟩
  · rintro ⟨hNone, hFree⟩
    exact .raw (hShape.mpr hNone) (ne_low_of_plain h) hFree

section

variable {IsLegal : String → Prop} {reserved : List String}

/-- An ending that no reserved word has. -/
structure IsEnding (reserved : List String) (ending : String) : Prop where
  plain : ending.toList.all isPlainChar = true
  hyphenless : Hyphenless ending
  apart : ∀ word ∈ reserved, ¬ ending.toList <:+ word.toList

/-- The endings of names that are coined from others. -/
def endings : List String :=
  ["RpcRequest", "RpcReply", "Request", "Reply", "Event", "Handler", "Params", "Comm", "_request"]

theorem isEnding_of_apart (hApart : ∀ ending ∈ endings, ∀ word ∈ reserved, ¬ ending.toList <:+ word.toList)
    {ending : String} (h : ending ∈ endings) : IsEnding reserved ending := by
  have hAll : ∀ ending ∈ endings, ending.toList.all isPlainChar = true ∧ Hyphenless ending := by
    decide
  exact ⟨(hAll ending h).1, (hAll ending h).2, hApart ending h⟩

theorem Judges.ended (h : Judges IsLegal reserved) {ending : String} (hEnding : IsEnding reserved ending)
    {name : String} (hName : isPlain name = true) : IsLegal (name ++ ending) ↔ Hyphenless name := by
  rw [h (isPlain_append hName hEnding.plain), hyphenless_append, and_iff_left hEnding.hyphenless]
  refine and_iff_left fun hMem => hEnding.apart _ hMem ?_
  rw [String.toList_append]
  exact List.suffix_append _ _

/-- A name in Pascal case with an ending is legal exactly if the name has no hyphen. -/
theorem Judges.pascalEnded (h : Judges IsLegal reserved) {ending : String}
    (hEnding : IsEnding reserved ending) {name : String} (hName : isPlain name = true) :
    IsLegal (pascalCase name ++ ending) ↔ Hyphenless name := by
  obtain ⟨hPlain, hHyphen⟩ := plain_pascalCase hName
  exact (h.ended hEnding hPlain).trans hHyphen

/-- A name in Pascal case is legal exactly if the name has no hyphen and does not come to a reserved
word. -/
theorem Judges.pascal (h : Judges IsLegal reserved) {name : String} (hName : isPlain name = true) :
    IsLegal (pascalCase name) ↔ Hyphenless name ∧ pascalCase name ∉ reserved := by
  obtain ⟨hPlain, hHyphen⟩ := plain_pascalCase hName
  rw [h hPlain, hHyphen]

/-- The function for a comm, whose name is put between two parts, is always legal. -/
theorem Judges.function (h : Judges IsLegal reserved) {opening ending : String}
    (hOpening : isPlain opening = true ∧ Hyphenless opening) (hEnding : IsEnding reserved ending)
    {name : String} (hName : isPlain name = true) :
    IsLegal (opening ++ moduleName name ++ ending) := by
  refine (h.ended hEnding (isPlain_append hOpening.1 (plain_moduleName hName))).mpr ?_
  exact hyphenless_append.mpr ⟨hOpening.2, hyphenless_withoutHyphens _⟩

/-- A name in Pascal case between two parts is legal exactly if the name has no hyphen. -/
theorem Judges.pascalBetween (h : Judges IsLegal reserved) {opening ending : String}
    (hOpening : isPlain opening = true ∧ Hyphenless opening) (hEnding : IsEnding reserved ending)
    {name : String} (hName : isPlain name = true) :
    IsLegal (opening ++ pascalCase name ++ ending) ↔ Hyphenless name := by
  obtain ⟨hPlain, hHyphen⟩ := plain_pascalCase hName
  have hAll := List.all_eq_true.mpr (all_of_arePlain hPlain)
  rw [h.ended hEnding (isPlain_append hOpening.1 hAll), hyphenless_append, hHyphen,
    and_iff_right hOpening.2]

end

/-! ## Fields and reserved words in Pascal case -/

/-- The names that fit a field in Rust, hyphens aside. -/
def Rust.FitsField (name : String) : Prop :=
  withoutHyphens name ∉ unescapable ∧ withoutHyphens name ∉ keptWords

theorem Rust.isLegal_rustField {name : String} (h : isPlain name = true) :
    Rust.IsLegal (rustField name) ↔ Rust.FitsField name := by
  have hPlain := plain_withoutHyphens h
  have hNone := hyphenless_withoutHyphens name
  unfold rustField Rust.FitsField
  simp only [List.contains_iff_mem]
  by_cases hKeyword : withoutHyphens name ∈ rustKeywords
  · -- the table of words to be escaped has none of those without a meaning
    have hApart : ∀ word ∈ rustKeywords, word ∉ Rust.keptWords := by decide
    rw [if_pos hKeyword, Rust.isLegal_raw_iff hPlain, and_iff_right hNone]
    exact (and_iff_left (hApart _ hKeyword)).symm
  · have hStrict : ∀ word ∈ Rust.strictWords, word ∈ rustKeywords := by decide
    have hSpecial : ∀ word ∈ Rust.unescapable, word ∈ rustKeywords := by decide
    rw [if_neg hKeyword, Rust.judges hPlain, and_iff_right hNone, Rust.reserved, List.mem_append,
      not_or, and_iff_right fun hMem => hKeyword (hStrict _ hMem)]
    exact (and_iff_right fun hMem => hKeyword (hSpecial _ hMem)).symm

/-- An attribute in Python is always legal. -/
theorem Python.isLegal_pythonField {name : String} (h : isPlain name = true) :
    Python.IsLegal (pythonField name) := by
  have hPlain := plain_withoutHyphens h
  have hNone := hyphenless_withoutHyphens name
  unfold pythonField
  simp only [List.contains_iff_mem]
  by_cases hKeyword : withoutHyphens name ∈ pythonKeywords
  · have hApart : ∀ word ∈ pythonKeywords, word ++ "_" ∉ pythonKeywords := by decide
    rw [if_pos hKeyword, Python.judges (isPlain_append hPlain (by decide)), hyphenless_append]
    exact ⟨⟨hNone, by decide⟩, hApart _ hKeyword⟩
  · rw [if_neg hKeyword, Python.judges hPlain]
    exact ⟨hNone, hKeyword⟩

/-- The names that come to a reserved word of Rust in Pascal case. -/
def Rust.selfNames : List String := ["self", "Self"]

/-- The names that come to a reserved word of Python in Pascal case. -/
def Python.constantNames : List String := ["none", "None", "true", "True", "false", "False"]

theorem Rust.pascalCase_mem_iff {name : String} (h : isPlain name = true) :
    pascalCase name ∈ Rust.reserved ↔ name ∈ Rust.selfNames := by
  -- the reserved words that begin with no small letter, as a name in Pascal case does not
  let capitals : List (Char × List Char) := [('s', ['e', 'l', 'f'])]
  have hCapitals : ∀ word ∈ Rust.reserved, startsSmall word = false →
      word ∈ capitals.map fun word => String.ofList (word.1.toUpper :: word.2) := by
    decide
  constructor
  · exact mem_bothStarts (by decide) hCapitals h
  · intro hMem
    have hAll : ∀ name ∈ Rust.selfNames, pascalCase name ∈ Rust.reserved := by decide +kernel
    exact hAll name hMem

theorem Python.pascalCase_mem_iff {name : String} (h : isPlain name = true) :
    pascalCase name ∈ pythonKeywords ↔ name ∈ Python.constantNames := by
  let capitals : List (Char × List Char) :=
    [('n', ['o', 'n', 'e']), ('t', ['r', 'u', 'e']), ('f', ['a', 'l', 's', 'e'])]
  have hCapitals : ∀ word ∈ pythonKeywords, startsSmall word = false →
      word ∈ capitals.map fun word => String.ofList (word.1.toUpper :: word.2) := by
    decide
  constructor
  · exact mem_bothStarts (by decide) hCapitals h
  · intro hMem
    have hAll : ∀ name ∈ Python.constantNames, pascalCase name ∈ pythonKeywords := by decide +kernel
    exact hAll name hMem

theorem TypeScript.pascalCase_not_mem (name : String) : pascalCase name ∉ TypeScript.reserved := by
  have hSmall : ∀ word ∈ TypeScript.reserved, startsSmall word = true := by decide
  intro hMem
  have hStart := hSmall _ hMem
  rw [startsSmall_pascalCase] at hStart
  cases hStart

/-! ## Identifiers in declarations -/

/-- Each of the names has an identifier, in order, that is legal exactly if the name is fit for it. -/
def LegalExactly (IsLegal Fits : String → Prop) (names identifiers : List String) : Prop :=
  List.Forall₂ (fun name identifier => IsLegal identifier ↔ Fits name) names identifiers

theorem legalExactly_of_eq {IsLegal Fits : String → Prop} {identifier : String → String}
    {names identifiers : List String} (hNames : identifiers = names.map identifier)
    (h : ∀ name ∈ names, IsLegal (identifier name) ↔ Fits name) :
    LegalExactly IsLegal Fits names identifiers := by
  rw [hNames, LegalExactly, List.forall₂_map_right_iff, List.forall₂_same]
  exact h

/-- The names in a comm are plain: its own, those of its methods and their parameters, and those of the
properties and shared schemas that are declared. -/
structure Comm.HasPlainNames (comm : Comm) : Prop where
  own : isPlain comm.name = true
  methods : ∀ method ∈ comm.methods, isPlain method.name = true
  params : ∀ method ∈ comm.methods, ∀ param ∈ method.params, isPlain param.name = true
  properties : ∀ object ∈ comm.objects.items, ∀ property ∈ object.node.properties, ∀ name,
    property.1 = .text name → isPlain name = true
  components : ∀ entry ∈ comm.aliases, ∀ name, entry.1 = .text name → isPlain name = true

variable {comm : Comm}

theorem Comm.HasPlainNames.messages (h : comm.HasPlainNames) (kind : MessageKind) :
    ∀ name ∈ comm.methodNames kind, isPlain name = true := by
  refine List.forall_mem_map.mpr fun method hMethod => h.methods method ?_
  cases kind with
  | request => exact List.mem_append_left _ hMethod
  | reply => exact List.mem_append_left _ (List.mem_of_mem_filter hMethod)
  | event => exact List.mem_append_right _ hMethod

theorem Comm.HasPlainNames.keys (h : comm.HasPlainNames) {object : ObjectDeclaration}
    (hObject : object ∈ comm.objects.items) {names : List String}
    (hNames : object.node.properties.map Prod.fst = names.map .text) :
    ∀ name ∈ names, isPlain name = true := by
  intro name hName
  have hKey : Scalar.text name ∈ object.node.properties.map Prod.fst := by
    rw [hNames]
    exact List.mem_map_of_mem hName
  obtain ⟨property, hProperty, hSame⟩ := List.mem_map.mp hKey
  exact h.properties object hObject property hProperty name hSame

/-! ## Rust -/

namespace Rust

/-- The names that fit a variant. -/
def FitsVariant (name : String) : Prop := Hyphenless name ∧ name ∉ selfNames

/-- The names that fit a member of the handler. -/
def FitsMember (name : String) : Prop := Hyphenless name ∧ name ∉ reserved

/-- The types that have the name of the comm in theirs. -/
def commTypes (comm : Comm) : List String :=
  [(requests comm).name, (replies comm).name, (events comm).name, (handler comm).name]

/-- Which identifiers in the file are legal. -/
structure LegalIdentifiers (comm : Comm) : Prop where
  commTypes : ∀ name ∈ commTypes comm, IsLegal name ↔ Hyphenless comm.name
  aliases : ∀ entry ∈ comm.aliases, ∀ key name, entry.1 = .text key →
    (aliasOf comm entry).name = .ok name → (IsLegal name ↔ FitsVariant key)
  paramTypes : ∀ method ∈ comm.methods, IsLegal (paramsOf comm method).name ↔ Hyphenless method.name
  objects : ∀ object ∈ comm.objects.items, ∀ struct (names : List String),
    objectOf comm object = .record struct →
    object.node.properties.map Prod.fst = names.map .text →
      ∃ identifiers : List String, struct.identifiers = identifiers.map .ok ∧
        LegalExactly IsLegal FitsField names identifiers
  params : ∀ method ∈ comm.methods, ∃ identifiers : List String,
    (paramsOf comm method).identifiers = identifiers.map .ok ∧
      LegalExactly IsLegal FitsField (method.params.map Param.name) identifiers
  requests : LegalExactly IsLegal FitsVariant (comm.methodNames .request)
    ((requests comm).messages.map Message.name)
  replies : LegalExactly IsLegal Hyphenless (comm.methodNames .reply)
    ((replies comm).replies.map Reply.name)
  events : LegalExactly IsLegal FitsVariant (comm.methodNames .event)
    ((events comm).messages.map Message.name)
  members : LegalExactly IsLegal FitsMember (comm.methodNames .request)
    ((handler comm).handlers.map Handler.name)
  dispatch : IsLegal (dispatch comm).name
  patterns : LegalExactly IsLegal FitsVariant (comm.methodNames .request)
    ((Rust.dispatch comm).arms.map DispatchArm.request)
  calls : LegalExactly IsLegal FitsMember (comm.methodNames .request)
    ((Rust.dispatch comm).arms.map DispatchArm.handler)

theorem isLegal_pascalCase {name : String} (h : isPlain name = true) :
    IsLegal (pascalCase name) ↔ FitsVariant name := by
  rw [judges.pascal h, pascalCase_mem_iff h, FitsVariant]

theorem names_handlers (comm : Comm) : (handler comm).handlers.map Handler.name =
    (comm.methodNames .request).map id :=
  names_entries id (fun _ => by rfl) comm.backendMethods

theorem names_patterns (comm : Comm) : (dispatch comm).arms.map DispatchArm.request =
    (comm.methodNames .request).map pascalCase :=
  names_entries pascalCase (fun _ => by rfl) comm.backendMethods

theorem names_calls (comm : Comm) : (dispatch comm).arms.map DispatchArm.handler =
    (comm.methodNames .request).map id :=
  names_entries id (fun _ => by rfl) comm.backendMethods

theorem isEnding {ending : String} (h : ending ∈ endings) : IsEnding reserved ending :=
  isEnding_of_apart (by decide +kernel) h

theorem isLegal_ended {ending : String} (hEnding : ending ∈ endings) {name : String}
    (h : isPlain name = true) : IsLegal (pascalCase name ++ ending) ↔ Hyphenless name :=
  judges.pascalEnded (isEnding hEnding) h

theorem legalIdentifiers (h : comm.HasPlainNames) : LegalIdentifiers comm := by
  have hVariants : ∀ kind, ∀ name ∈ comm.methodNames kind,
      IsLegal (pascalCase name) ↔ FitsVariant name :=
    fun kind name hName => isLegal_pascalCase (h.messages kind name hName)
  have hMembers : ∀ name ∈ comm.methodNames .request, IsLegal (id name) ↔ FitsMember name :=
    fun name hName => judges (h.messages .request name hName)
  constructor
  case commTypes =>
    refine List.forall_mem_cons.mpr ⟨isLegal_ended (by decide) h.own, ?_⟩
    refine List.forall_mem_cons.mpr ⟨isLegal_ended (by decide) h.own, ?_⟩
    refine List.forall_mem_cons.mpr ⟨isLegal_ended (by decide) h.own, ?_⟩
    exact List.forall_mem_singleton.mpr (isLegal_ended (by decide) h.own)
  case aliases =>
    rintro entry hEntry key name hKey hName
    obtain rfl : pascalCase key = name := by
      rw [aliasOf, hKey] at hName
      exact Except.ok.inj hName
    exact isLegal_pascalCase (h.components entry hEntry key hKey)
  case paramTypes => exact fun method hMethod => isLegal_ended (by decide) (h.methods method hMethod)
  case objects =>
    intro object hObject struct names hStruct hNames
    exact ⟨_, identifiers_objectOf hStruct hNames, legalExactly_of_eq rfl fun name hName =>
      isLegal_rustField (h.keys hObject hNames name hName)⟩
  case params =>
    intro method hMethod
    exact ⟨_, identifiers_paramsOf method, legalExactly_of_eq rfl
      (List.forall_mem_map.mpr fun param hParam =>
        isLegal_rustField (h.params method hMethod param hParam))⟩
  case requests => exact legalExactly_of_eq (names_requestVariants comm) (hVariants .request)
  case replies =>
    exact legalExactly_of_eq (names_replyVariants comm) fun name hName =>
      isLegal_ended (by decide) (h.messages .reply name hName)
  case events => exact legalExactly_of_eq (names_eventVariants comm) (hVariants .event)
  case members => exact legalExactly_of_eq (names_handlers comm) hMembers
  case dispatch => exact judges.function (by decide) (isEnding (by decide)) h.own
  case patterns => exact legalExactly_of_eq (names_patterns comm) (hVariants .request)
  case calls => exact legalExactly_of_eq (names_calls comm) hMembers

end Rust

/-! ## Python -/

namespace Python

/-- The names that fit a member of an enumeration of methods. -/
def FitsTag (name : String) : Prop := Hyphenless name ∧ name ∉ constantNames

/-- The types that have the name of the comm in theirs. -/
def commTypes (comm : Comm) : List String :=
  [(messages comm).tags.name, (messages comm).requestChoice.name, (messages comm).replyChoice.name,
    (eventNames comm).name, (handler comm).name]

/-- Which identifiers in the file are legal. -/
structure LegalIdentifiers (comm : Comm) : Prop where
  commTypes : ∀ name ∈ commTypes comm, IsLegal name ↔ Hyphenless comm.name
  aliases : ∀ entry ∈ comm.aliases, ∀ key name, entry.1 = .text key →
    (aliasOf comm entry).name = .ok name → (IsLegal name ↔ FitsTag key)
  paramTypes : ∀ method ∈ comm.methods, IsLegal (paramsOf comm method).name ↔ Hyphenless method.name
  objects : ∀ object ∈ comm.objects.items, ∀ record (names : List String),
    objectOf comm object = .dataClass record →
    object.node.properties.map Prod.fst = names.map .text →
      ∃ identifiers : List String, record.identifiers = identifiers.map .ok ∧
        ∀ identifier ∈ identifiers, IsLegal identifier
  params : ∀ method ∈ comm.methods, ∃ identifiers : List String,
    (paramsOf comm method).identifiers = identifiers.map .ok ∧
      ∀ identifier ∈ identifiers, IsLegal identifier
  tags : LegalExactly IsLegal FitsTag (comm.methodNames .request)
    ((messages comm).tags.members.map Member.name)
  requests : LegalExactly IsLegal Hyphenless (comm.methodNames .request)
    (messages comm).requestChoice.members
  replies : LegalExactly IsLegal Hyphenless (comm.methodNames .reply)
    (messages comm).replyChoice.members
  events : LegalExactly IsLegal FitsTag (comm.methodNames .event)
    ((eventNames comm).members.map Member.name)
  members : ∀ member ∈ (handler comm).handlers, IsLegal member.name
  calls : ∀ arm ∈ (dispatch comm).arms, IsLegal arm.handler
  dispatch : IsLegal (dispatch comm).name
  parseRequest : IsLegal (parseRequest comm).name

theorem isLegal_pascalCase {name : String} (h : isPlain name = true) :
    IsLegal (pascalCase name) ↔ FitsTag name := by
  rw [judges.pascal h, pascalCase_mem_iff h, FitsTag]

theorem isEnding {ending : String} (h : ending ∈ endings) : IsEnding pythonKeywords ending :=
  isEnding_of_apart (by decide) h

theorem isLegal_ended {ending : String} (hEnding : ending ∈ endings) {name : String}
    (h : isPlain name = true) : IsLegal (pascalCase name ++ ending) ↔ Hyphenless name :=
  judges.pascalEnded (isEnding hEnding) h

theorem legalIdentifiers (h : comm.HasPlainNames) : LegalIdentifiers comm := by
  have hTags : ∀ kind, ∀ name ∈ comm.methodNames kind, IsLegal (pascalCase name) ↔ FitsTag name :=
    fun kind name hName => isLegal_pascalCase (h.messages kind name hName)
  have hMembers : ∀ method ∈ comm.backendMethods, IsLegal (pythonField method.name) :=
    fun method hMethod => isLegal_pythonField (h.methods method (List.mem_append_left _ hMethod))
  constructor
  case commTypes =>
    refine List.forall_mem_cons.mpr ⟨isLegal_ended (by decide) h.own, ?_⟩
    refine List.forall_mem_cons.mpr ⟨isLegal_ended (by decide) h.own, ?_⟩
    refine List.forall_mem_cons.mpr ⟨isLegal_ended (by decide) h.own, ?_⟩
    refine List.forall_mem_cons.mpr ⟨isLegal_ended (by decide) h.own, ?_⟩
    exact List.forall_mem_singleton.mpr (isLegal_ended (by decide) h.own)
  case aliases =>
    rintro entry hEntry key name hKey hName
    obtain rfl : pascalCase key = name := by
      rw [aliasOf, hKey] at hName
      exact Except.ok.inj hName
    exact isLegal_pascalCase (h.components entry hEntry key hKey)
  case paramTypes => exact fun method hMethod => isLegal_ended (by decide) (h.methods method hMethod)
  case objects =>
    intro object hObject record names hRecord hNames
    exact ⟨_, identifiers_objectOf hRecord hNames, List.forall_mem_map.mpr fun name hName =>
      isLegal_pythonField (h.keys hObject hNames name hName)⟩
  case params =>
    intro method hMethod
    exact ⟨_, identifiers_paramsOf method, List.forall_mem_map.mpr
      (List.forall_mem_map.mpr fun param hParam =>
        isLegal_pythonField (h.params method hMethod param hParam))⟩
  case tags => exact legalExactly_of_eq (names_tags comm) (hTags .request)
  case requests =>
    exact legalExactly_of_eq (names_requestChoice comm) fun name hName =>
      isLegal_ended (by decide) (h.messages .request name hName)
  case replies =>
    exact legalExactly_of_eq (names_replyChoice comm) fun name hName =>
      isLegal_ended (by decide) (h.messages .reply name hName)
  case events => exact legalExactly_of_eq (names_events comm) (hTags .event)
  case members => exact List.forall_mem_map.mpr hMembers
  case calls => exact List.forall_mem_map.mpr hMembers
  case dispatch => exact judges.function (by decide) (isEnding (by decide)) h.own
  case parseRequest => exact judges.function (by decide) (isEnding (by decide)) h.own

end Python

/-! ## TypeScript -/

namespace TypeScript

/-- The names that fit an argument. -/
def FitsArgument (name : String) : Prop := Hyphenless name ∧ name ∉ reserved

/-- The types that have the name of the comm in theirs. -/
def commTypes (comm : Comm) : List String :=
  [(unions comm).requestName, (unions comm).replyName, (eventNames comm).name, (client comm).name]

/-- The keys of the properties, as far as they can be formed. -/
def Interface.keys (interface : Interface) : List (Except Fault String) :=
  interface.fields.map fun field => field.key.label

/-- Which identifiers in the file are legal. -/
structure LegalIdentifiers (comm : Comm) : Prop where
  commTypes : ∀ name ∈ commTypes comm, IsLegal name ↔ Hyphenless comm.name
  aliases : ∀ entry ∈ comm.aliases, ∀ key name, entry.1 = .text key →
    (aliasOf comm entry).name = .ok name → (IsLegal name ↔ Hyphenless key)
  paramTypes : ∀ method ∈ comm.methods, IsLegal (paramsOf comm method).name ↔ Hyphenless method.name
  eventTypes : ∀ method ∈ comm.methods, IsLegal (eventOf comm method).name ↔ Hyphenless method.name
  objects : ∀ object ∈ comm.objects.items, ∀ interface (names : List String),
    objectOf comm object = .record interface →
    object.node.properties.map Prod.fst = names.map .text →
      ∃ keys : List String, interface.keys = keys.map .ok ∧ LegalExactly IsName Hyphenless names keys
  params : ∀ method ∈ comm.methods, ∃ keys : List String,
    (paramsOf comm method).keys = keys.map .ok ∧ (eventOf comm method).keys = keys.map .ok ∧
      LegalExactly IsName Hyphenless (method.params.map Param.name) keys
  calls : LegalExactly IsName Hyphenless (comm.methodNames .request)
    ((client comm).calls.map Call.name)
  arguments : ∀ method ∈ comm.backendMethods,
    LegalExactly IsLegal FitsArgument (method.params.map Param.name)
      ((callOf comm method).parameters.map Parameter.name) ∧
    LegalExactly IsLegal FitsArgument (method.params.map Param.name) (callOf comm method).arguments
  events : LegalExactly IsName Hyphenless (comm.methodNames .event)
    ((eventNames comm).members.map Member.name)
  eventSources : LegalExactly IsName Hyphenless (comm.methodNames .event)
    ((client comm).events.map EventSource.name)

theorem isEnding {ending : String} (h : ending ∈ endings) : IsEnding reserved ending :=
  isEnding_of_apart (by decide) h

theorem isLegal_ended {ending : String} (hEnding : ending ∈ endings) {name : String}
    (h : isPlain name = true) : IsLegal (pascalCase name ++ ending) ↔ Hyphenless name :=
  judges.pascalEnded (isEnding hEnding) h

theorem isName_iff {name : String} (h : isPlain name = true) : IsName name ↔ Hyphenless name :=
  (judges_names h).trans (and_iff_left List.not_mem_nil)

theorem isLegal_argument {name : String} (h : isPlain name = true) :
    IsLegal (camelCase name) ↔ FitsArgument name := by
  have hWords : ∀ word ∈ reserved, word.toList.all isSmallLetter = true ∧ camelCase word = word := by
    decide
  obtain ⟨hPlain, hHyphen⟩ := plain_camelCase h
  rw [judges hPlain, hHyphen, camelCase_mem_iff hWords h, FitsArgument]

theorem keys_objectOf {object : ObjectDeclaration} {interface : Interface} {names : List String}
    (hInterface : objectOf comm object = .record interface)
    (hNames : object.node.properties.map Prod.fst = names.map .text) :
    interface.keys = (names.map id).map .ok := by
  unfold objectOf at hInterface
  split at hInterface
  · cases hInterface
  · cases hInterface
    rw [Interface.keys, List.map_map, List.map_map]
    exact map_of_keys hNames fun _ _ => rfl

theorem keys_params (method : Method) :
    (paramsOf comm method).keys = ((method.params.map Param.name).map id).map .ok := by
  rw [List.map_map, List.map_map]
  exact List.map_map.trans (List.map_congr_left fun _ _ => rfl)

theorem names_calls (comm : Comm) :
    (client comm).calls.map Call.name = (comm.methodNames .request).map camelCase :=
  names_entries camelCase (fun _ => by rfl) comm.backendMethods

theorem names_eventSources (comm : Comm) : (client comm).events.map EventSource.name =
    (comm.methodNames .event).map fun name => "onDid" ++ pascalCase name :=
  names_entries (fun name => "onDid" ++ pascalCase name) (fun _ => by rfl) comm.frontendMethods

theorem legalIdentifiers (h : comm.HasPlainNames) : LegalIdentifiers comm := by
  constructor
  case commTypes =>
    refine List.forall_mem_cons.mpr ⟨isLegal_ended (by decide) h.own, ?_⟩
    refine List.forall_mem_cons.mpr ⟨isLegal_ended (by decide) h.own, ?_⟩
    refine List.forall_mem_cons.mpr ⟨isLegal_ended (by decide) h.own, ?_⟩
    exact List.forall_mem_singleton.mpr
      (judges.pascalBetween (by decide) (isEnding (by decide)) h.own)
  case aliases =>
    rintro entry hEntry key name hKey hName
    obtain rfl : pascalCase key = name := by
      rw [aliasOf, hKey] at hName
      exact Except.ok.inj hName
    rw [judges.pascal (h.components entry hEntry key hKey)]
    exact and_iff_left (pascalCase_not_mem key)
  case paramTypes => exact fun method hMethod => isLegal_ended (by decide) (h.methods method hMethod)
  case eventTypes => exact fun method hMethod => isLegal_ended (by decide) (h.methods method hMethod)
  case objects =>
    intro object hObject interface names hInterface hNames
    exact ⟨_, keys_objectOf hInterface hNames, legalExactly_of_eq rfl fun name hName =>
      isName_iff (h.keys hObject hNames name hName)⟩
  case params =>
    intro method hMethod
    exact ⟨_, keys_params method, keys_params method, legalExactly_of_eq rfl
      (List.forall_mem_map.mpr fun param hParam => isName_iff (h.params method hMethod param hParam))⟩
  case calls =>
    refine legalExactly_of_eq (names_calls comm) fun name hName => ?_
    obtain ⟨hPlain, hHyphen⟩ := plain_camelCase (h.messages .request name hName)
    exact (isName_iff hPlain).trans hHyphen
  case arguments =>
    intro method hMethod
    have hFits : ∀ name ∈ method.params.map Param.name, IsLegal (camelCase name) ↔ FitsArgument name :=
      List.forall_mem_map.mpr fun param hParam =>
        isLegal_argument (h.params method (List.mem_append_left _ hMethod) param hParam)
    exact ⟨legalExactly_of_eq (names_parameters method method.params) hFits,
      legalExactly_of_eq (names_arguments method) hFits⟩
  case events =>
    refine legalExactly_of_eq (names_events comm) fun name hName => ?_
    obtain ⟨hPlain, hHyphen⟩ := plain_pascalCase (h.messages .event name hName)
    exact (isName_iff hPlain).trans hHyphen
  case eventSources =>
    refine legalExactly_of_eq (names_eventSources comm) fun name hName => ?_
    obtain ⟨hPlain, hHyphen⟩ := plain_pascalCase (h.messages .event name hName)
    have hAll := List.all_eq_true.mpr (all_of_arePlain hPlain)
    rw [isName_iff (isPlain_append (by decide) hAll), hyphenless_append, hHyphen]
    exact and_iff_right (by decide)

end TypeScript

/-- **Which identifiers are legal.** In the files for a comm with plain names, each identifier is legal
exactly if the name that it is made from is fit for its place. -/
theorem legal_exactly (h : comm.HasPlainNames) :
    TypeScript.LegalIdentifiers comm ∧ Rust.LegalIdentifiers comm ∧ Python.LegalIdentifiers comm :=
  ⟨TypeScript.legalIdentifiers h, Rust.legalIdentifiers h, Python.legalIdentifiers h⟩

/-- A comm with one method, whose name and parameters are words of the targets. -/
def typeComm : Comm where
  name := "shop"
  backend := some
    { direction := .backend
      source := "shop-backend-openrpc.json"
      methods := [{
        name := "type"
        summary := "Type a thing"
        description := none
        params := [⟨"class", "A class", .primitive .string none, true⟩,
          ⟨"best-before", "A day", .primitive .string none, true⟩]
        result := none }]
      schemas := []
      document := [] }
  frontend := none
  hasContract := rfl

theorem hasPlainNames_typeComm : typeComm.HasPlainNames := by
  have hObjects : typeComm.objects.items = [] := List.isEmpty_iff.mp (by decide +kernel)
  constructor
  · decide
  · exact List.forall_mem_singleton.mpr (by decide)
  · refine List.forall_mem_singleton.mpr (List.forall_mem_cons.mpr ⟨by decide, ?_⟩)
    exact List.forall_mem_singleton.mpr (by decide)
  · rw [hObjects]
    exact List.forall_mem_nil _
  · exact List.forall_mem_nil _

/-- In the comm, the member of the handler in Rust and both arguments in TypeScript are illegal. -/
theorem legal_typeComm :
    typeComm.HasPlainNames ∧ ¬ Rust.IsLegal "type" ∧ ¬ TypeScript.IsLegal "class" ∧
      ¬ TypeScript.IsLegal "best-before" ∧ Rust.IsLegal "dispatch_shop_request" := by
  obtain ⟨hTypeScript, hRust, -⟩ := legal_exactly hasPlainNames_typeComm
  obtain ⟨hMember, -⟩ := List.forall₂_cons.mp hRust.members
  obtain ⟨hArguments, -⟩ := hTypeScript.arguments _ List.mem_cons_self
  obtain ⟨hFirst, hRest⟩ := List.forall₂_cons.mp hArguments
  obtain ⟨hSecond, -⟩ := List.forall₂_cons.mp hRest
  refine ⟨hasPlainNames_typeComm, ?_, ?_, ?_, hRust.dispatch⟩
  · exact fun hLegal => (hMember.mp hLegal).2 (by decide)
  · exact fun hLegal => (hFirst.mp hLegal).2 (by decide)
  · exact fun hLegal => (hSecond.mp hLegal).1 (by decide)

/-- The comm is valid without a warning, and its names are plain. The member of its handler in Rust is
`type` as it stands, which is illegal; a field with that name would be a raw identifier, which is legal. -/
theorem type_notLegal :
    validate typeComm = .ok [] ∧ typeComm.HasPlainNames ∧
      (Rust.handler typeComm).handlers.map Rust.Handler.name = ["type"] ∧ ¬ Rust.IsLegal "type" ∧
      rustField "type" = "r#type" ∧ Rust.IsLegal "r#type" := by
  have hMember : ¬ Rust.IsLegal "type" := fun hLegal =>
    ((Rust.judges (by decide)).mp hLegal).2 (by decide)
  have hField : Rust.IsLegal ("r#" ++ "type") := (Rust.isLegal_raw_iff (by decide)).mpr (by decide)
  exact ⟨by decide +kernel, hasPlainNames_typeComm, rfl, hMember, by decide, hField⟩

end CommBindings
