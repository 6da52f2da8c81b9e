import CommBindings.Proofs.Target.Distinct
import CommBindings.Proofs.Target.RevivedFields
import CommBindings.Proofs.Target.Scopes

set_option autoImplicit false

/-! # The statements of a Python file

What a Python file looks up and binds while it is imported, read off its declarations. Most of what
is looked up is a name that every file has: it comes from the head of the file or from the language
(`Use.fixed`). What is declared below the head begins with no small letter, so that it can only
stand in the way of names with a capital (`capital_intended_iff`).
-/

namespace CommBindings

theorem Naming.startsSmall_typeName {key : Key} {name : String} (h : key.typeName = .ok name) :
    Naming.startsSmall name = false := by
  unfold Scalar.typeName at h
  split at h
  · cases h
    exact Naming.startsSmall_pascalCase _
  · cases h

namespace Python

/-! ## The statements of a file -/

/-- The names that the head of a file imports. -/
def importedNames (hasProtocol : Bool) : List String :=
  ["annotations", "enum", "dataclass", "field", "fields", "Dict", "List", "NoReturn", "Optional",
    "Union"] ++ if hasProtocol then ["Protocol"] else []

/-- The names that the head of a file can bind. -/
def headerNames : List String := importedNames true ++ ["JsonData", "_revive"]

/-- The use of a name that is meant to be bound in the head of the file, or else to be one of the
language. -/
def Use.fixed (name : String) : Use := ⟨name, if name ∈ headerNames then .header else .builtin⟩

/-- The statements at the head of a file: the imports, the type of arbitrary values, and the
helper. -/
def headerStatements (hasProtocol : Bool) : List Statement :=
  (importedNames hasProtocol).map (fun name => ⟨[], [], name, .header⟩) ++
    [⟨["Union", "Dict", "str", "List", "str", "int", "float", "bool"].map Use.fixed, [], "JsonData",
      .header⟩, ⟨[], [], "_revive", .header⟩]

/-- The name with which a token begins, if it begins with one that is no reserved word. -/
def tokenUses (token : String) : List Use :=
  let name := String.ofList (token.toList.takeWhile Char.isAlpha)
  if name = "" ∨ name ∈ Naming.pythonKeywords then [] else [.fixed name]

/-- The names in a type. -/
def typeUses : TypeExpr → List Use
  | .token text => tokenUses text
  | .named name => [⟨name, .other⟩]
  | .listOf opening element closing => tokenUses opening ++ typeUses element ++ tokenUses closing

/-- The line of an attribute in the body of a class. Its type is not evaluated. -/
def Field.line (className : String) (field : Field) : Line where
  uses := [.fixed "field"]
  name := inClass className ((field.name.toOption.map FieldName.identifier).getD "")

/-- The line of the method that revives attributes, if there is one to revive. -/
def revivalLines (fields : List Field) : List Line :=
  if (fields.filterMap Field.statement?).isEmpty then [] else [⟨[], "__post_init__"⟩]

/-- The data class as a statement. -/
def Record.statement (record : Record) : Statement where
  uses := [.fixed "dataclass"]
  body := record.fields.map (Field.line record.name) ++ revivalLines record.fields
  name := record.name
  origin := .other

/-- The name for a type as a statement. A quoted type is not evaluated. -/
def Alias.statement (declared : Alias) : Statement where
  uses := if declared.isForward then [] else (declared.type.toOption.map typeUses).getD []
  body := []
  name := declared.name.toOption.getD ""
  origin := .other

/-- The declaration of an object as a statement. -/
def ObjectType.statement : ObjectType → Statement
  | dataClass record => record.statement
  | any declared => declared.statement

/-- The enumeration as a statement. -/
def Enumeration.statement (enumeration : Enumeration) (origin : Origin) : Statement where
  uses := ["enum", "str", "enum"].map Use.fixed
  body := enumeration.members.map fun member => ⟨[], inClass enumeration.name member.name⟩
  name := enumeration.name
  origin := origin

/-- The data class for a request as a statement. -/
def Request.statement (request : Request) : Statement where
  uses := [.fixed "dataclass"]
  body := request.params.toList.map (Field.line request.name) ++
    [⟨[.fixed "field", ⟨inClass request.name request.tagEnum, .tags⟩], "method"⟩,
      ⟨[.fixed "field"], "jsonrpc"⟩] ++ revivalLines request.params.toList
  name := request.name
  origin := .request request.wireName

/-- The data class for the reply of a method as a statement. -/
def Reply.statement (reply : Reply) (method : String) : Statement where
  uses := [.fixed "dataclass"]
  body := [reply.result.line reply.name]
  name := reply.name
  origin := .reply method

/-- The name for a choice of classes as a statement; it is told what the members are meant to be. -/
def Choice.statement (choice : Choice) (members : List Origin) : Statement where
  uses := if choice.members.isEmpty then [.fixed "NoReturn"]
    else .fixed "Union" :: List.zipWith Use.mk choice.members members
  body := []
  name := choice.name
  origin := .other

/-- The handler protocol as a statement. -/
def Protocol.statement (protocol : Protocol) : Statement where
  uses := [.fixed "Protocol"]
  body := protocol.handlers.map fun handler => ⟨[], inClass protocol.name handler.name⟩
  name := protocol.name
  origin := .other

/-- A function as a statement. What is in it is not evaluated. -/
def functionStatement (name : String) : Statement := ⟨[], [], name, .other⟩

variable (comm : Comm)

/-- The data classes for requests. -/
def requestStatements : List Statement := (messages comm).requests.map Request.statement

/-- The data classes for replies. -/
def replyStatements : List Statement :=
  comm.backendMethods.filterMap fun method =>
    method.reply?.map fun result => (replyOf comm method result).statement method.name

/-- What the members of the choice of requests are meant to be. -/
def requestOrigins : List Origin := comm.backendMethods.map fun method => .request method.name

/-- What the members of the choice of replies are meant to be. -/
def replyOrigins : List Origin :=
  (comm.backendMethods.filter Method.hasResult).map fun method => .reply method.name

/-- The name for the choice of requests, and then that for the choice of replies. -/
def choiceStatements : List Statement :=
  [(messages comm).requestChoice.statement (requestOrigins comm),
    (messages comm).replyChoice.statement (replyOrigins comm)]

/-- The statements of a section. -/
def statementsIn : Section → List Statement
  | .header => headerStatements comm.backend.isSome
  | .aliases => comm.aliases.map fun entry => (aliasOf comm entry).statement
  | .objects => comm.objects.items.map fun object => (objectOf comm object).statement
  | .enums => comm.enums.items.map fun declared => (enumOf declared).statement .other
  | .paramRecords => comm.methodsWithParams.map fun method => (paramsOf comm method).statement
  | .backendUnions =>
    (messages comm).tags.statement .tags ::
      (requestStatements comm ++ (replyStatements comm ++ choiceStatements comm))
  | .frontendEvents => [(eventNames comm).statement .other]
  | .client =>
    if comm.backend.isSome then
      [(handler comm).statement, functionStatement (dispatch comm).name,
        functionStatement (parseRequest comm).name]
    else []

/-- The statements of a file, in their order. -/
def fileStatements : List Statement := comm.sections.flatMap (statementsIn comm)

/-! ## Declared names -/

/-- The statement declares something under a name that does not begin with a small letter. -/
structure Statement.Declares (statement : Statement) : Prop where
  builtin : statement.origin ≠ .builtin
  header : statement.origin ≠ .header
  name : Naming.startsSmall statement.name = false

/-- The statement declares something under a coined name. -/
structure Statement.DeclaresCoined (statement : Statement) : Prop where
  builtin : statement.origin ≠ .builtin
  header : statement.origin ≠ .header
  name : ∃ stem ending, Naming.startsSmall stem = false ∧ statement.name = stem ++ Ending.text ending

theorem Statement.DeclaresCoined.declares {statement : Statement} (h : statement.DeclaresCoined) :
    statement.Declares := by
  refine ⟨h.builtin, h.header, ?_⟩
  obtain ⟨stem, ending, hStem, hName⟩ := h.name
  rw [hName]
  refine Naming.startsSmall_append hStem ?_
  cases ending <;> decide

/-- No coined name ends like the name. -/
def IsUncoined (name : String) : Prop :=
  ∀ ending : Ending, lastThree ending.text ≠ lastThree name

theorem append_ending_ne {name : String} (hName : IsUncoined name) (stem : String)
    (ending : Ending) : stem ++ ending.text ≠ name := by
  refine ne_of_lastThree ?_
  rw [lastThree_append _ _ (by cases ending <;> decide)]
  exact hName ending

theorem not_mem_of_coined {statements : List Statement} {name : String} (hName : IsUncoined name)
    (h : ∀ statement ∈ statements, statement.DeclaresCoined) :
    name ∉ statements.map Statement.name := by
  intro hMem
  obtain ⟨statement, hStatement, hSame⟩ := List.mem_map.mp hMem
  obtain ⟨stem, ending, -, hCoined⟩ := (h statement hStatement).name
  exact append_ending_ne hName stem ending (hCoined.symm.trans hSame)

/-! ## Names that every file has -/

/-- What is bound after the head of a file. -/
def headScope (hasProtocol : Bool) : Scope := extend [] (headerStatements hasProtocol)

variable {hasProtocol : Bool} {before : List Statement} {name : String}

theorem fixed_origin (name : String) :
    (Use.fixed name).origin = .header ∨ (Use.fixed name).origin = .builtin := by
  rw [Use.fixed]
  split
  · exact Or.inl rfl
  · exact Or.inr rfl

theorem fixed_isIntended_iff (hHead : (Use.fixed name).IsIntended (headScope hasProtocol))
    (hBefore : ∀ statement ∈ before, statement.Declares) :
    (Use.fixed name).IsIntended (extend (headScope hasProtocol) before) ↔
      name ∉ before.map Statement.name := by
  rw [isIntended_extend fun statement hStatement => ?_, and_iff_left hHead]
  · rfl
  · rcases fixed_origin name with hOrigin | hOrigin
    · rw [hOrigin]
      exact (hBefore statement hStatement).header.symm
    · rw [hOrigin]
      exact (hBefore statement hStatement).builtin.symm

/-- The names with a small letter that a file looks up. -/
def smallNames : List String := ["dataclass", "field", "enum", "str", "int", "float", "bool"]

/-- What begins with a small letter is safe from what a file declares. -/
theorem small_isIntended (hName : name ∈ smallNames)
    (hBefore : ∀ statement ∈ before, statement.Declares) :
    (Use.fixed name).IsIntended (extend (headScope hasProtocol) before) := by
  have hHead : ∀ name ∈ smallNames, (Use.fixed name).IsIntended (headScope hasProtocol) := by
    cases hasProtocol <;> decide
  have hSmall : ∀ name ∈ smallNames, Naming.startsSmall name = true := by
    decide
  refine (fixed_isIntended_iff (hHead name hName) hBefore).mpr fun hMem => ?_
  obtain ⟨statement, hStatement, rfl⟩ := List.mem_map.mp hMem
  have hOther := (hBefore statement hStatement).name
  rw [hSmall _ hName] at hOther
  cases hOther

/-- The names with a capital that a file looks up. -/
def capitalNames : List String := ["Union", "NoReturn", "JsonData", "List"]

theorem isUncoined_capital (h : name ∈ "Protocol" :: capitalNames) : IsUncoined name := by
  intro ending
  revert name
  cases ending <;> decide

theorem capital_isIntended (hName : name ∈ capitalNames) :
    (Use.fixed name).IsIntended (headScope hasProtocol) := by
  have hHead : ∀ name ∈ capitalNames, (Use.fixed name).IsIntended (headScope hasProtocol) := by
    cases hasProtocol <;> decide
  exact hHead name hName

theorem header_intended (hasProtocol : Bool) : Intended [] (headerStatements hasProtocol) := by
  cases hasProtocol <;> decide

theorem fixed_origin_ne {origin : Origin} (hHeader : origin ≠ .header) (hBuiltin : origin ≠ .builtin)
    (name : String) : (Use.fixed name).origin ≠ origin := by
  rcases fixed_origin name with hOrigin | hOrigin
  · rw [hOrigin]
    exact hHeader.symm
  · rw [hOrigin]
    exact hBuiltin.symm

theorem small_ne {other : String} (hName : name ∈ smallNames)
    (hOther : Naming.startsSmall other = false) : name ≠ other := by
  have hSmall : ∀ name ∈ smallNames, Naming.startsSmall name = true := by
    decide
  rintro rfl
  rw [hSmall _ hName] at hOther
  cases hOther

/-- The use is that of a name with a small letter which every file has. -/
def Use.IsSmall (use : Use) : Prop := ∃ name ∈ smallNames, use = .fixed name

variable {statements : List Statement} {capital : String}

/-- Where one name with a capital and else only names with a small letter are looked up, all depends
on what is declared under the first. -/
theorem capital_intended_iff (hHead : (Use.fixed capital).IsIntended (headScope hasProtocol))
    (hBefore : ∀ statement ∈ before, statement.Declares)
    (hDeclares : ∀ statement ∈ statements, statement.Declares)
    (hUses : ∀ statement ∈ statements, ∀ use ∈ statement.allUses,
      use.IsSmall ∨ use = .fixed capital) :
    Intended (extend (headScope hasProtocol) before) statements ↔
      (∀ statement ∈ statements, statement.SparesItself) ∧
        (∀ statement ∈ statements, .fixed capital ∈ statement.allUses →
          capital ∉ before.map Statement.name) ∧
        statements.Pairwise fun first later =>
          first.name = capital → .fixed capital ∉ later.allUses := by
  have hFixed : ∀ statement ∈ statements, ∀ use ∈ statement.allUses, ∃ name, use = .fixed name := by
    intro statement hStatement use hUse
    rcases hUses statement hStatement use hUse with ⟨name, -, hName⟩ | hName
    · exact ⟨name, hName⟩
    · exact ⟨capital, hName⟩
  have hAttribute : ∀ statement ∈ statements, ∀ use ∈ statement.allUses,
      use.origin ≠ .attribute := by
    intro statement hStatement use hUse
    obtain ⟨name, rfl⟩ := hFixed statement hStatement use hUse
    exact fixed_origin_ne Origin.noConfusion Origin.noConfusion name
  have hApart : ∀ first ∈ statements, ∀ later ∈ statements, ∀ use ∈ later.allUses,
      use.origin ≠ first.origin := by
    intro first hFirst later hLater use hUse
    obtain ⟨name, rfl⟩ := hFixed later hLater use hUse
    exact fixed_origin_ne (hDeclares first hFirst).header (hDeclares first hFirst).builtin name
  rw [intended_iff hAttribute hApart]
  refine and_congr_right' (and_congr ?_ (List.Pairwise.iff_of_mem ?_))
  · refine forall₂_congr fun statement hStatement => ⟨fun h hUse => ?_, fun h use hUse => ?_⟩
    · exact (fixed_isIntended_iff hHead hBefore).mp (h _ hUse)
    · rcases hUses statement hStatement use hUse with ⟨name, hName, rfl⟩ | rfl
      · exact small_isIntended hName hBefore
      · exact (fixed_isIntended_iff hHead hBefore).mpr (h hUse)
  · intro first later hFirst hLater
    constructor
    · rintro h rfl hUse
      exact h _ hUse rfl
    · intro h use hUse hSame
      rcases hUses later hLater use hUse with ⟨name, hName, rfl⟩ | rfl
      · exact small_ne hName (hDeclares first hFirst).name hSame
      · exact h hSame.symm hUse

/-- Where only names with a small letter are looked up, classes only have to spare themselves. -/
theorem small_intended_iff (hBefore : ∀ statement ∈ before, statement.Declares)
    (hDeclares : ∀ statement ∈ statements, statement.Declares)
    (hUses : ∀ statement ∈ statements, ∀ use ∈ statement.allUses, use.IsSmall) :
    Intended (extend (headScope hasProtocol) before) statements ↔
      ∀ statement ∈ statements, statement.SparesItself := by
  have hNone : ∀ statement ∈ statements, Use.fixed "List" ∉ statement.allUses := by
    intro statement hStatement hUse
    obtain ⟨name, hName, hSame⟩ := hUses statement hStatement _ hUse
    have hList : "List" = name := congrArg Use.name hSame
    rw [← hList] at hName
    exact absurd hName (by decide)
  rw [capital_intended_iff (capital_isIntended (by decide : "List" ∈ _)) hBefore hDeclares
    fun statement hStatement use hUse => Or.inl (hUses statement hStatement use hUse)]
  refine and_iff_left ⟨fun statement hStatement hUse => absurd hUse (hNone statement hStatement), ?_⟩
  exact List.pairwise_of_forall_mem_list fun first _ later hLater _ => hNone later hLater

end Python

end CommBindings
