import CommBindings.Text.Digit
import CommBindings.Text.LetterCase
import CommBindings.Text.Word

set_option autoImplicit false

/-! # Names

Contracts name things in snake case, and enum values may even be comparison operators. From such
a name this module derives the names used in generated code: camel case, Pascal case, a member of
an enum, a module, and a field that is no reserved word.
-/

namespace CommBindings.Naming

open CommBindings.Text

/-- A comparison operator is spelled out; any other character stays. -/
def spellOperator (c : Char) : List Char :=
  if c = '=' then ['E', 'q']
  else if c = '!' then ['N', 'o', 't']
  else if c = '<' then ['L', 't']
  else if c = '>' then ['G', 't']
  else [c]

/-- An ASCII lower-case letter. -/
def isSmallLetter (c : Char) : Bool := 'a' ≤ c && c ≤ 'z'

/-- Drops each low line before a small letter and makes the letter a capital. -/
def joinWords : List Char → List Char
  | '_' :: c :: rest =>
    if isSmallLetter c then c.toUpper :: joinWords rest else '_' :: joinWords (c :: rest)
  | c :: rest => c :: joinWords rest
  | [] => []

/-- The characters of a name in camel case. -/
def camelChars (name : List Char) : List Char := joinWords (name.flatMap spellOperator)

/-- The name in camel case: operators spelled out, words joined with capitals. -/
def camelCase (name : String) : String := String.ofList (camelChars name.toList)

/-- The first character in upper case if it is a lower-case one. -/
def capitalized : List Char → List Char
  | [] => []
  | c :: rest => if isLowercase c then upperOf c ++ rest else c :: rest

/-- The name in Pascal case: camel case that begins with a capital. -/
def pascalCase (name : String) : String := String.ofList (capitalized (camelChars name.toList))

/-- A character inside an identifier; what is no word character becomes a low line. -/
def wordOrLowLine (c : Char) : Char := if isWord c then c else '_'

/-- A low line in front of characters that do not begin an identifier. -/
def guardFirst : List Char → List Char
  | [] => ['_']
  | c :: rest => if isDigit c then '_' :: c :: rest else c :: rest

/-- The member that stands for an enum value: Pascal case, with a low line for each character
that no identifier may hold. -/
def enumMember (value : String) : String :=
  String.ofList (guardFirst ((pascalCase value).toList.map wordOrLowLine))

/-- Low lines in place of hyphens. -/
def withoutHyphens (name : String) : String :=
  String.ofList (name.toList.map fun c => if c = '-' then '_' else c)

/-- The name of the module for a comm. -/
def moduleName (name : String) : String := withoutHyphens (lower name)

/-- The reserved words of Rust that a raw identifier can escape, and the others. -/
def rustKeywords : List String := [
  "as", "async", "await", "break", "const", "continue", "crate", "dyn", "else", "enum", "extern",
  "false", "fn", "for", "if", "impl", "in", "let", "loop", "match", "mod", "move", "mut", "pub",
  "ref", "return", "self", "Self", "static", "struct", "super", "trait", "true", "type", "union",
  "unsafe", "use", "where", "while"]

/-- The reserved words of Python. -/
def pythonKeywords : List String := [
  "False", "None", "True", "and", "as", "assert", "async", "await", "break", "class", "continue",
  "def", "del", "elif", "else", "except", "finally", "for", "from", "global", "if", "import", "in",
  "is", "lambda", "nonlocal", "not", "or", "pass", "raise", "return", "try", "while", "with",
  "yield"]

/-- A field in Rust: a reserved word is written as a raw identifier. -/
def rustField (name : String) : String :=
  let field := withoutHyphens name
  if rustKeywords.contains field then "r#" ++ field else field

/-- An attribute in Python: a reserved word gets a low line at its end. -/
def pythonField (name : String) : String :=
  let field := withoutHyphens name
  if pythonKeywords.contains field then field ++ "_" else field

/-- The type of a method's parameters. -/
def paramsName (method : String) : String := pascalCase method ++ "Params"

end CommBindings.Naming
