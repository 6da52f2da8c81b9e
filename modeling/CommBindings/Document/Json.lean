import CommBindings.Document.Value
import CommBindings.Number.Numeral

set_option autoImplicit false

/-! # JSON documents

Reading a JSON text. A fault says what was wrong and at which character. Besides the standard
grammar the words `NaN`, `Infinity` and `-Infinity` are read as numbers, and of two entries with
one key the last counts.
-/

namespace CommBindings.Json

/-- What can be wrong with a JSON text. -/
inductive Problem where
  | byteOrderMark
  | valueExpected
  | nameExpected
  | colonExpected
  | commaExpected
  | unterminatedString
  | controlCharacter
  | badEscape
  | badUnicodeEscape
  | extraData
  deriving Repr, DecidableEq

/-- The wording of a problem. -/
def Problem.message : Problem → String
  | byteOrderMark => "Unexpected UTF-8 BOM (decode using utf-8-sig)"
  | valueExpected => "Expecting value"
  | nameExpected => "Expecting property name enclosed in double quotes"
  | colonExpected => "Expecting ':' delimiter"
  | commaExpected => "Expecting ',' delimiter"
  | unterminatedString => "Unterminated string starting at"
  | controlCharacter => "Invalid control character at"
  | badEscape => "Invalid \\escape"
  | badUnicodeEscape => "Invalid \\uXXXX escape"
  | extraData => "Extra data"

/-- Why a text cannot be read: a problem at a place, told by the number of characters from there
to the end of the text, or an integer with too many digits. -/
inductive Failure where
  | problem (problem : Problem) (remaining : Nat)
  | overlongInteger
  deriving Repr, DecidableEq

/-- A reader of a part of a text, which returns what it read and the characters after it. -/
abbrev Reading (α : Type) := Except Failure (α × List Char)

/-- White space between the tokens. -/
def isSpace (c : Char) : Bool := c = ' ' || c = '\t' || c = '\n' || c = '\r'

/-- The characters from the next token on. -/
def skipSpace (text : List Char) : List Char := text.dropWhile isSpace

/-- Fails at the place where the given characters begin. -/
def failAt {α : Type} (problem : Problem) (place : List Char) : Except Failure α :=
  .error (.problem problem place.length)

/-- The number written by four hexadecimal digits. -/
def hexUnit? (a b c d : Char) : Option Nat :=
  (Numeral.plainDigits? 16 [a, b, c, d]).map (Numeral.ofDigits 16)

/-- The first half of a pair of units. -/
def isHighUnit (unit : Nat) : Bool := 0xD800 ≤ unit && unit ≤ 0xDBFF

/-- The second half of a pair of units. -/
def isLowUnit (unit : Nat) : Bool := 0xDC00 ≤ unit && unit ≤ 0xDFFF

/-- The character for a unit that is not part of a pair; half a pair becomes the replacement
character. -/
def unitChar (unit : Nat) : Char :=
  if isHighUnit unit || isLowUnit unit then '\uFFFD' else Char.ofNat unit

/-- The character for a pair of units. -/
def pairChar (high low : Nat) : Char :=
  Char.ofNat (0x10000 + (high - 0xD800) * 0x400 + (low - 0xDC00))

/-- The character that a short escape stands for. -/
def shortEscape? (c : Char) : Option Char :=
  if c = '"' then some '"'
  else if c = '\\' then some '\\'
  else if c = '/' then some '/'
  else if c = 'b' then some '\x08'
  else if c = 'f' then some '\x0c'
  else if c = 'n' then some '\n'
  else if c = 'r' then some '\r'
  else if c = 't' then some '\t'
  else none

/-- Puts a character in front of what is read after it. -/
def before (c : Char) : Reading (List Char) → Reading (List Char)
  | .ok (chars, rest) => .ok (c :: chars, rest)
  | .error failure => .error failure

/-- The characters of a string up to its closing quote. `opening` is the text from the opening quote
on. -/
def stringBody (opening : List Char) : List Char → Reading (List Char)
  | [] => failAt .unterminatedString opening
  | '"' :: rest => .ok ([], rest)
  | ['\\'] => failAt .unterminatedString opening
  | '\\' :: 'u' :: a :: b :: c :: d :: '\\' :: 'u' :: e :: f :: g :: h :: x :: more =>
    match hexUnit? a b c d with
    | none => failAt .badUnicodeEscape
        ('u' :: a :: b :: c :: d :: '\\' :: 'u' :: e :: f :: g :: h :: x :: more)
    | some high =>
      if isHighUnit high then
        match hexUnit? e f g h with
        | none => failAt .badUnicodeEscape ('u' :: e :: f :: g :: h :: x :: more)
        | some low =>
          if isLowUnit low then before (pairChar high low) (stringBody opening (x :: more))
          else
            before (unitChar high)
              (stringBody opening ('\\' :: 'u' :: e :: f :: g :: h :: x :: more))
      else
        before (unitChar high)
          (stringBody opening ('\\' :: 'u' :: e :: f :: g :: h :: x :: more))
  | '\\' :: 'u' :: a :: b :: c :: d :: x :: more =>
    match hexUnit? a b c d with
    | none => failAt .badUnicodeEscape ('u' :: a :: b :: c :: d :: x :: more)
    | some unit => before (unitChar unit) (stringBody opening (x :: more))
  | '\\' :: 'u' :: rest => failAt .badUnicodeEscape ('u' :: rest)
  | '\\' :: c :: rest =>
    match shortEscape? c with
    | some meant => before meant (stringBody opening rest)
    | none => failAt .badEscape ('\\' :: c :: rest)
  | c :: rest =>
    if c.toNat < 32 then failAt .controlCharacter (c :: rest)
    else before c (stringBody opening rest)
termination_by text => text.length
decreasing_by all_goals simp only [List.length_cons]; omega

/-- The digits of an exponent, with its mark and sign, if there is one. -/
def splitExponent (text : List Char) : List Char × List Char :=
  match text with
  | mark :: rest =>
    if mark = 'e' || mark = 'E' then
      let (sign, digits) := match rest with
        | '+' :: more => (['+'], more)
        | '-' :: more => (['-'], more)
        | more => ([], more)
      if (digits.takeWhile Numeral.isDecimal).isEmpty then ([], text)
      else (mark :: sign ++ digits.takeWhile Numeral.isDecimal, digits.dropWhile Numeral.isDecimal)
    else ([], text)
  | [] => ([], [])

/-- The digits after a decimal point, if there is a point with a digit after it. -/
def splitFraction (text : List Char) : List Char × List Char :=
  match text with
  | '.' :: rest =>
    if (rest.takeWhile Numeral.isDecimal).isEmpty then ([], text)
    else (rest.takeWhile Numeral.isDecimal, rest.dropWhile Numeral.isDecimal)
  | _ => ([], text)

/-- The digits of an integer, which begins with a zero only if it is zero. -/
def splitInteger (text : List Char) : List Char × List Char :=
  match text with
  | '0' :: rest => (['0'], rest)
  | _ => (text.takeWhile Numeral.isDecimal, text.dropWhile Numeral.isDecimal)

/-- Reads a number; without a point or an exponent it is an integer. -/
def readNumber (text : List Char) : Reading Value :=
  let (negative, unsigned) := match text with
    | '-' :: rest => (true, rest)
    | _ => (false, text)
  let (whole, afterWhole) := splitInteger unsigned
  if whole.isEmpty then failAt .valueExpected text
  else
    let (fraction, afterFraction) := splitFraction afterWhole
    let (exponent, rest) := splitExponent afterFraction
    if fraction.isEmpty && exponent.isEmpty then
      if whole.length > Numeral.maxDigits then .error .overlongInteger
      else
        let n : Int := Numeral.decimalValue whole
        .ok (.scalar (.int (if negative then -n else n)), rest)
    else
      let power := (Numeral.readExponent? exponent).getD 0 - fraction.length
      let digits := Numeral.decimalValue (whole ++ fraction)
      .ok (.scalar (.float (Double.ofDecimal negative digits power)), rest)

/-- The words that stand for a value. -/
def words : List (List Char × Scalar) := [
  ("null".toList, .null), ("true".toList, .bool true), ("false".toList, .bool false),
  ("NaN".toList, .float Double.nan), ("Infinity".toList, .float (Double.infinity false)),
  ("-Infinity".toList, .float (Double.infinity true))]

/-- The value of the word that the text begins with, and the characters after it. -/
def readWord? (text : List Char) : Option (Value × List Char) :=
  (words.find? fun word => word.1.isPrefixOf text).map fun word =>
    (.scalar word.2, text.drop word.1.length)

mutual

/-- Reads a value that begins with the first character. -/
def readValue : Nat → List Char → Reading Value
  | 0, text => failAt .valueExpected text
  | fuel + 1, text =>
    match text with
    | '"' :: rest =>
      match stringBody text rest with
      | .ok (chars, rest) => .ok (.text (String.ofList chars), rest)
      | .error failure => .error failure
    | '[' :: rest =>
      match skipSpace rest with
      | ']' :: rest => .ok (.list [] none, rest)
      | rest =>
        match readItems fuel rest with
        | .ok (items, rest) => .ok (.list items none, rest)
        | .error failure => .error failure
    | '{' :: rest =>
      match skipSpace rest with
      | '}' :: rest => .ok (.mapping [] none, rest)
      | rest =>
        match readMembers fuel rest with
        | .ok (members, rest) => .ok (.mapping (dedupEntries members) none, rest)
        | .error failure => .error failure
    | _ =>
      match readWord? text with
      | some result => .ok result
      | none => readNumber text

/-- Reads the items of a list up to its closing bracket. -/
def readItems : Nat → List Char → Except Failure (List Value × List Char)
  | 0, text => failAt .valueExpected text
  | fuel + 1, text => do
    let (item, rest) ← readValue fuel text
    match skipSpace rest with
    | ']' :: rest => pure ([item], rest)
    | ',' :: rest =>
      let (items, rest) ← readItems fuel (skipSpace rest)
      pure (item :: items, rest)
    | rest => failAt .commaExpected rest

/-- Reads the members of an object up to its closing brace. -/
def readMembers : Nat → List Char → Except Failure (List (Key × Value) × List Char)
  | 0, text => failAt .nameExpected text
  | fuel + 1, text =>
    match text with
    | '"' :: rest => do
      let (name, rest) ← stringBody text rest
      match skipSpace rest with
      | ':' :: rest =>
        let (value, rest) ← readValue fuel (skipSpace rest)
        let member := (Scalar.text (String.ofList name), value)
        match skipSpace rest with
        | '}' :: rest => pure ([member], rest)
        | ',' :: rest =>
          let (members, rest) ← readMembers fuel (skipSpace rest)
          pure (member :: members, rest)
        | rest => failAt .commaExpected rest
      | rest => failAt .colonExpected rest
    | _ => failAt .nameExpected text

end

/-- Reads a whole text. Every level of nesting takes two steps and at least one character. -/
def read (text : List Char) : Except Failure Value :=
  match text with
  | '\uFEFF' :: _ => failAt .byteOrderMark text
  | _ =>
    match readValue (2 * text.length + 2) (skipSpace text) with
    | .error failure => .error failure
    | .ok (value, rest) =>
      match skipSpace rest with
      | [] => .ok value
      | rest => failAt .extraData rest

/-- The number of line feeds before a place. -/
def linesBefore (text : List Char) (position : Nat) : Nat := (text.take position).count '\n'

/-- The distance of a place from the last line feed before it, or from the start of the text. -/
def columnAt (text : List Char) (position : Nat) : Nat :=
  ((text.take position).reverse.takeWhile (· ≠ '\n')).length + 1

/-- The text of a problem with its place as line, column and character. -/
def problemMessage (text : List Char) (problem : Problem) (remaining : Nat) : String :=
  let position := text.length - remaining
  problem.message ++ ": line " ++ toString (linesBefore text position + 1) ++ " column " ++
    toString (columnAt text position) ++ " (char " ++ toString position ++ ")"

end CommBindings.Json
