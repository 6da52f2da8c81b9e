import CommBindings.Text.Printable

set_option autoImplicit false

/-! # Quoted text

Three ways to write a text between quotes. The *single* form escapes only the quote and the
backslash. The *plain* form is readable as JSON and holds nothing but printable ASCII. The *shown*
form is for messages: it prefers single quotes and escapes what does not print.
-/

namespace CommBindings.Text.Quoted

/-- The lower-case hexadecimal digit of a value below sixteen. -/
def hexDigit (n : Nat) : Char :=
  if n < 10 then Char.ofNat (48 + n) else Char.ofNat (87 + n)

/-- `width` lower-case hexadecimal digits of a number, the most significant first. -/
def hexDigits : Nat → Nat → List Char
  | 0, _ => []
  | width + 1, n => hexDigits width (n / 16) ++ [hexDigit (n % 16)]

/-- One character between single quotes. -/
def singleChar (c : Char) : List Char :=
  if c = '\\' then ['\\', '\\'] else if c = '\'' then ['\\', '\''] else [c]

/-- The text between single quotes, with a backslash before each quote and backslash. -/
def single (text : String) : String :=
  String.ofList ('\'' :: text.toList.flatMap singleChar ++ ['\''])

/-- The escape `\uXXXX` of a sixteen-bit unit. -/
def unitEscape (unit : Nat) : List Char := ['\\', 'u'] ++ hexDigits 4 unit

/-- One character between double quotes: printable ASCII stands for itself, and a character
outside the basic plane is written as its two surrogate units. -/
def plainChar (c : Char) : List Char :=
  if c = '"' then ['\\', '"']
  else if c = '\\' then ['\\', '\\']
  else if c = '\n' then ['\\', 'n']
  else if c = '\r' then ['\\', 'r']
  else if c = '\t' then ['\\', 't']
  else if c = '\x0c' then ['\\', 'f']
  else if c = '\x08' then ['\\', 'b']
  else if 32 ≤ c.toNat && c.toNat ≤ 126 then [c]
  else if c.toNat < 0x10000 then unitEscape c.toNat
  else
    let offset := c.toNat - 0x10000
    unitEscape (0xD800 + offset / 0x400) ++ unitEscape (0xDC00 + offset % 0x400)

/-- The text between double quotes, in printable ASCII. -/
def plain (text : String) : String :=
  String.ofList ('"' :: text.toList.flatMap plainChar ++ ['"'])

/-- One character of a shown text between the given quotes. -/
def shownChar (quote : Char) (c : Char) : List Char :=
  if c = quote || c = '\\' then ['\\', c]
  else if c = '\n' then ['\\', 'n']
  else if c = '\r' then ['\\', 'r']
  else if c = '\t' then ['\\', 't']
  else if isPrintable c then [c]
  else if c.toNat < 0x100 then ['\\', 'x'] ++ hexDigits 2 c.toNat
  else if c.toNat < 0x10000 then ['\\', 'u'] ++ hexDigits 4 c.toNat
  else ['\\', 'U'] ++ hexDigits 8 c.toNat

/-- The text as messages show it: between single quotes, or between double quotes when it holds a
single quote and no double one. -/
def shown (text : String) : String :=
  let chars := text.toList
  let quote := if chars.contains '\'' && !chars.contains '"' then '"' else '\''
  String.ofList (quote :: chars.flatMap (shownChar quote) ++ [quote])

end CommBindings.Text.Quoted
