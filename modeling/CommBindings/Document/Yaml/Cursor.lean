import CommBindings.Document.Value

set_option autoImplicit false

/-! # Places in a YAML text

A cursor is a place in a text: the characters from there on, and its line and column, by which
indentation is told. Past the end of the text stands the character NUL, which no text holds.
-/

namespace CommBindings.Yaml

/-- Why a text is not read: it is no YAML document, a scalar does not fit its tag, or default keys
lead from a mapping back to itself. -/
inductive Failure where
  | invalid
  | scalar (problem : ScalarProblem)
  | overlongInteger
  | endlessAlias
  deriving Repr, DecidableEq

/-- Line feed, carriage return, next line, and the line and paragraph separators. -/
def isBreak (c : Char) : Bool :=
  c = '\n' || c = '\r' || c = '\x85' || c = '\u2028' || c = '\u2029'

/-- A line break or the end of the text. -/
def isBreakOrEnd (c : Char) : Bool := c = '\x00' || isBreak c

/-- A space, a line break or the end of the text. -/
def isSpaceOrEnd (c : Char) : Bool := c = ' ' || isBreakOrEnd c

/-- A space, a tab, a line break or the end of the text. -/
def isBlankOrEnd (c : Char) : Bool := c = '\t' || isSpaceOrEnd c

/-- An ASCII letter or digit, a hyphen or a low line. -/
def isNameChar (c : Char) : Bool := c.isAlphanum || c = '-' || c = '_'

/-- A character that a YAML text may hold. -/
def isAllowed (c : Char) : Bool :=
  let n := c.toNat
  n = 9 || n = 10 || n = 13 || (32 ≤ n && n ≤ 126) || n = 0x85 || (0xA0 ≤ n && n ≤ 0xD7FF) ||
    (0xE000 ≤ n && n ≤ 0xFFFD) || 0x10000 ≤ n

/-- A place in a text: the characters from there on and how many there are, and the number of those
before it. -/
structure Cursor where
  rest : List Char
  left : Nat
  index : Nat
  line : Nat
  column : Nat

namespace Cursor

/-- The start of a text. -/
def start (text : List Char) : Cursor := ⟨text, text.length, 0, 0, 0⟩

/-- The character at a distance. -/
def peek (c : Cursor) (distance : Nat) : Char := (c.rest[distance]?).getD '\x00'

/-- The character at the place. -/
def here (c : Cursor) : Char := c.peek 0

/-- The place after the next character. The two characters of `\r\n` are one line break, and a byte
order mark takes no column. -/
def next (c : Cursor) : Cursor :=
  match c.rest with
  | [] => c
  | char :: rest =>
    if isBreak char && !(char = '\r' && rest.head? = some '\n') then
      ⟨rest, c.left - 1, c.index + 1, c.line + 1, 0⟩
    else if char = '\uFEFF' then ⟨rest, c.left - 1, c.index + 1, c.line, c.column⟩
    else ⟨rest, c.left - 1, c.index + 1, c.line, c.column + 1⟩

/-- The place after a number of characters. -/
def advance (c : Cursor) : Nat → Cursor
  | 0 => c
  | n + 1 => c.next.advance n

/-- The characters of a class that stand at the place. -/
def run (c : Cursor) (p : Char → Bool) : List Char := c.rest.takeWhile p

/-- The place after the characters of a class. -/
def skip (c : Cursor) (p : Char → Bool) : Cursor := c.advance (c.run p).length

/-- The place after spaces. -/
def skipSpaces (c : Cursor) : Cursor := c.skip (· = ' ')

/-- The place after a comment, if one begins here. -/
def skipComment (c : Cursor) : Cursor :=
  if c.here = '#' then c.skip fun char => !isBreakOrEnd char else c

/-- The line break at the place, if there is one, and the place after it. All but the separators
count as line feeds. -/
def lineBreak (c : Cursor) : List Char × Cursor :=
  if c.here = '\r' && c.peek 1 = '\n' then (['\n'], c.advance 2)
  else if c.here = '\u2028' || c.here = '\u2029' then ([c.here], c.next)
  else if isBreak c.here then (['\n'], c.next)
  else ([], c)

/-- Whether a marker of three equal characters stands here, with a blank after it. -/
def hasMarker (c : Cursor) (char : Char) : Bool :=
  c.here = char && c.peek 1 = char && c.peek 2 = char && isBlankOrEnd (c.peek 3)

/-- Whether the start or the end of a document is marked here. -/
def atDocumentMarker (c : Cursor) : Bool := c.hasMarker '-' || c.hasMarker '.'

/-- The rest of a line that may hold nothing but a comment, and its break. -/
def endLine (c : Cursor) : Except Failure Cursor :=
  let c := c.skipSpaces.skipComment
  if isBreakOrEnd c.here then .ok c.lineBreak.2 else .error .invalid

end Cursor

end CommBindings.Yaml
