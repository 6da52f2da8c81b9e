import CommBindings.Document.Yaml.Cursor
import CommBindings.Number.Numeral

set_option autoImplicit false

/-! # The texts of YAML scalars

A scalar is written plainly, between quotes, or as a block of lines. In all three a single line
break between words stands for a space; a literal block keeps its line breaks.
-/

namespace CommBindings.Yaml

/-- What is left of a line break and the empty lines after it: nothing of a single line feed but a
space, and otherwise the breaks of the empty lines. -/
def folded (lineBreak : List Char) (breaks : List Char) : List Char :=
  if lineBreak ≠ ['\n'] then lineBreak ++ breaks
  else if breaks.isEmpty then [' ']
  else breaks

/-! ## Scalars between quotes -/

/-- The character that a short escape stands for. -/
def escape? (c : Char) : Option Char :=
  [('0', '\x00'), ('a', '\x07'), ('b', '\x08'), ('t', '\t'), ('\t', '\t'), ('n', '\n'),
    ('v', '\x0b'), ('f', '\x0c'), ('r', '\r'), ('e', '\x1b'), (' ', ' '), ('"', '"'),
    ('\\', '\\'), ('/', '/'), ('N', '\x85'), ('_', '\xa0'), ('L', '\u2028'),
    ('P', '\u2029')].lookup c

/-- The number of hexadecimal digits after the letter of an escape. -/
def escapeLength? (c : Char) : Option Nat := [('x', 2), ('u', 4), ('U', 8)].lookup c

/-- The character with a code; half a surrogate pair becomes the replacement character. A code that
does not fit into 31 bits is too large even for a wrong one. -/
def charOfCode (code : Nat) : Except Failure Char :=
  if code > 0x7FFFFFFF then .error (.scalar .tooLarge)
  else if code > 0x10FFFF then .error (.scalar .noCharacter)
  else if 0xD800 ≤ code && code ≤ 0xDFFF then .ok '\uFFFD'
  else .ok (Char.ofNat code)

/-- The number written by exactly so many hexadecimal digits at the place. -/
def hexAt (c : Cursor) (length : Nat) : Except Failure Nat :=
  match Numeral.plainDigits? 16 (c.rest.take length) with
  | some digits =>
    if digits.length = length then .ok (Numeral.ofDigits 16 digits) else .error .invalid
  | none => .error .invalid

/-- The breaks of the empty lines at the place. A document marker may not stand there. -/
def emptyLines : Nat → Cursor → Except Failure (List Char × Cursor)
  | 0, c => .ok ([], c)
  | fuel + 1, c =>
    if c.atDocumentMarker then .error .invalid
    else
      let c := c.skip fun char => char = ' ' || char = '\t'
      if isBreak c.here then do
        let (lineBreak, c) := c.lineBreak
        let (breaks, c) ← emptyLines fuel c
        pure (lineBreak ++ breaks, c)
      else .ok ([], c)

/-- What the escape after a backslash stands for. An escaped line break stands for nothing. -/
def readEscape (c : Cursor) : Except Failure (List Char × Cursor) :=
  match escape? c.here with
  | some char => .ok ([char], c.next)
  | none =>
    match escapeLength? c.here with
    | some length => do
      let code ← hexAt c.next length
      let char ← charOfCode code
      pure ([char], c.next.advance length)
    | none =>
      if isBreak c.here then emptyLines (c.left + 1) c.lineBreak.2 else .error .invalid

/-- A character between quotes that stands for itself. -/
def isQuotedText (c : Char) : Bool := !(c = '\'' || c = '"' || c = '\\' || isBlankOrEnd c)

/-- The characters between quotes up to the next blank or the closing quote. -/
def quotedWord (double : Bool) : Nat → Cursor → Except Failure (List Char × Cursor)
  | 0, c => .ok ([], c)
  | fuel + 1, c => do
    let word := c.run isQuotedText
    let c := c.skip isQuotedText
    if !double && c.here = '\'' && c.peek 1 = '\'' then
      let (more, c) ← quotedWord double fuel (c.advance 2)
      pure (word ++ '\'' :: more, c)
    else if (double && c.here = '\'') || (!double && (c.here = '"' || c.here = '\\')) then
      let (more, c') ← quotedWord double fuel c.next
      pure (word ++ c.here :: more, c')
    else if double && c.here = '\\' then
      let (meant, c) ← readEscape c.next
      let (more, c) ← quotedWord double fuel c
      pure (word ++ meant ++ more, c)
    else pure (word, c)

/-- What the blanks between two words stand for. -/
def quotedBlanks (c : Cursor) : Except Failure (List Char × Cursor) := do
  let isGap := fun char => char = ' ' || char = '\t'
  let gap := c.run isGap
  let c := c.skip isGap
  if c.rest.isEmpty then .error .invalid
  else if isBreak c.here then
    let (lineBreak, c) := c.lineBreak
    let (breaks, c) ← emptyLines (c.left + 1) c
    pure (folded lineBreak breaks, c)
  else pure (gap, c)

/-- The words and blanks up to the closing quote. -/
def quotedRest (double : Bool) : Nat → Cursor → Except Failure (List Char × Cursor)
  | 0, _ => .error .invalid
  | fuel + 1, c =>
    if c.here = (if double then '"' else '\'') then .ok ([], c.next)
    else do
      let (blanks, c) ← quotedBlanks c
      let (word, c) ← quotedWord double (c.left + 1) c
      let (more, c) ← quotedRest double fuel c
      pure (blanks ++ word ++ more, c)

/-- The text of a scalar between quotes, whose first quote stands at the place. -/
def quotedScalar (double : Bool) (c : Cursor) : Except Failure (List Char × Cursor) := do
  let (word, c) ← quotedWord double (c.left + 1) c.next
  let (more, c) ← quotedRest double (c.left + 1) c
  pure (word ++ more, c)

/-! ## Plain scalars -/

/-- An indicator of flow collections. -/
def isFlowIndicator (c : Char) : Bool :=
  c = ',' || c = '[' || c = ']' || c = '{' || c = '}'

/-- The number of characters of a plain word. Inside a flow collection its indicators end a word,
and so does a question mark. -/
def plainLength (inFlow : Bool) : List Char → Nat
  | [] => 0
  | c :: rest =>
    if isBlankOrEnd c then 0
    else
      let after := rest.head?.getD '\x00'
      if c = ':' && (isBlankOrEnd after || (inFlow && isFlowIndicator after)) then 0
      else if inFlow && (c = '?' || isFlowIndicator c) then 0
      else plainLength inFlow rest + 1

/-- The breaks of the empty lines inside a plain scalar; `none` if a document marker stands at the
start of a line. -/
def plainBreaks : Nat → Cursor → Option (List Char) × Cursor
  | 0, c => (some [], c)
  | fuel + 1, c =>
    if c.here = ' ' then plainBreaks fuel c.next
    else if isBreak c.here then
      let (lineBreak, c) := c.lineBreak
      if c.atDocumentMarker then (none, c)
      else
        let (breaks, c) := plainBreaks fuel c
        (breaks.map (lineBreak ++ ·), c)
    else (some [], c)

/-- What the blanks after a plain word stand for, and whether a line ended there. No characters
mean that the scalar ends. -/
def plainBlanks (c : Cursor) : List Char × Bool × Cursor :=
  let gap := c.run (· = ' ')
  let c := c.skipSpaces
  if isBreak c.here then
    let (lineBreak, c) := c.lineBreak
    if c.atDocumentMarker then ([], true, c)
    else
      match plainBreaks (c.left + 1) c with
      | (none, c) => ([], true, c)
      | (some breaks, c) => (folded lineBreak breaks, true, c)
  else (gap, false, c)

/-- The words of a plain scalar, with `blanks` before the first. The result says also whether a key
may follow, which is so after the end of a line, and whether there was a word at all. -/
def plainWords (inFlow : Bool) (indent : Int) :
    Nat → List Char → Bool → Cursor → List Char × Bool × Cursor
  | 0, _, lineEnded, c => ([], lineEnded, c)
  | fuel + 1, blanks, lineEnded, c =>
    let length := if c.here = '#' then 0 else plainLength inFlow c.rest
    if length = 0 then ([], lineEnded, c)
    else
      let word := c.rest.take length
      let (gap, ended, after) := plainBlanks (c.advance length)
      if gap.isEmpty || after.here = '#' || (!inFlow && (after.column : Int) < indent) then
        (blanks ++ word, ended, after)
      else
        let (more, ended, after) := plainWords inFlow indent fuel gap ended after
        (blanks ++ word ++ more, ended, after)

/-! ## Blocks -/

/-- How the line breaks at the end of a block are treated: kept, dropped, or one kept. -/
inductive Chomping where
  | keep
  | strip
  | clip
  deriving DecidableEq

/-- The sign for a chomping at the place, if there is one. -/
def chompingAt (c : Cursor) : Option Chomping :=
  if c.here = '+' then some .keep else if c.here = '-' then some .strip else none

/-- The digit for an indentation at the place, if there is one. Zero is none. -/
def indentationAt (c : Cursor) : Except Failure (Option Nat) :=
  if Numeral.isDecimal c.here then
    if c.here = '0' then .error .invalid else .ok (some (c.here.toNat - 48))
  else .ok none

/-- The signs after the indicator of a block, in either order. -/
def blockHeader (c : Cursor) : Except Failure (Chomping × Option Nat × Cursor) := do
  let (chomping, indentation, c) ← (match chompingAt c with
    | some chomping => do
      let indentation ← indentationAt c.next
      pure (chomping, indentation, if indentation.isSome then c.next.next else c.next)
    | none => do
      let indentation ← indentationAt c
      match indentation with
      | none => pure (Chomping.clip, none, c)
      | some _ =>
        match chompingAt c.next with
        | some chomping => pure (chomping, indentation, c.next.next)
        | none => pure (Chomping.clip, indentation, c.next)
    : Except Failure (Chomping × Option Nat × Cursor))
  if isSpaceOrEnd c.here then
    let c ← c.endLine
    pure (chomping, indentation, c)
  else .error .invalid

/-- The empty lines before the first line of a block, and the largest indentation among them and of
that line. -/
def leadingLines : Nat → Nat → Cursor → List Char × Nat × Cursor
  | 0, indent, c => ([], indent, c)
  | fuel + 1, indent, c =>
    if c.here = ' ' then leadingLines fuel (max indent c.next.column) c.next
    else if isBreak c.here then
      let (lineBreak, c) := c.lineBreak
      let (breaks, indent, c) := leadingLines fuel indent c
      (lineBreak ++ breaks, indent, c)
    else ([], indent, c)

/-- The place after at most so many columns of spaces. -/
def skipIndent (indent : Int) (c : Cursor) : Cursor :=
  let spaces := (c.run (· = ' ')).length
  c.advance (min spaces (indent - c.column).toNat)

/-- The empty lines inside a block, and the place after the indentation of the next line. -/
def blockBreaks (indent : Int) : Nat → Cursor → List Char × Cursor
  | 0, c => ([], c)
  | fuel + 1, c =>
    let c := skipIndent indent c
    if isBreak c.here then
      let (lineBreak, c) := c.lineBreak
      let (breaks, c) := blockBreaks indent fuel c
      (lineBreak ++ breaks, c)
    else ([], c)

/-- Whether a line of a block goes on at the place. -/
def inBlock (indent : Int) (c : Cursor) : Bool := (c.column : Int) = indent && !c.rest.isEmpty

/-- The lines of a block after `breaks`, with the breaks at its end set apart: that of its last line
and those of the empty lines after it. -/
def blockLines (fold : Bool) (indent : Int) :
    Nat → List Char → Cursor → List Char × List Char × List Char × Cursor
  | 0, breaks, c => ([], [], breaks, c)
  | fuel + 1, breaks, c =>
    if !inBlock indent c then ([], [], breaks, c)
    else
      let startsWithWord := !(c.here = ' ' || c.here = '\t')
      let isText := fun char => !isBreakOrEnd char
      let line := c.run isText
      let (lineBreak, c) := (c.skip isText).lineBreak
      let (more, c) := blockBreaks indent (c.left + 1) c
      if inBlock indent c then
        let joint :=
          if fold && lineBreak = ['\n'] && startsWithWord && !(c.here = ' ' || c.here = '\t') then
            (if more.isEmpty then [' '] else [])
          else lineBreak
        let (text, lastBreak, trailing, c) := blockLines fold indent fuel more c
        (breaks ++ line ++ joint ++ text, lastBreak, trailing, c)
      else (breaks ++ line, lineBreak, more, c)

/-- The text of a block, whose indicator stands at the place, inside a collection with the given
indentation. -/
def blockScalar (fold : Bool) (outer : Int) (c : Cursor) :
    Except Failure (List Char × Cursor) := do
  let (chomping, indentation, c) ← blockHeader c.next
  let least : Int := max (outer + 1) 1
  let (indent, breaks, c) := match indentation with
    | none =>
      let (breaks, widest, c) := leadingLines (c.left + 1) 0 c
      (max least widest, breaks, c)
    | some n =>
      let indent := least + n - 1
      let (breaks, c) := blockBreaks indent (c.left + 1) c
      (indent, breaks, c)
  let (text, lastBreak, trailing, c) := blockLines fold indent (c.left + 1) breaks c
  let ending := match chomping with
    | .keep => lastBreak ++ trailing
    | .clip => lastBreak
    | .strip => []
  pure (text ++ ending, c)

end CommBindings.Yaml
