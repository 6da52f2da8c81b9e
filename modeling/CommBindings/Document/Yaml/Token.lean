import CommBindings.Document.Yaml.Scalar
import CommBindings.Text.Utf8

set_option autoImplicit false

/-! # YAML tokens

The tokens of a YAML text. Collections may be told by indentation alone, so the starts and ends of
blocks are tokens of their own; and since a key is only known by the colon after it, its token is
put in front of tokens that were found before. The places where a key may begin are remembered
until the colon comes or cannot come any more.
-/

namespace CommBindings.Yaml

/-- The tokens. A tag has a handle and a suffix, or a suffix alone. -/
inductive Token where
  | streamEnd
  | versionDirective (major : Nat)
  | tagDirective (handle replacement : List Char)
  | otherDirective
  | documentStart
  | documentEnd
  | blockSequenceStart
  | blockMappingStart
  | blockEnd
  | flowSequenceStart
  | flowSequenceEnd
  | flowMappingStart
  | flowMappingEnd
  | blockEntry
  | flowEntry
  | key
  | value
  | aliasOf (name : List Char)
  | anchor (name : List Char)
  | tag (handle : Option (List Char)) (suffix : List Char)
  | scalar (text : List Char) (isPlain : Bool)
  deriving Repr, DecidableEq

/-- A place where a key may have begun: the number of tokens before it, and whether it must be a
key because nothing else can stand there. -/
structure KeyCandidate where
  tokenNumber : Nat
  isRequired : Bool
  index : Nat
  line : Nat
  column : Nat

/-- The state of finding tokens. `tokens` are those found, the last first, and `count` is their
number; `level` is the number of flow collections that are open; `candidates` are the places where a
key may have begun, with their levels. -/
structure Scanner where
  cursor : Cursor
  tokens : List Token
  count : Nat
  level : Int
  indent : Int
  outerIndents : List Int
  keyAllowed : Bool
  candidates : List (Int × KeyCandidate)

namespace Scanner

/-- The state before the first token. -/
def start (text : List Char) : Scanner :=
  ⟨Cursor.start text, [], 0, 0, -1, [], true, []⟩

/-- Whether a flow collection is open. -/
def inFlow (s : Scanner) : Bool := s.level ≠ 0

/-- The column of the place, as an indentation. -/
def column (s : Scanner) : Int := s.cursor.column

/-- The state after a token was found. -/
def push (s : Scanner) (token : Token) : Scanner :=
  { s with tokens := token :: s.tokens, count := s.count + 1 }

/-- The state at another place. -/
def moveTo (s : Scanner) (cursor : Cursor) : Scanner := { s with cursor := cursor }

/-- The state after a token of so many characters. -/
def take (s : Scanner) (length : Nat) (token : Token) : Scanner :=
  (s.moveTo (s.cursor.advance length)).push token

/-- A list with an item put behind the first `count` ones. -/
def insertBehind {α : Type} (item : α) : Nat → List α → List α
  | 0, items => item :: items
  | _, [] => [item]
  | count + 1, first :: rest => first :: insertBehind item count rest

/-- The state with a token put where so many tokens had been found. -/
def insertAt (s : Scanner) (number : Nat) (token : Token) : Scanner :=
  { s with tokens := insertBehind token (s.count - number) s.tokens, count := s.count + 1 }

/-- Ends the blocks that are indented further than the column. -/
def unwind (s : Scanner) (column : Int) : Scanner :=
  if s.inFlow then s
  else
    let ended := (s.indent :: s.outerIndents).takeWhile (· > column)
    let kept := (s.indent :: s.outerIndents).drop ended.length
    { s with
      tokens := ended.map (fun _ => Token.blockEnd) ++ s.tokens
      count := ended.length + s.count
      indent := kept.head?.getD (-1)
      outerIndents := kept.drop 1 }

/-- Begins a block at the column if it is indented further than the block around it. -/
def beginBlock (s : Scanner) (column : Int) : Option Scanner :=
  if s.indent < column then
    some { s with indent := column, outerIndents := s.indent :: s.outerIndents }
  else none

/-- Forgets the places where a key cannot have begun any more: a key stands on one line and is not
longer than 1024 characters. -/
def dropStale (s : Scanner) : Except Failure Scanner :=
  let isStale := fun (entry : Int × KeyCandidate) =>
    entry.2.line ≠ s.cursor.line || s.cursor.index - entry.2.index > 1024
  if s.candidates.any fun entry => isStale entry && entry.2.isRequired then .error .invalid
  else .ok { s with candidates := s.candidates.filter fun entry => !isStale entry }

/-- Forgets the place where a key may have begun on the present level. -/
def dropCandidate (s : Scanner) : Except Failure Scanner :=
  match s.candidates.lookup s.level with
  | some candidate =>
    if candidate.isRequired then .error .invalid
    else .ok { s with candidates := s.candidates.filter fun entry => entry.1 ≠ s.level }
  | none => .ok s

/-- Remembers that a key may begin at the place. -/
def saveCandidate (s : Scanner) : Except Failure Scanner :=
  if s.keyAllowed then do
    let s ← s.dropCandidate
    let candidate : KeyCandidate :=
      { tokenNumber := s.count
        isRequired := !s.inFlow && s.indent = s.column
        index := s.cursor.index
        line := s.cursor.line
        column := s.cursor.column }
    pure { s with candidates := (s.level, candidate) :: s.candidates }
  else .ok s

/-- The state in which a key may begin next, or not. -/
def allowKey (s : Scanner) (allowed : Bool) : Scanner := { s with keyAllowed := allowed }

/-! ## Between the tokens -/

/-- The state at the next token: after spaces, comments and line breaks. At the start of a line a
key may begin. -/
def skipToToken : Nat → Scanner → Scanner
  | 0, s => s
  | fuel + 1, s =>
    let cursor := s.cursor.skipSpaces.skipComment
    if isBreak cursor.here then
      let s := s.moveTo cursor.lineBreak.2
      skipToToken fuel (if s.inFlow then s else s.allowKey true)
    else s.moveTo cursor

/-- The state after a byte order mark at the start of the text. -/
def skipByteOrderMark (s : Scanner) : Scanner :=
  if s.cursor.index = 0 && s.cursor.here = '\uFEFF' then s.moveTo s.cursor.next else s

/-! ## Directives, anchors and tags -/

/-- The number of a version at the place. -/
def versionNumber (c : Cursor) : Except Failure (Nat × Cursor) :=
  let digits := c.run Numeral.isDecimal
  if digits.isEmpty then .error .invalid
  else if digits.length > Numeral.maxDigits then .error .overlongInteger
  else .ok (Numeral.decimalValue digits, c.skip Numeral.isDecimal)

/-- The directive for a version of YAML, after its name. -/
def versionDirective (c : Cursor) : Except Failure (Token × Cursor) := do
  let (major, c) ← versionNumber c.skipSpaces
  if c.here ≠ '.' then .error .invalid
  else
    let (_, c) ← versionNumber c.next
    if isSpaceOrEnd c.here then pure (.versionDirective major, c) else .error .invalid

/-- The handle of a tag at the place: an exclamation mark, alone or closed by another one. -/
def tagHandle (c : Cursor) : Except Failure (List Char × Cursor) :=
  if c.here ≠ '!' then .error .invalid
  else if c.peek 1 = ' ' then .ok (['!'], c.next)
  else
    let name := c.next.run isNameChar
    let c := c.next.skip isNameChar
    if c.here = '!' then .ok ('!' :: name ++ ['!'], c.next) else .error .invalid

/-- A character of a tag that stands for itself. -/
def isTagChar (c : Char) : Bool :=
  isNameChar c || ";/?:@&=+$,.!~*'()[]".toList.contains c

/-- The bytes written as percent signs with two hexadecimal digits each. -/
def percentBytes : Nat → Cursor → Except Failure (List UInt8 × Cursor)
  | 0, c => .ok ([], c)
  | fuel + 1, c =>
    if c.here = '%' then do
      let code ← hexAt c.next 2
      let (more, c) ← percentBytes fuel (c.advance 3)
      pure (UInt8.ofNat code :: more, c)
    else .ok ([], c)

/-- The characters of a tag at the place. -/
def tagChars : Nat → Cursor → Except Failure (List Char × Cursor)
  | 0, c => .ok ([], c)
  | fuel + 1, c => do
    let plain := c.run isTagChar
    let c := c.skip isTagChar
    if c.here = '%' then
      let (bytes, c) ← percentBytes (c.left + 1) c
      match Utf8.decode ⟨bytes.toArray⟩ with
      | .error _ => .error .invalid
      | .ok text =>
        let (more, c) ← tagChars fuel c
        pure (plain ++ text.toList ++ more, c)
    else pure (plain, c)

/-- The characters of a tag at the place, of which there must be one. -/
def tagText (c : Cursor) : Except Failure (List Char × Cursor) :=
  if isTagChar c.here || c.here = '%' then tagChars (c.left + 1) c else .error .invalid

/-- The directive for a tag handle, after its name. -/
def tagDirective (c : Cursor) : Except Failure (Token × Cursor) := do
  let (handle, c) ← tagHandle c.skipSpaces
  if c.here ≠ ' ' then .error .invalid
  else
    let (replacement, c) ← tagText c.skipSpaces
    if isSpaceOrEnd c.here then pure (.tagDirective handle replacement, c) else .error .invalid

/-- The directive at the place. -/
def directive (c : Cursor) : Except Failure (Token × Cursor) := do
  let name := c.next.run isNameChar
  let c := c.next.skip isNameChar
  if name.isEmpty || !isSpaceOrEnd c.here then .error .invalid
  else
    let (token, c) ← (if name = "YAML".toList then versionDirective c
      else if name = "TAG".toList then tagDirective c
      else pure (.otherDirective, c.skip fun char => !isBreakOrEnd char)
      : Except Failure (Token × Cursor))
    let c ← c.endLine
    pure (token, c)

/-- The name after the sign of an anchor or an alias. -/
def anchorName (c : Cursor) : Except Failure (List Char × Cursor) :=
  let name := c.next.run isNameChar
  let c := c.next.skip isNameChar
  if name.isEmpty then .error .invalid
  else if isBlankOrEnd c.here || "?:,]\x7d%@\x60".toList.contains c.here then .ok (name, c)
  else .error .invalid

/-- Whether the tag at the place has a handle that is closed by a second exclamation mark. -/
def hasHandle (c : Cursor) : Bool :=
  (c.next.rest.takeWhile fun char => !isSpaceOrEnd char).contains '!'

/-- The tag at the place. -/
def tagToken (c : Cursor) : Except Failure (Token × Cursor) := do
  let (token, c) ← (
    if c.peek 1 = '<' then do
      let (suffix, c) ← tagText (c.advance 2)
      if c.here = '>' then pure (Token.tag none suffix, c.next) else .error .invalid
    else if isBlankOrEnd (c.peek 1) then pure (.tag none ['!'], c.next)
    else do
      let (handle, c) ← if hasHandle c then tagHandle c else pure (['!'], c.next)
      let (suffix, c) ← tagText c
      pure (.tag (some handle) suffix, c)
    : Except Failure (Token × Cursor))
  if isSpaceOrEnd c.here then pure (token, c) else .error .invalid

/-! ## The next token -/

/-- Ends all blocks before something that stands outside of them. -/
def leaveBlocks (s : Scanner) : Except Failure Scanner := do
  let s ← (s.unwind (-1)).dropCandidate
  pure (s.allowKey false)

/-- A token that may be a key, with the place after it. -/
def keyLike (s : Scanner) (read : Cursor → Except Failure (Token × Cursor)) :
    Except Failure Scanner := do
  let s ← s.saveCandidate
  let (token, cursor) ← read s.cursor
  pure (((s.allowKey false).moveTo cursor).push token)

/-- The start of a flow collection. -/
def openFlow (s : Scanner) (token : Token) : Except Failure Scanner := do
  let s ← s.saveCandidate
  pure (({ s with level := s.level + 1, keyAllowed := true } : Scanner).take 1 token)

/-- The end of a flow collection. -/
def closeFlow (s : Scanner) (token : Token) : Except Failure Scanner := do
  let s ← s.dropCandidate
  pure (({ s with level := s.level - 1, keyAllowed := false } : Scanner).take 1 token)

/-- Begins a block at the place, if one can begin there and is not open yet. -/
def openBlock (s : Scanner) (token : Token) : Except Failure Scanner :=
  if s.inFlow then .ok s
  else if !s.keyAllowed then .error .invalid
  else
    match s.beginBlock s.column with
    | some s => .ok (s.push token)
    | none => .ok s

/-- The sign of an item in a block. -/
def blockEntry (s : Scanner) : Except Failure Scanner := do
  let s ← s.openBlock .blockSequenceStart
  let s ← (s.allowKey true).dropCandidate
  pure (s.take 1 .blockEntry)

/-- The sign of a key. -/
def keySign (s : Scanner) : Except Failure Scanner := do
  let s ← s.openBlock .blockMappingStart
  let s ← (s.allowKey !s.inFlow).dropCandidate
  pure (s.take 1 .key)

/-- The sign of a value. If a key may have begun before on this level, it did. -/
def valueSign (s : Scanner) : Except Failure Scanner :=
  match s.candidates.lookup s.level with
  | some candidate =>
    let s := { s with candidates := s.candidates.filter fun entry => entry.1 ≠ s.level }
    let s := s.insertAt candidate.tokenNumber .key
    let s :=
      if s.inFlow then s
      else
        match s.beginBlock candidate.column with
        | some s => s.insertAt candidate.tokenNumber .blockMappingStart
        | none => s
    .ok ((s.allowKey false).take 1 .value)
  | none => do
    let s ← s.openBlock .blockMappingStart
    let s ← (s.allowKey !s.inFlow).dropCandidate
    pure (s.take 1 .value)

/-- A plain scalar. -/
def plainScalar (s : Scanner) : Except Failure Scanner := do
  let s ← s.saveCandidate
  let (text, lineEnded, cursor) :=
    plainWords s.inFlow (s.indent + 1) (s.cursor.left + 1) [] false s.cursor
  pure (((s.allowKey lineEnded).moveTo cursor).push (.scalar text true))

/-- A block scalar. -/
def block (s : Scanner) (fold : Bool) : Except Failure Scanner := do
  let s ← (s.allowKey true).dropCandidate
  let (text, cursor) ← blockScalar fold s.indent s.cursor
  pure ((s.moveTo cursor).push (.scalar text false))

/-- Characters that do not begin a plain scalar by themselves. -/
def isIndicator (c : Char) : Bool := "-?:,[]\x7b\x7d#&*!|>'\"%@\x60".toList.contains c

/-- Whether a plain scalar begins at the place. -/
def startsPlain (s : Scanner) : Bool :=
  let c := s.cursor.here
  !(isBlankOrEnd c || isIndicator c) ||
    (!isBlankOrEnd (s.cursor.peek 1) && (c = '-' || (!s.inFlow && (c = '?' || c = ':'))))

/-- Whether the sign at the place stands alone, as it must outside of flow collections. -/
def signStandsAlone (s : Scanner) : Bool := s.inFlow || isBlankOrEnd (s.cursor.peek 1)

/-- Finds the token at the place, which is not the end of the text. -/
def scanToken (s : Scanner) : Except Failure Scanner :=
  let c := s.cursor.here
  let atLineStart := s.cursor.column = 0
  if c = '%' && atLineStart then do
    let s ← s.leaveBlocks
    let (token, cursor) ← directive s.cursor
    pure ((s.moveTo cursor).push token)
  else if atLineStart && s.cursor.hasMarker '-' then
    s.leaveBlocks.map (·.take 3 .documentStart)
  else if atLineStart && s.cursor.hasMarker '.' then
    s.leaveBlocks.map (·.take 3 .documentEnd)
  else if c = '[' then s.openFlow .flowSequenceStart
  else if c = '{' then s.openFlow .flowMappingStart
  else if c = ']' then s.closeFlow .flowSequenceEnd
  else if c = '}' then s.closeFlow .flowMappingEnd
  else if c = ',' then (s.allowKey true).dropCandidate.map (·.take 1 .flowEntry)
  else if c = '-' && isBlankOrEnd (s.cursor.peek 1) then s.blockEntry
  else if c = '?' && s.signStandsAlone then s.keySign
  else if c = ':' && s.signStandsAlone then s.valueSign
  else if c = '*' then
    s.keyLike fun place => (anchorName place).map fun found => (.aliasOf found.1, found.2)
  else if c = '&' then
    s.keyLike fun place => (anchorName place).map fun found => (.anchor found.1, found.2)
  else if c = '!' then s.keyLike tagToken
  else if c = '|' && !s.inFlow then s.block false
  else if c = '>' && !s.inFlow then s.block true
  else if c = '\'' || c = '"' then
    s.keyLike fun place =>
      (quotedScalar (c = '"') place).map fun found => (.scalar found.1 false, found.2)
  else if s.startsPlain then s.plainScalar
  else .error .invalid

/-- The number of tokens that are certain: no key that may have begun can still be put in front of
them. -/
def settled (s : Scanner) : Nat :=
  s.candidates.foldl (fun count entry => min count entry.2.tokenNumber) s.count

/-- Finds the next token, or the end of the text, after blanks. The result says whether it is the
end. -/
def scanNext (s : Scanner) : Except Failure (Scanner × Bool) := do
  let s ← (skipToToken (s.cursor.left + 1) s.skipByteOrderMark).dropStale
  let s := s.unwind s.column
  if s.cursor.rest.isEmpty then
    let s ← s.leaveBlocks
    pure (s.push .streamEnd, true)
  else
    let s ← s.scanToken
    pure (s, false)

/-- The tokens from the place on, after those found before, and the failure that ended them, if one
did. Of the tokens before a failure there are only those that were certain when the last token
before it was found; `certain` is their number so far. -/
def scan : Nat → Nat → Scanner → List Token × Option Failure
  | 0, certain, s => (s.tokens.reverse.take certain, some .invalid)
  | fuel + 1, certain, s =>
    match s.dropStale with
    | .error failure => (s.tokens.reverse.take certain, some failure)
    | .ok s =>
      match s.scanNext with
      | .error failure => (s.tokens.reverse.take s.settled, some failure)
      | .ok (s, true) => (s.tokens.reverse, none)
      | .ok (s', false) => scan fuel s.settled s'

end Scanner

/-- The tokens of a text, and the failure that ended them, if one did. -/
def Token.ofText (text : List Char) : List Token × Option Failure :=
  Scanner.scan (text.length + 2) 0 (Scanner.start text)

end CommBindings.Yaml
