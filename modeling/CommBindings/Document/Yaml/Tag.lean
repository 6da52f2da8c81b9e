import CommBindings.Document.Value
import CommBindings.Number.Numeral

set_option autoImplicit false

/-! # YAML tags

A tag says what a node is. A plain scalar without a tag gets one from how it looks: `yes` is a truth
value, `010` an integer, `1.5` a float, `2001-12-14` a date, and what looks like nothing else is a
text.
-/

namespace CommBindings.Yaml

/-- The tags that have a meaning, and the others. -/
inductive Tag where
  | null
  | bool
  | int
  | float
  | binary
  | timestamp
  | orderedMapping
  | pairs
  | set
  | text
  | sequence
  | mapping
  | merge
  | defaultValue
  | other
  deriving Repr, DecidableEq

namespace Tag

/-- What the names of the tags with a meaning begin with. -/
def standardStart : String := "tag:yaml.org,2002:"

/-- The last parts of the names of the tags with a meaning. -/
def standardNames : List (String × Tag) := [
  ("null", .null), ("bool", .bool), ("int", .int), ("float", .float), ("binary", .binary),
  ("timestamp", .timestamp), ("omap", .orderedMapping), ("pairs", .pairs), ("set", .set),
  ("str", .text), ("seq", .sequence), ("map", .mapping), ("merge", .merge),
  ("value", .defaultValue)]

/-- The tag with a name. -/
def ofName (name : List Char) : Tag :=
  ((standardNames.find? fun entry => (standardStart ++ entry.1).toList = name).map (·.2)).getD
    .other

end Tag

/-! ## How plain scalars look -/

/-- A digit or a low line. -/
def isDigitOrLine (c : Char) : Bool := Numeral.isDecimal c || c = '_'

/-- A digit, and then digits and low lines. -/
def looksWhole (text : List Char) : Bool :=
  match text with
  | c :: rest => Numeral.isDecimal c && rest.all isDigitOrLine
  | [] => false

/-- The characters before the first of a kind, and those after it if it is there. -/
def splitAtChar (c : Char) (text : List Char) : List Char × Option (List Char) :=
  let before := text.takeWhile (· ≠ c)
  match text.dropWhile (· ≠ c) with
  | [] => (before, none)
  | _ :: rest => (before, some rest)

/-- The parts of a text between colons. -/
def splitColons : List Char → List (List Char)
  | [] => [[]]
  | c :: rest =>
    if c = ':' then [] :: splitColons rest
    else
      match splitColons rest with
      | [] => [[c]]
      | part :: parts => (c :: part) :: parts

/-- One or two digits below sixty. -/
def looksSixtieth (text : List Char) : Bool :=
  match text with
  | [a] => Numeral.isDecimal a
  | [a, b] => '0' ≤ a && a ≤ '5' && Numeral.isDecimal b
  | _ => false

/-- An exponent with a sign. -/
def looksExponent (text : List Char) : Bool :=
  match text with
  | mark :: sign :: digits =>
    (mark = 'e' || mark = 'E') && (sign = '-' || sign = '+') && !digits.isEmpty &&
      digits.all Numeral.isDecimal
  | _ => false

/-- Digits and low lines, and then perhaps an exponent. -/
def looksFraction (text : List Char) : Bool :=
  let rest := text.dropWhile isDigitOrLine
  rest.isEmpty || looksExponent rest

/-- Numbers between colons, of which the later ones are below sixty. -/
def looksSexagesimal (text : List Char) : Bool :=
  match splitColons text with
  | first :: second :: others => looksWhole first && (second :: others).all looksSixtieth
  | _ => false

/-- The text without a sign in front. -/
def unsigned (text : List Char) : List Char := (Numeral.splitSign text).2

/-- The words for truth values, in lower case. -/
def truthWords : List (String × Bool) := [
  ("yes", true), ("no", false), ("true", true), ("false", false), ("on", true), ("off", false)]

/-- The spellings of a word in lower case, with a capital, and in capitals. -/
def spellings (word : String) : List String := [word, word.capitalize, word.toUpper]

/-- A truth value. -/
def looksBool (text : List Char) : Bool :=
  (truthWords.flatMap fun word => spellings word.1).contains (String.ofList text)

/-- A number with a decimal point, infinity, or no number. -/
def looksFloat (text : List Char) : Bool :=
  let magnitude := unsigned text
  let word := String.ofList magnitude
  [".inf", ".Inf", ".INF"].contains word ||
    [".nan", ".NaN", ".NAN"].contains (String.ofList text) ||
    (match splitAtChar '.' magnitude with
      | (whole, some fraction) =>
        (looksWhole whole && looksFraction fraction) ||
          (looksSexagesimal whole && fraction.all isDigitOrLine) ||
          (text.head? = some '.' && (fraction.head?.map Numeral.isDecimal).getD false &&
            looksFraction fraction)
      | _ => false)

/-- An integer in base two, eight, ten, sixteen or sixty. -/
def looksInt (text : List Char) : Bool :=
  match unsigned text with
  | '0' :: 'b' :: digits => !digits.isEmpty && digits.all fun c => c = '0' || c = '1' || c = '_'
  | '0' :: 'x' :: digits =>
    !digits.isEmpty && digits.all fun c => c = '_' || (Numeral.digitBelow? 16 c).isSome
  | ['0'] => true
  | '0' :: digits => digits.all fun c => c = '_' || ('0' ≤ c && c ≤ '7')
  | magnitude => looksWhole magnitude || looksSexagesimal magnitude

/-- Nothing. -/
def looksNull (text : List Char) : Bool :=
  ["~", "null", "Null", "NULL"].contains (String.ofList text)

/-- The sign of a tag, an anchor or an alias, with nothing after it. Only a quoted text or a block can
look like this, and it stands for no value. -/
def looksSign (text : List Char) : Bool := ["!", "&", "*"].contains (String.ofList text)

/-! ## Dates and moments -/

/-- A number of one or two digits at the head of a text. -/
def shortNumber? (text : List Char) : Option (Nat × List Char) :=
  let digits := (text.take 2).takeWhile Numeral.isDecimal
  if digits.isEmpty then none
  else some (Numeral.decimalValue digits, text.drop digits.length)

/-- A number of exactly so many digits at the head of a text. -/
def fixedNumber? (length : Nat) (text : List Char) : Option (Nat × List Char) :=
  let digits := text.take length
  if digits.length = length && digits.all Numeral.isDecimal then
    some (Numeral.decimalValue digits, text.drop length)
  else none

/-- What follows an expected character. -/
def after? (c : Char) (text : List Char) : Option (List Char) :=
  match text with
  | d :: rest => if d = c then some rest else none
  | [] => none

/-- A space or a tab. -/
def isGap (c : Char) : Bool := c = ' ' || c = '\t'

/-- What follows the sign between a day and a time of day. -/
def afterDaySeparator? (text : List Char) : Option (List Char) :=
  match text with
  | c :: rest =>
    if c = 'T' || c = 't' then some rest
    else if isGap c then some (rest.dropWhile isGap)
    else none
  | [] => none

/-- The digits of a fraction of a second, as microseconds. -/
def microseconds (digits : List Char) : Nat :=
  let six := (digits ++ List.replicate 6 '0').take 6
  Numeral.decimalValue six

/-- A distance from universal time, in minutes; `none` is something else. -/
def readOffset? (text : List Char) : Option (Option Int) :=
  if text.isEmpty then some none
  else
    match text.dropWhile isGap with
    | ['Z'] => some (some 0)
    | sign :: rest => do
      if sign ≠ '+' && sign ≠ '-' then none
      else
        let (hours, rest) ← shortNumber? rest
        let minutes ← (if rest.isEmpty then some 0
          else do
            let rest ← after? ':' rest
            let (minutes, rest) ← fixedNumber? 2 rest
            if rest.isEmpty then some minutes else none)
        let total : Int := hours * 60 + minutes
        pure (some (if sign = '-' then -total else total))
    | [] => none

/-- The time of day and the offset after a day. -/
def readTime? (date : Date) (text : List Char) : Option DateTime := do
  let rest ← afterDaySeparator? text
  let (hour, rest) ← shortNumber? rest
  let rest ← after? ':' rest
  let (minute, rest) ← fixedNumber? 2 rest
  let rest ← after? ':' rest
  let (second, rest) ← fixedNumber? 2 rest
  let (fraction, rest) := match rest with
    | '.' :: more => (more.takeWhile Numeral.isDecimal, more.dropWhile Numeral.isDecimal)
    | more => ([], more)
  let offset ← readOffset? rest
  pure ⟨date, hour, minute, second, microseconds fraction, offset⟩

/-- A day, or a moment of a day, which the calendar need not have. -/
def readTimestamp? (text : List Char) : Option (Date ⊕ DateTime) := do
  let (year, rest) ← fixedNumber? 4 text
  let rest ← after? '-' rest
  let (month, rest) ← shortNumber? rest
  let rest ← after? '-' rest
  let (day, rest) ← shortNumber? rest
  let date : Date := ⟨year, month, day⟩
  if rest.isEmpty then pure (.inl date) else (readTime? date rest).map .inr

/-- A day with all its digits, or a moment. -/
def looksTimestamp (text : List Char) : Bool :=
  match readTimestamp? text with
  | some (.inl _) => text.length = 10
  | some (.inr _) => true
  | none => false

/-- The text without a line feed at its end. -/
def withoutLastBreak (text : List Char) : List Char :=
  if text.getLast? = some '\n' then text.dropLast else text

/-- The tag of a scalar from how it looks. A line feed at the end does not count. -/
def Tag.ofLooks (text : List Char) : Tag :=
  let core := withoutLastBreak text
  if text.isEmpty then .null
  else if looksBool core then .bool
  else if looksFloat core then .float
  else if looksInt core then .int
  else if core = "<<".toList then .merge
  else if looksNull core then .null
  else if looksTimestamp core then .timestamp
  else if core = "=".toList then .defaultValue
  else if looksSign core then .other
  else .text

end CommBindings.Yaml
