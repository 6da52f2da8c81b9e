import CommBindings.Document.Yaml.Cursor
import CommBindings.Document.Yaml.Tag

set_option autoImplicit false

/-! # What YAML scalars denote

The scalar that a text denotes under a tag. The tag may have been written out, so the text need not
look like it: each reading says what it accepts and how it fails on the rest.
-/

namespace CommBindings.Yaml

/-- The truth value that a word stands for, in any case. -/
def readBool (text : List Char) : Except Failure Bool :=
  match truthWords.lookup (String.ofList (text.map Char.toLower)) with
  | some value => .ok value
  | none => .error (.scalar .noTruthValue)

/-- A part of a number, which must be there. -/
def numberOr {α : Type} (part : Option α) : Except Failure α :=
  match part with
  | some a => .ok a
  | none => .error (.scalar .noNumber)

/-- The number whose digits in base sixty are given, the most significant first. -/
def sexagesimal (digits : List Int) : Int := digits.foldl (fun value digit => value * 60 + digit) 0

/-- Reads an integer without a sign and without low lines. -/
def readWholeNumber (text : List Char) : Except Failure Int :=
  match text with
  | [] => .error (.scalar .empty)
  | ['0'] => .ok 0
  | '0' :: 'b' :: digits => numberOr (Numeral.readInt? 2 digits)
  | '0' :: 'x' :: digits => numberOr (Numeral.readInt? 16 digits)
  | '0' :: digits => numberOr (Numeral.readInt? 8 ('0' :: digits))
  | digits =>
    if digits.contains ':' then
      (numberOr ((splitColons digits).mapM (Numeral.readInt? 10))).map sexagesimal
    else numberOr (Numeral.readInt? 10 digits)

/-- The text without low lines. -/
def withoutLines (text : List Char) : List Char := text.filter (· ≠ '_')

/-- Reads an integer. -/
def readInt (text : List Char) : Except Failure Int :=
  let (isNegative, magnitude) := Numeral.splitSign (withoutLines text)
  (readWholeNumber magnitude).map fun value => if isNegative then -value else value

/-- The sum of the numbers, each times its power of sixty, from the least significant on. A power
that no double can hold is a failure. -/
def sumSixtieths (sum : Double) (power : Nat) : List Double → Except Failure Double
  | [] => .ok sum
  | digit :: rest =>
    let weight := Double.ofQuotient false power 1
    if weight.isInfinite then .error (.scalar .tooLarge)
    else sumSixtieths (sum.add (digit.mul weight)) (power * 60) rest

/-- Reads a float without a sign and without low lines, in lower case. -/
def readFraction (text : List Char) : Except Failure Double :=
  if text = ".inf".toList then .ok (Double.infinity false)
  else if text = ".nan".toList then .ok Double.nan
  else if text.contains ':' then do
    let digits ← numberOr ((splitColons text).mapM Numeral.readDouble?)
    sumSixtieths (Double.ofMagnitude false 0) 1 digits.reverse
  else numberOr (Numeral.readDouble? text)

/-- Reads a float. What stands for no number is the same double wherever it is written as `.nan`,
and else one of its own with the given payload. -/
def readFloat (payload : Nat) (text : List Char) : Except Failure Double :=
  match (withoutLines text).map Char.toLower with
  | [] => .error (.scalar .empty)
  | lowered =>
    let (isNegative, magnitude) := Numeral.splitSign lowered
    (readFraction magnitude).map fun value =>
      if value.isNaN then (if magnitude = ".nan".toList then Double.nan else Double.nanOf payload)
      else if isNegative then value.neg
      else value

/-- Reads a day or a moment, which the calendar must have. -/
def readMoment (text : List Char) : Except Failure Scalar :=
  match readTimestamp? (withoutLastBreak text) with
  | none => .error (.scalar .noMoment)
  | some (.inl date) =>
    if date.isValid then .ok (.date date) else .error (.scalar .noSuchMoment)
  | some (.inr moment) =>
    if moment.isValid then .ok (.dateTime moment) else .error (.scalar .noSuchMoment)

/-! ## Binary data -/

/-- The value of a digit in base sixty-four. -/
def sextet? (c : Char) : Option Nat :=
  if 'A' ≤ c && c ≤ 'Z' then some (c.toNat - 65)
  else if 'a' ≤ c && c ≤ 'z' then some (c.toNat - 71)
  else if Numeral.isDecimal c then some (c.toNat + 4)
  else if c = '+' then some 62
  else if c = '/' then some 63
  else none

/-- The digits in front of the padding, which must end a group of four. Other characters do not
count, and a padding sign after a digit that fills no byte does not either. `place` is the number
of digits in the group so far, and `signs` that of the padding signs after them. -/
def sextets? (place signs : Nat) : List Char → Option (List Nat)
  | [] => if place = 0 then some [] else none
  | c :: rest =>
    if c = '=' then
      if place < 2 then sextets? place signs rest
      else if place + signs + 1 ≥ 4 then some []
      else sextets? place (signs + 1) rest
    else
      match sextet? c with
      | some value => (sextets? ((place + 1) % 4) 0 rest).map (value :: ·)
      | none => sextets? place signs rest

/-- The bytes that groups of four digits make. An incomplete group makes the bytes it fills. -/
def bytesOfSextets : List Nat → List UInt8
  | a :: b :: c :: d :: rest =>
    UInt8.ofNat (a * 4 + b / 16) :: UInt8.ofNat (b * 16 + c / 4) :: UInt8.ofNat (c * 64 + d) ::
      bytesOfSextets rest
  | [a, b, c] => [UInt8.ofNat (a * 4 + b / 16), UInt8.ofNat (b * 16 + c / 4)]
  | [a, b] => [UInt8.ofNat (a * 4 + b / 16)]
  | _ => []

/-- Reads binary data in base sixty-four. -/
def readBytes (text : List Char) : Except Failure (List UInt8) :=
  if text.all fun c => c.toNat < 128 then
    match sextets? 0 0 text with
    | some sextets => .ok (bytesOfSextets sextets)
    | none => .error .invalid
  else .error .invalid

/-! ## Scalars -/

/-- The scalar that a text denotes under a tag, which must be one of scalars. The payload is that of
a float that stands for no number. -/
def denote (payload : Nat) (tag : Tag) (text : List Char) : Except Failure Scalar :=
  match tag with
  | .null => .ok .null
  | .bool => (readBool text).map .bool
  | .int => (readInt text).map .int
  | .float => (readFloat payload text).map .float
  | .binary => (readBytes text).map .bytes
  | .timestamp => readMoment text
  | .text => .ok (.text (String.ofList text))
  | _ => .error .invalid

end CommBindings.Yaml
