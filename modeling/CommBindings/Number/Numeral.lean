import CommBindings.Number.Double
import CommBindings.Text.Blank
import CommBindings.Text.Digit

set_option autoImplicit false

/-! # Reading numbers

Integers in any base up to sixteen and decimal fractions, as people type them: with blanks around
them, with digits of any script, and, in integers, with low lines between the digits.
-/

namespace CommBindings.Numeral

open CommBindings.Text

/-- The characters with ASCII digits and spaces in place of those of other scripts; what is
neither becomes a question mark, which no number holds. -/
def inAscii (text : List Char) : List Char :=
  text.map fun c =>
    if c.toNat < 127 then c
    else if isBlank c then ' '
    else
      match decimalValue? c with
      | some value => Char.ofNat (48 + value)
      | none => '?'

/-- An ASCII white space character. -/
def isSpace (c : Char) : Bool := c = ' ' || (9 ≤ c.toNat && c.toNat ≤ 13)

/-- The characters without white space at the two ends. -/
def stripSpaces (text : List Char) : List Char :=
  ((text.dropWhile isSpace).reverse.dropWhile isSpace).reverse

/-- A sign, which is negative if `true`, and the characters after it. -/
def splitSign : List Char → Bool × List Char
  | '-' :: rest => (true, rest)
  | '+' :: rest => (false, rest)
  | text => (false, text)

/-- The value of a digit in bases up to thirty-six. -/
def digitValue? (c : Char) : Option Nat :=
  let n := c.toNat
  if 48 ≤ n && n ≤ 57 then some (n - 48)
  else if 97 ≤ n && n ≤ 122 then some (n - 87)
  else if 65 ≤ n && n ≤ 90 then some (n - 55)
  else none

/-- The value of a digit of the base. -/
def digitBelow? (base : Nat) (c : Char) : Option Nat := (digitValue? c).filter (· < base)

/-- The digits of a text that holds nothing else. -/
def plainDigits? (base : Nat) (text : List Char) : Option (List Nat) := text.mapM (digitBelow? base)

/-- The digits in a text in which a low line may stand between two digits. -/
def digits? (base : Nat) : List Char → Option (List Nat)
  | [] => none
  | [c] => (digitBelow? base c).map fun d => [d]
  | c :: '_' :: rest => (digitBelow? base c).bind fun d => (digits? base rest).map (d :: ·)
  | c :: rest => (digitBelow? base c).bind fun d => (digits? base rest).map (d :: ·)

/-- The number with the given digits, the most significant first. -/
def ofDigits (base : Nat) (digits : List Nat) : Nat := digits.foldl (· * base + ·) 0

/-- The longest decimal integer that is read or written, in digits. -/
def maxDigits : Nat := 4300

/-- The letter that may follow a zero to announce a base. -/
def baseMark (base : Nat) : Option (List Char) :=
  if base = 2 then some ['b', 'B']
  else if base = 8 then some ['o', 'O']
  else if base = 16 then some ['x', 'X']
  else none

/-- The digits without an announcement of the base. -/
def withoutMark (base : Nat) (text : List Char) : List Char :=
  match baseMark base, text with
  | some marks, '0' :: mark :: rest =>
    if marks.contains mark then
      match rest with
      | '_' :: digits => digits
      | _ => rest
    else text
  | _, _ => text

/-- Reads an integer in base 2, 8, 10 or 16. -/
def readInt? (base : Nat) (text : List Char) : Option Int :=
  let (negative, unsigned) := splitSign (stripSpaces (inAscii text))
  (digits? base (withoutMark base unsigned)).bind fun digits =>
    if base = 10 && digits.length > maxDigits then none
    else
      let value : Int := ofDigits base digits
      some (if negative then -value else value)

/-- A decimal digit. -/
def isDecimal (c : Char) : Bool := 48 ≤ c.toNat && c.toNat ≤ 57

/-- The number written by ASCII decimal digits. -/
def decimalValue (text : List Char) : Nat := ofDigits 10 (text.map fun c => c.toNat - 48)

/-- An exponent such as `e+07`, or none at all; `none` is something else. -/
def readExponent? : List Char → Option Int
  | [] => some 0
  | mark :: rest =>
    if mark = 'e' || mark = 'E' then
      let (negative, digits) := splitSign rest
      if digits.isEmpty || !digits.all isDecimal then none
      else
        let value : Int := decimalValue digits
        some (if negative then -value else value)
    else none

/-- The words for infinity, in lower case. -/
def infinityWords : List String := ["inf", "infinity"]

/-- Reads a decimal fraction without a sign. -/
def readMagnitude? (negative : Bool) (text : List Char) : Option Double :=
  let word := (String.ofList text).toLower
  if infinityWords.contains word then some (Double.infinity negative)
  else if word = "nan" then some Double.nan
  else
    let whole := text.takeWhile isDecimal
    let afterWhole := text.dropWhile isDecimal
    let (fraction, afterFraction) :=
      match afterWhole with
      | '.' :: rest => (rest.takeWhile isDecimal, rest.dropWhile isDecimal)
      | rest => ([], rest)
    if whole.isEmpty && fraction.isEmpty then none
    else
      (readExponent? afterFraction).map fun power =>
        Double.ofDecimal negative (decimalValue (whole ++ fraction)) (power - fraction.length)

/-- Reads a decimal fraction. -/
def readDouble? (text : List Char) : Option Double :=
  let (negative, unsigned) := splitSign (stripSpaces (inAscii text))
  readMagnitude? negative unsigned

end CommBindings.Numeral
