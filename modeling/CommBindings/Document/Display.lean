import CommBindings.Document.Value
import CommBindings.Number.Numeral
import CommBindings.Number.Shortest
import CommBindings.Text.Quoted

set_option autoImplicit false

/-! # The text of a value

Messages and names show values of a document as text. A text stands for itself when it is shown
alone and is quoted inside a list or a mapping. An integer with too many digits has no text.
-/

namespace CommBindings

open CommBindings.Text

/-- The decimal digits of a number, with zeros in front up to the width. -/
def paddedDigits (width n : Nat) : String :=
  let digits := toString n
  String.ofList (List.replicate (width - digits.length) '0') ++ digits

/-- The text of an integer, unless it has too many digits. -/
def integerText? (n : Int) : Option String :=
  if Nat.pow 10 Numeral.maxDigits ≤ n.natAbs then none else some (toString n)

namespace Date

/-- The day as year, month and day. -/
def text (d : Date) : String :=
  paddedDigits 4 d.year ++ "-" ++ paddedDigits 2 d.month ++ "-" ++ paddedDigits 2 d.day

/-- The day as messages show it inside other values. -/
def shown (d : Date) : String :=
  "datetime.date(" ++ toString d.year ++ ", " ++ toString d.month ++ ", " ++ toString d.day ++ ")"

end Date

namespace DateTime

/-- A distance from universal time as a sign, hours and minutes. -/
def offsetText (minutes : Int) : String :=
  let n := minutes.natAbs
  (if minutes < 0 then "-" else "+") ++ paddedDigits 2 (n / 60) ++ ":" ++ paddedDigits 2 (n % 60)

/-- The moment as day, time and offset. -/
def text (t : DateTime) : String :=
  t.date.text ++ " " ++ paddedDigits 2 t.hour ++ ":" ++ paddedDigits 2 t.minute ++ ":" ++
    paddedDigits 2 t.second ++
    (if t.microsecond = 0 then "" else "." ++ paddedDigits 6 t.microsecond) ++
    (t.offset.map offsetText).getD ""

/-- A distance from universal time as messages show it inside other values. -/
def shownOffset (minutes : Int) : String :=
  if minutes = 0 then "datetime.timezone.utc"
  else
    let days := minutes.fdiv (24 * 60)
    let seconds := minutes.fmod (24 * 60) * 60
    let parts := (if days = 0 then [] else ["days=" ++ toString days]) ++
      (if seconds = 0 then [] else ["seconds=" ++ toString seconds])
    "datetime.timezone(datetime.timedelta(" ++ ", ".intercalate parts ++ "))"

/-- The moment as messages show it inside other values: seconds and microseconds only as far as
they are not zero. -/
def shown (t : DateTime) : String :=
  let fields := [t.date.year, t.date.month, t.date.day, t.hour, t.minute] ++
    (if t.microsecond ≠ 0 then [t.second, t.microsecond]
      else if t.second ≠ 0 then [t.second] else [])
  let offset := (t.offset.map fun minutes => ", tzinfo=" ++ shownOffset minutes).getD ""
  "datetime.datetime(" ++ ", ".intercalate (fields.map toString) ++ offset ++ ")"

end DateTime

/-- One byte of a shown byte string between the given quotes. -/
def shownByte (quote : Char) (byte : UInt8) : List Char :=
  let c := Char.ofNat byte.toNat
  if c = quote || c = '\\' then ['\\', c]
  else if c = '\n' then ['\\', 'n']
  else if c = '\r' then ['\\', 'r']
  else if c = '\t' then ['\\', 't']
  else if 32 ≤ byte.toNat && byte.toNat ≤ 126 then [c]
  else ['\\', 'x'] ++ Quoted.hexDigits 2 byte.toNat

/-- A byte string as messages show it. -/
def shownBytes (bytes : List UInt8) : String :=
  let quote := if bytes.contains 39 && !bytes.contains 34 then '"' else '\''
  String.ofList ('b' :: quote :: bytes.flatMap (shownByte quote) ++ [quote])

namespace Scalar

/-- The scalar as messages show it inside other values. -/
def shown? : Scalar → Option String
  | null => some "None"
  | bool b => some (if b then "True" else "False")
  | int n => integerText? n
  | float x => some x.text
  | text s => some (Quoted.shown s)
  | date d => some d.shown
  | dateTime t => some t.shown
  | bytes b => some (shownBytes b)

/-- The text of a scalar that is shown alone. -/
def display? : Scalar → Option String
  | text s => some s
  | date d => some d.text
  | dateTime t => some t.text
  | other => other.shown?

end Scalar

namespace Value

/-- Parts between brackets. -/
def bracketed (opening : String) (parts : List String) (closing : String) : String :=
  opening ++ ", ".intercalate parts ++ closing

/-- What is shown of a value inside itself. -/
def ellipsis : List String := ["..."]

/-- Whether a value is one of those around it. -/
def isAround (outer : List Mark) (mark : Option Mark) : Bool := mark.any outer.contains

mutual

/-- The value as messages show it inside other values, of which those that lie inside themselves
bear the marks `outer`. -/
def shownWithin? (outer : List Mark) : Value → Option String
  | scalar s => s.shown?
  | list items mark =>
    if isAround outer mark then some (bracketed "[" ellipsis "]")
    else (shownItems? (mark.toList ++ outer) items).map fun parts => bracketed "[" parts "]"
  | pair first second mark =>
    if isAround outer mark then some (bracketed "(" ellipsis ")")
    else
      (first.shownWithin? (mark.toList ++ outer)).bind fun a =>
        (second.shownWithin? (mark.toList ++ outer)).map fun b => bracketed "(" [a, b] ")"
  | set members =>
    if members.isEmpty then some "set()"
    else (members.mapM Scalar.shown?).map fun parts => bracketed "\x7b" parts "\x7d"
  | mapping entries mark =>
    if isAround outer mark then some (bracketed "\x7b" ellipsis "\x7d")
    else
      (shownEntries? (mark.toList ++ outer) entries).map fun parts =>
        bracketed "\x7b" parts "\x7d"

/-- The items of a list as messages show them. -/
def shownItems? (outer : List Mark) : List Value → Option (List String)
  | [] => some []
  | item :: rest =>
    (item.shownWithin? outer).bind fun part => (shownItems? outer rest).map (part :: ·)

/-- The entries of a mapping as messages show them. -/
def shownEntries? (outer : List Mark) : List (Key × Value) → Option (List String)
  | [] => some []
  | (key, value) :: rest =>
    key.shown?.bind fun k => (value.shownWithin? outer).bind fun v =>
      (shownEntries? outer rest).map ((k ++ ": " ++ v) :: ·)

end

/-- The value as messages show it. -/
def shown? (value : Value) : Option String := value.shownWithin? []

/-- The text of a value that is shown alone. -/
def display? : Value → Option String
  | scalar s => s.display?
  | other => other.shown?

end Value

end CommBindings
