import CommBindings.Number.Double

set_option autoImplicit false

/-! # Documents

What a contract document holds once it is read: scalars, lists and mappings. The keys of a mapping
are scalars of any kind, and its entries keep their order. Two keys that are equal as numbers, such
as `1` and `1.0`, are one key.
-/

namespace CommBindings

/-- A day of the calendar. -/
structure Date where
  year : Nat
  month : Nat
  day : Nat
  deriving Repr, DecidableEq

/-- A moment of a day, with its distance from universal time in minutes if that is known. -/
structure DateTime where
  date : Date
  hour : Nat
  minute : Nat
  second : Nat
  microsecond : Nat
  offset : Option Int
  deriving Repr, DecidableEq

/-- A value without parts. -/
inductive Scalar where
  | null
  | bool (value : Bool)
  | int (value : Int)
  | float (value : Double)
  | text (value : String)
  | date (value : Date)
  | dateTime (value : DateTime)
  | bytes (value : List UInt8)
  deriving Repr, DecidableEq

/-- The key of an entry in a mapping. -/
abbrev Key := Scalar

/-- What a value that lies inside itself is known by: the number of its node in the document, and
that of its part in the node. -/
structure Mark where
  node : Nat
  part : Nat
  deriving Repr, DecidableEq

/-- A value of a document. Pairs and sets arise from documents that ask for them by a tag. A list, a
pair or a mapping that lies inside itself is unfolded as far as anyone may look, and all that bear
one mark are the same one. -/
inductive Value where
  | scalar (value : Scalar)
  | list (items : List Value) (mark : Option Mark)
  | pair (first second : Value) (mark : Option Mark)
  | set (members : List Scalar)
  | mapping (entries : List (Key × Value)) (mark : Option Mark)
  deriving Repr, Inhabited

/-- The entries of a mapping, in order. -/
abbrev Mapping := List (Key × Value)

/-- Why a scalar is not what its tag says. -/
inductive ScalarProblem where
  | empty
  | noNumber
  | tooLarge
  | noTruthValue
  | noMoment
  | noTextOfItsOwn
  | noSuchMoment
  | noCharacter
  deriving Repr, DecidableEq

namespace Date

/-- Whether the year has a 29th of February. -/
def isLeap (year : Nat) : Bool := year % 4 = 0 && (year % 100 ≠ 0 || year % 400 = 0)

/-- The number of days of a month. -/
def daysInMonth (year month : Nat) : Nat :=
  if month = 2 then (if isLeap year then 29 else 28)
  else if month = 4 || month = 6 || month = 9 || month = 11 then 30
  else 31

/-- Whether the calendar has the day. -/
def isValid (d : Date) : Bool :=
  1 ≤ d.year && d.year ≤ 9999 && 1 ≤ d.month && d.month ≤ 12 && 1 ≤ d.day &&
    d.day ≤ daysInMonth d.year d.month

/-- The number of days in the first months of a year. -/
def daysInMonths (year : Nat) : Nat → Nat
  | 0 => 0
  | month + 1 => daysInMonths year month + daysInMonth year (month + 1)

/-- The number of the day, where the first of January of the year 1 is the first. -/
def dayNumber (d : Date) : Nat :=
  let past := d.year - 1
  past * 365 + past / 4 - past / 100 + past / 400 + daysInMonths d.year (d.month - 1) + d.day

end Date

namespace DateTime

/-- Whether the calendar and the clock have the moment; the offset is less than a day. -/
def isValid (t : DateTime) : Bool :=
  t.date.isValid && t.hour < 24 && t.minute < 60 && t.second < 60 &&
    (t.offset.all fun minutes => minutes.natAbs < 24 * 60)

/-- The moment in universal time, in microseconds, where the offset is known. -/
def instant? (t : DateTime) : Option Int :=
  t.offset.map fun offset =>
    let minutes : Int := (t.date.dayNumber * 24 + t.hour) * 60 + t.minute
    ((minutes - offset) * 60 + t.second) * 1000000 + t.microsecond

end DateTime

namespace Scalar

/-- A representative of the scalars that count as one key: truth values and whole floats are
integers, and two moments with offsets are told apart by their instant alone. -/
def canonical : Scalar → Scalar ⊕ Int
  | bool b => .inl (int (if b then 1 else 0))
  | float x =>
    match x.toInt? with
    | some n => .inl (int n)
    | none => .inl (float x)
  | dateTime t =>
    match t.instant? with
    | some instant => .inr instant
    | none => .inl (dateTime t)
  | other => .inl other

/-- Whether two scalars are one key. -/
def sameKey (a b : Key) : Bool :=
  match a, b with
  | text s, text t => s = t
  | _, _ => a.canonical = b.canonical

/-- Whether the scalar counts as absent where a value is optional: nothing, `false`, zero, and
texts without characters. -/
def isVoid : Scalar → Bool
  | null => true
  | bool b => !b
  | int n => n = 0
  | float x => x.isZero
  | text s => s.isEmpty
  | bytes b => b.isEmpty
  | date _ | dateTime _ => false

end Scalar

/-- Puts an entry into a list of entries. A key that is there already keeps its place and gets the
new value. -/
def insertEntry {α : Type} (entries : List (Key × α)) (key : Key) (value : α) : List (Key × α) :=
  match entries with
  | [] => [(key, value)]
  | (k, v) :: rest =>
    if k.sameKey key then (k, value) :: rest else (k, v) :: insertEntry rest key value

/-- The entries with the last value of each key, at the place of its first. -/
def dedupEntries {α : Type} (entries : List (Key × α)) : List (Key × α) :=
  entries.foldl (fun done entry => insertEntry done entry.1 entry.2) []

/-- The value under a key. -/
def lookupEntry {α : Type} (entries : List (Key × α)) (key : Key) : Option α :=
  (entries.find? fun entry => entry.1.sameKey key).map (·.2)

/-- The value under a text. -/
def Mapping.get? (m : Mapping) (key : String) : Option Value := lookupEntry m (.text key)

namespace Value

/-- The value of nothing. -/
def null : Value := .scalar .null

/-- A text as a value. -/
def text (s : String) : Value := .scalar (.text s)

/-- Whether the value counts as absent where a value is optional. -/
def isVoid : Value → Bool
  | scalar s => s.isVoid
  | list items _ => items.isEmpty
  | pair _ _ _ => false
  | set members => members.isEmpty
  | mapping entries _ => entries.isEmpty

/-- The text, if the value is one. -/
def asText? : Value → Option String
  | scalar (.text s) => some s
  | _ => none

/-- The entries, if the value is a mapping. -/
def entries? : Value → Option Mapping
  | mapping entries _ => some entries
  | _ => none

/-- The items, if the value is a list. -/
def items? : Value → Option (List Value)
  | list items _ => some items
  | _ => none

end Value

end CommBindings
