import CommBindings.Number.Double

set_option autoImplicit false

/-! # The shortest text of a double

A double is written with the fewest decimal digits that read back as the same double, and of those
with the digits nearest to its value. Numbers from `0.0001` up to below `10^16` are written with a
decimal point, all others with an exponent.
-/

namespace CommBindings.Double

/-- A positive number and the interval of the numbers that round to it, as numerators over a
common denominator. Its ends belong to the interval exactly if `closed`. -/
structure Neighbourhood where
  low : Nat
  value : Nat
  high : Nat
  den : Nat
  closed : Bool

/-- The neighbourhood of the magnitude of a finite nonzero double. Below a power of two the
doubles are twice as dense, so the interval is shorter on that side. -/
def neighbourhood (x : Double) : Neighbourhood :=
  let m := x.significand
  let scale := if 0 ≤ x.exponent then Nat.pow 2 x.exponent.toNat else 1
  let den := 4 * (if 0 ≤ x.exponent then 1 else Nat.pow 2 (-x.exponent).toNat)
  let below := if m = Nat.pow 2 52 && x.exponent > -1074 then 1 else 2
  { low := (4 * m - below) * scale, value := 4 * m * scale, high := (4 * m + 2) * scale,
    den := den, closed := m % 2 = 0 }

/-- The power `p` with `10^p ≤ num / den < 10^(p + 1)`, for a positive quotient. -/
def decimalExponent (num den : Nat) : Int :=
  if den ≤ num then (toString (num / den)).length - 1
  else
    match (List.range 400).find? fun j => den ≤ num * Nat.pow 10 (j + 1) with
    | some j => -((j : Int) + 1)
    | none => -400

/-- The multiple of `10^power` nearest to the value among those that lie in the interval. -/
def gridPoint? (n : Neighbourhood) (power : Int) : Option Nat :=
  let up := if 0 ≤ power then 1 else Nat.pow 10 (-power).toNat
  let unit := n.den * (if 0 ≤ power then Nat.pow 10 power.toNat else 1)
  let inside (k : Nat) : Bool :=
    if n.closed then n.low * up ≤ k * unit && k * unit ≤ n.high * up
    else n.low * up < k * unit && k * unit < n.high * up
  let floor := n.value * up / unit
  match inside floor, inside (floor + 1) with
  | true, true =>
    let left := 2 * (n.value * up % unit)
    some (if left < unit then floor
      else if left > unit then floor + 1
      else if floor % 2 = 0 then floor else floor + 1)
  | true, false => some floor
  | false, true => some (floor + 1)
  | false, false => none

/-- The digits and the power of ten of the shortest decimal that reads back as the magnitude of a
finite nonzero double. -/
def shortest (x : Double) : Nat × Int :=
  let n := x.neighbourhood
  let top := decimalExponent n.value n.den
  let grid (count : Nat) : Option (Nat × Int) :=
    let power := top - count
    (gridPoint? n power).map fun digits => (digits, power)
  ((List.range 18).findSome? grid).getD (0, 0)

/-- The digits without zeros at their end, and the power of ten that goes with them. -/
def stripZeros : Nat → Nat → Int → Nat × Int
  | 0, digits, power => (digits, power)
  | fuel + 1, digits, power =>
    if digits % 10 = 0 && digits ≠ 0 then stripZeros fuel (digits / 10) (power + 1)
    else (digits, power)

/-- The text of an exponent: a sign and at least two digits. -/
def exponentText (e : Int) : String :=
  let digits := toString e.natAbs
  (if e < 0 then "-" else "+") ++ (if digits.length < 2 then "0" ++ digits else digits)

/-- The text of `0.digits · 10^point` with a decimal point, where `point` is the number of digits
before it. -/
def positional (digits : List Char) (point : Int) : String :=
  if point ≤ 0 then
    "0." ++ String.ofList (List.replicate (-point).toNat '0' ++ digits)
  else
    let whole := digits.take point.toNat
    let zeros := List.replicate (point.toNat - digits.length) '0'
    let fraction := digits.drop point.toNat
    String.ofList (whole ++ zeros) ++ "." ++
      (if fraction.isEmpty then "0" else String.ofList fraction)

/-- The text of `0.digits · 10^point` with an exponent and one digit before the decimal point. -/
def scientific (digits : List Char) (point : Int) : String :=
  match digits with
  | [] => ""
  | first :: rest =>
    String.ofList (first :: (if rest.isEmpty then [] else '.' :: rest)) ++ "e" ++
      exponentText (point - 1)

/-- The text of a double. -/
def text (x : Double) : String :=
  if x.isNaN then "nan"
  else
    (if x.isNegative then "-" else "") ++
      if x.isInfinite then "inf"
      else if x.isZero then "0.0"
      else
        let (digits, power) := x.shortest
        let (digits, power) := stripZeros 400 digits power
        let shown := (toString digits).toList
        let point : Int := power + shown.length
        if -4 < point && point ≤ 16 then positional shown point else scientific shown point

end CommBindings.Double
