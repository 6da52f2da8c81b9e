set_option autoImplicit false

/-! # Double-precision numbers

A double is kept as its 64 bits, so that two doubles can be told apart exactly. A finite one is
`±m · 2^q`; this module takes that form apart and finds the double nearest to a quotient, all in
exact integer arithmetic.
-/

namespace CommBindings

/-- A double-precision number, as its bits in the binary interchange format. -/
structure Double where
  bits : UInt64
  deriving Repr, DecidableEq, Inhabited

namespace Double

/-- The bits below the sign. -/
def magnitudeBits (x : Double) : Nat := x.bits.toNat % Nat.pow 2 63

/-- The sign bit. -/
def isNegative (x : Double) : Bool := x.bits.toNat ≥ Nat.pow 2 63

/-- The magnitude of infinity. -/
def infiniteMagnitude : Nat := 0x7FF * Nat.pow 2 52

/-- No number. -/
def isNaN (x : Double) : Bool := x.magnitudeBits > infiniteMagnitude

/-- One of the two infinities. -/
def isInfinite (x : Double) : Bool := x.magnitudeBits = infiniteMagnitude

/-- The double with the given sign and magnitude. -/
def ofMagnitude (negative : Bool) (magnitude : Nat) : Double :=
  ⟨UInt64.ofNat (if negative then Nat.pow 2 63 + magnitude else magnitude)⟩

/-- Positive or negative infinity. -/
def infinity (negative : Bool) : Double := ofMagnitude negative infiniteMagnitude

/-- A double that stands for no number. There are many, told apart by a payload. -/
def nanOf (payload : Nat) : Double :=
  ofMagnitude false (infiniteMagnitude + Nat.pow 2 51 + payload % Nat.pow 2 51)

/-- The first of the doubles that stand for no number. -/
def nan : Double := nanOf 0

/-- The integer `m` in `m · 2^q`. -/
def significand (x : Double) : Nat :=
  let fraction := x.magnitudeBits % Nat.pow 2 52
  if x.magnitudeBits / Nat.pow 2 52 = 0 then fraction else Nat.pow 2 52 + fraction

/-- The exponent `q` in `m · 2^q`. -/
def exponent (x : Double) : Int :=
  let field : Nat := x.magnitudeBits / Nat.pow 2 52
  if field = 0 then -1074 else (field : Int) - 1075

/-- The value if it is an integer. -/
def toInt? (x : Double) : Option Int :=
  if x.isNaN || x.isInfinite then none
  else
    let whole : Option Nat :=
      if 0 ≤ x.exponent then some (x.significand * Nat.pow 2 x.exponent.toNat)
      else
        let unit := Nat.pow 2 (-x.exponent).toNat
        if x.significand % unit = 0 then some (x.significand / unit) else none
    whole.map fun n => if x.isNegative then -(n : Int) else n

/-- Whether the number is zero, of either sign. -/
def isZero (x : Double) : Bool := x.magnitudeBits = 0

/-- The quotient rounded to the nearest integer; a half goes to the even neighbour. -/
def roundQuotient (num den : Nat) : Nat :=
  let floor := num / den
  let twice := 2 * (num % den)
  if twice < den then floor
  else if twice > den then floor + 1
  else if floor % 2 = 0 then floor else floor + 1

/-- The exponent `e` with `2^e ≤ num / den < 2^(e + 1)`, for a positive quotient. -/
def binaryExponent (num den : Nat) : Int :=
  let guess : Int := (num.log2 : Int) - den.log2
  let reached : Bool :=
    if 0 ≤ guess then den * Nat.pow 2 guess.toNat ≤ num else den ≤ num * Nat.pow 2 (-guess).toNat
  if reached then guess else guess - 1

/-- The double nearest to a quotient; a tie goes to the even significand, and what lies too far
out becomes infinite. -/
def ofQuotient (negative : Bool) (num den : Nat) : Double :=
  if num = 0 then ofMagnitude negative 0
  else
    let q : Int := max (-1074) (binaryExponent num den - 52)
    let m := if 0 ≤ q then roundQuotient num (den * Nat.pow 2 q.toNat)
      else roundQuotient (num * Nat.pow 2 (-q).toNat) den
    let magnitude := (q + 1074).toNat * Nat.pow 2 52 + m
    ofMagnitude negative (min magnitude infiniteMagnitude)

/-- The double nearest to `digits · 10^power`. The power is cut off where the number is certainly
zero or infinite. -/
def ofDecimal (negative : Bool) (digits : Nat) (power : Int) : Double :=
  if digits = 0 then ofMagnitude negative 0
  else
    let length : Int := (toString digits).length
    if power + length > 400 then infinity negative
    else if power + length < -400 then ofMagnitude negative 0
    else if 0 ≤ power then ofQuotient negative (digits * Nat.pow 10 power.toNat) 1
    else ofQuotient negative digits (Nat.pow 10 (-power).toNat)

/-- The product of two doubles. -/
def mul (x y : Double) : Double := ⟨(Float.ofBits x.bits * Float.ofBits y.bits).toBits⟩

/-- The sum of two doubles. -/
def add (x y : Double) : Double := ⟨(Float.ofBits x.bits + Float.ofBits y.bits).toBits⟩

/-- The double with its sign reversed. -/
def neg (x : Double) : Double := ofMagnitude (!x.isNegative) x.magnitudeBits

end Double

end CommBindings
