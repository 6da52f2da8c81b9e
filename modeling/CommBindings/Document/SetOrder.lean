import CommBindings.Document.Value

set_option autoImplicit false

/-! # The order of sets

A set is kept in a table of slots, and its members are shown in the order of their slots. Where a
member goes depends on its hash: a number modulo the prime `2^61 - 1`, so that numbers that are
equal have one hash whatever their kind. The hashes of other members are not known in advance; sets
with such members keep the order in which they were written.
-/

namespace CommBindings.SetOrder

/-- The prime modulus of hashes. -/
def modulus : Nat := Nat.pow 2 61 - 1

/-- The hash with a sign and a magnitude. The hash `-1` is not in use. -/
def signedHash (isNegative : Bool) (magnitude : Nat) : Int :=
  if !isNegative then magnitude
  else if magnitude = 1 then -2
  else -(magnitude : Int)

/-- The hash of an infinity. -/
def infiniteHash : Nat := 314159

/-- The hash of a double that stands for a number. As `2^61` counts as one, halving is the same as
multiplying by `2^60`. -/
def doubleHash (x : Double) : Int :=
  let shift := (x.exponent.emod 61).toNat
  let magnitude := if x.isInfinite then infiniteHash
    else x.significand * Nat.pow 2 shift % modulus
  signedHash x.isNegative magnitude

/-- The hash of a member that is a number. -/
def hash? : Scalar → Option Int
  | .bool b => some (if b then 1 else 0)
  | .int n => some (signedHash (n < 0) (n.natAbs % modulus))
  | .float x => if x.isNaN then none else some (doubleHash x)
  | _ => none

/-- The bits of a hash as a natural number. -/
def hashBits (hash : Int) : Nat := (hash.emod (Nat.pow 2 64 : Nat)).toNat

/-- A table of slots, of which there are always more than twice as many as members. -/
abbrev Table := Array (Option Scalar)

/-- The number of slots of the smallest table. -/
def leastSize : Nat := 8

/-- The number of slots for so many members: the least power of two that leaves room enough. -/
def tableSize (members : Nat) : Nat :=
  if members * 5 < (leastSize - 1) * 3 then leastSize else Nat.pow 2 ((2 * members).log2 + 1)

/-- The number of slots that are tried next to each other, the first aside. -/
def neighbours : Nat := 9

/-- The first free slot of a run of slots. -/
def freeIn? (table : Table) (start length : Nat) : Option Nat :=
  (List.range' start length).find? fun slot => table[slot]? = some none

/-- The free slot for a hash. A run of slots is tried, then another one far from it, where first the
higher bits of the hash and at last all slots get their turn. -/
def freeSlot? (table : Table) : Nat → Nat → Nat → Option Nat
  | 0, _, _ => none
  | fuel + 1, slot, bits =>
    let length := if slot + neighbours < table.size then neighbours + 1 else 1
    match freeIn? table slot length with
    | some free => some free
    | none =>
      let bits := bits / 32
      freeSlot? table fuel ((slot * 5 + 1 + bits) % table.size) bits

/-- The table with one more member. -/
def insert (table : Table) (member : Scalar) (hash : Int) : Table :=
  let bits := hashBits hash
  match freeSlot? table (table.size + 64) (bits % table.size) bits with
  | some slot => table.setIfInBounds slot (some member)
  | none => table

/-- The members of a set in the order in which they are shown. -/
def arrange (members : List Scalar) : List Scalar :=
  match members.mapM fun member => (hash? member).map fun hash => (member, hash) with
  | none => members
  | some hashed =>
    let start : Table := Array.replicate (tableSize members.length) none
    let table := hashed.foldl (fun table entry => insert table entry.1 entry.2) start
    table.toList.filterMap id

end CommBindings.SetOrder
