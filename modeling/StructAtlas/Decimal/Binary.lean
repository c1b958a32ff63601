set_option autoImplicit false

/-!
# Binary floating point numbers

A finite number is a sign and a whole number times a power of two. `Binary.ofFloat` takes a number
apart into the three fields of its representation; `Binary.mantissa` and `Binary.power` put the last
two together again.
-/

namespace StructAtlas.Decimal

/-- A power of two. -/
def twoPow (n : Nat) : Nat :=
  Nat.pow 2 n

/-- A power of ten. -/
def tenPow (n : Nat) : Nat :=
  Nat.pow 10 n

/-- The fields of a floating point number of 64 bits: 11 bits of exponent and 52 bits of fraction.
-/
structure Binary where
  negative : Bool
  exponent : Nat
  fraction : Nat
deriving Repr, DecidableEq

namespace Binary

/-- The fields of a number. -/
def ofFloat (x : Float) : Binary :=
  let bits := x.toBits.toNat
  ⟨bits / twoPow 63 == 1, bits / twoPow 52 % twoPow 11, bits % twoPow 52⟩

/-- Whether a number is neither infinite nor undefined. -/
def isFinite (b : Binary) : Bool :=
  b.exponent != 2047

/-- Whether a number is a zero of either sign. -/
def isZero (b : Binary) : Bool :=
  b.exponent == 0 && b.fraction == 0

/-- The whole number that is scaled by `power`. -/
def mantissa (b : Binary) : Nat :=
  if b.exponent == 0 then b.fraction else b.fraction + twoPow 52

/-- The exponent of two by which the mantissa is scaled. -/
def power (b : Binary) : Int :=
  ((if b.exponent == 0 then 1 else b.exponent : Nat) : Int) - 1075

/-- Whether the lower neighbour of a number is only half as far away as the upper one. -/
def isNarrow (b : Binary) : Bool :=
  b.fraction == 0 && 1 < b.exponent

/-- The whole number that a number is, if it is one. -/
def whole? (b : Binary) : Option Int :=
  let negate (n : Nat) : Int := if b.negative then -(n : Int) else n
  if !b.isFinite then none
  else if 0 ≤ b.power then some (negate (b.mantissa * twoPow b.power.toNat))
  else
    let scale := twoPow (-b.power).toNat
    if b.mantissa % scale == 0 then some (negate (b.mantissa / scale)) else none

/-- Whether a number is undefined. -/
def isUndefined (b : Binary) : Bool :=
  !b.isFinite && b.fraction != 0

/-- A finite number as a whole number and the power of two that divides it. -/
def quotient (b : Binary) : Int × Nat :=
  let n : Int := b.mantissa * twoPow b.power.toNat
  (if b.negative then -n else n, (-b.power).toNat)

end Binary

end StructAtlas.Decimal
