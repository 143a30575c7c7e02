/-
# Double-precision numbers

A double is kept as its 64 bits.  Every finite double is a whole multiple of
`2 ^ -1074`, the smallest positive one, so the arithmetic here is exact integer
arithmetic on that multiple followed by one rounding to nearest, ties to even:

* `Binary64.units` and `Binary64.value` read the multiple without and with its sign;
* `Binary64.ofUnits` rounds a quotient of two naturals, counted in the same unit;
* `Binary64.add`, `mul` and `div` are those two composed.
-/
namespace ScriptBridge.Number

/-- A double-precision number, as its 64 bits. -/
structure Binary64 where
  /-- Sign, then eleven exponent bits, then fifty-two bits of fraction. -/
  bits : UInt64
  deriving DecidableEq, Repr, Inhabited

namespace Binary64

/-- The magnitude bits of infinity: all exponent bits set, no fraction. -/
def infinityBits : Nat := 0x7FF0000000000000

/-- The bits without the sign. -/
def magnitudeBits (x : Binary64) : Nat := x.bits.toNat % 0x8000000000000000

/-- Whether the sign bit is set. -/
def isNegative (x : Binary64) : Bool := decide (0x8000000000000000 ≤ x.bits.toNat)

/-- All exponent bits set and some fraction bit too. -/
def isNaN (x : Binary64) : Bool := decide (infinityBits < x.magnitudeBits)

/-- Neither infinite nor a NaN. -/
def isFinite (x : Binary64) : Bool := decide (x.magnitudeBits < infinityBits)

/-- The multiple of `2 ^ -1074` that magnitude bits stand for.  Infinity reads as
`2 ^ 1024`, the first power of two past the largest finite double. -/
def unitsOfBits (magnitude : Nat) : Nat :=
  let exponent := magnitude / 0x10000000000000
  let fraction := magnitude % 0x10000000000000
  if exponent = 0 then fraction else (0x10000000000000 + fraction) * Nat.pow 2 (exponent - 1)

/-- The magnitude as a multiple of `2 ^ -1074`. -/
def units (x : Binary64) : Nat := unitsOfBits x.magnitudeBits

/-- The signed multiple of `2 ^ -1074`. -/
def value (x : Binary64) : Int := if x.isNegative then -(x.units : Int) else x.units

/-- The number with this sign and these magnitude bits. -/
def ofSignMagnitude (negative : Bool) (magnitude : Nat) : Binary64 :=
  ⟨UInt64.ofNat (if negative then 0x8000000000000000 + magnitude else magnitude)⟩

/-- The one NaN that arithmetic here produces. -/
def nan : Binary64 := ofSignMagnitude false (infinityBits + 0x8000000000000)

/-- Infinity with a sign. -/
def infinity (negative : Bool) : Binary64 := ofSignMagnitude negative infinityBits

/-- Zero with a sign. -/
def zero (negative : Bool) : Binary64 := ofSignMagnitude negative 0

/-- How many units make one. -/
def unitsPerOne : Nat := Nat.pow 2 1074

/-- Rounds a quotient of naturals to the nearest natural, ties to even. -/
def roundEven (numerator denominator : Nat) : Nat :=
  let quotient := numerator / denominator
  let twice := 2 * (numerator % denominator)
  if twice < denominator then quotient
  else if denominator < twice then quotient + 1
  else quotient + quotient % 2

/-- The magnitude bits nearest to `numerator / denominator` units, ties to even.
The exponent is chosen so that the rounded significand has at most 53 bits; a
significand that rounds up to `2 ^ 53` carries into the exponent by itself. -/
def bitsOfUnits (numerator denominator : Nat) : Nat :=
  let exponent := (numerator / denominator).log2 - 52
  exponent * 0x10000000000000 + roundEven numerator (denominator * Nat.pow 2 exponent)

/-- The double nearest to `numerator / denominator` units, infinity past the largest. -/
def ofUnits (negative : Bool) (numerator denominator : Nat) : Binary64 :=
  ofSignMagnitude negative (min (bitsOfUnits numerator denominator) infinityBits)

/-- The double nearest to an integer; zero is positive. -/
def ofInt (n : Int) : Binary64 := ofUnits (decide (n < 0)) (n.natAbs * unitsPerOne) 1

/-- Whether the number is finite and has no fractional part. -/
def isIntegral (x : Binary64) : Bool := x.isFinite && decide (x.units % unitsPerOne = 0)

/-- The integer part, the fraction dropped; a NaN or an infinity gives zero. -/
def truncate (x : Binary64) : Int :=
  if x.isFinite then
    let whole : Int := (x.units / unitsPerOne : Nat)
    if x.isNegative then -whole else whole
  else 0

/-- The nearest integer, a half going away from zero; a NaN or an infinity gives zero. -/
def roundHalfAway (x : Binary64) : Int :=
  if x.isFinite then
    let whole : Int := ((2 * x.units + unitsPerOne) / (2 * unitsPerOne) : Nat)
    if x.isNegative then -whole else whole
  else 0

/-- Numeric order; false as soon as one side is a NaN. -/
def less (x y : Binary64) : Bool := !x.isNaN && !y.isNaN && decide (x.value < y.value)

/-- Numeric equality: the two zeros are equal, and a NaN equals nothing. -/
def same (x y : Binary64) : Bool := !x.isNaN && !y.isNaN && decide (x.value = y.value)

/-- Whether the number is the zero whose sign bit is set. -/
def isNegativeZero (x : Binary64) : Bool := x.isNegative && decide (x.magnitudeBits = 0)

/-- The sum of two doubles, rounded once. -/
def add (x y : Binary64) : Binary64 :=
  if x.isNaN || y.isNaN then nan
  else if !x.isFinite then
    if !y.isFinite && x.isNegative != y.isNegative then nan else x
  else if !y.isFinite then y
  else
    let sum := x.value + y.value
    if sum = 0 then zero (x.isNegative && y.isNegative)
    else ofUnits (decide (sum < 0)) sum.natAbs 1

/-- The product of two doubles, rounded once. -/
def mul (x y : Binary64) : Binary64 :=
  let negative := x.isNegative != y.isNegative
  if x.isNaN || y.isNaN then nan
  else if !x.isFinite || !y.isFinite then
    if x.units = 0 || y.units = 0 then nan else infinity negative
  else ofUnits negative (x.units * y.units) unitsPerOne

/-- The quotient of two doubles, rounded once. -/
def div (x y : Binary64) : Binary64 :=
  let negative := x.isNegative != y.isNegative
  if x.isNaN || y.isNaN then nan
  else if !x.isFinite then if y.isFinite then infinity negative else nan
  else if !y.isFinite then zero negative
  else if y.units = 0 then if x.units = 0 then nan else infinity negative
  else ofUnits negative (x.units * unitsPerOne) y.units

/-- The double that a single-precision bit pattern stands for.  Single-precision
numbers are multiples of `2 ^ -149`, and all of them are doubles. -/
def ofBinary32 (bits : UInt32) : Binary64 :=
  let negative := decide (0x80000000 ≤ bits.toNat)
  let magnitude := bits.toNat % 0x80000000
  let exponent := magnitude / 0x800000
  let fraction := magnitude % 0x800000
  if exponent = 255 then if fraction = 0 then infinity negative else nan
  else
    let units := if exponent = 0 then fraction else (0x800000 + fraction) * Nat.pow 2 (exponent - 1)
    ofUnits negative (units * Nat.pow 2 (1074 - 149)) 1

/-- The 32-bit integer equal to the number, if there is one.  Both zeros are the integer 0. -/
def toInt32? (x : Binary64) : Option Int32 :=
  if x.isIntegral && decide (-0x80000000 ≤ x.truncate) && decide (x.truncate < 0x80000000) then
    some (Int32.ofInt x.truncate)
  else none

end Binary64

end ScriptBridge.Number
