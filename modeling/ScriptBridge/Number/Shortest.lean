/-
# Shortest decimals

The shortest decimal that reads back as a given double, and, of the shortest
ones, the nearest.  The reals that round to a double form an interval; the
search looks at the two neighbours of the double on the grid of decimals with
one digit, then two, and so on, and stops at the first grid with a neighbour
inside the interval.  All comparisons are between integers.
-/
import ScriptBridge.Number.Binary64

namespace ScriptBridge.Number

/-- A positive decimal `digits * 10 ^ (exponent + 1 - n)`, where `n` is the number of
digits: `exponent` is the power of ten of the first digit. -/
structure Decimal where
  /-- The digits, first one first, as a number; the last one is not zero. -/
  digits : Nat
  /-- The power of ten of the first digit. -/
  exponent : Int
  deriving DecidableEq, Repr

namespace Decimal

/-- The number of decimal digits; one for zero. -/
def length (n : Nat) : Nat := (Nat.toDigits 10 n).length

/-- Whether `a * 10 ^ j ≤ b / 2 ^ 1075`. -/
def scaledLE (a : Nat) (j : Int) (b : Nat) : Bool :=
  decide (a * Nat.pow 10 j.toNat * Nat.pow 2 1075 ≤ b * Nat.pow 10 (-j).toNat)

/-- Whether `b / 2 ^ 1075 ≤ a * 10 ^ j`. -/
def leScaled (b a : Nat) (j : Int) : Bool :=
  decide (b * Nat.pow 10 (-j).toNat ≤ a * Nat.pow 10 j.toNat * Nat.pow 2 1075)

/-- The largest `t` with `10 ^ t ≤ h / 2 ^ 1075`, for a positive `h`.  The binary length
gives `t` up to two. -/
def exponentOf (h : Nat) : Int :=
  let low := ((h.log2 : Int) - 1075) * 30103 / 100000 - 1
  if scaledLE 1 (low + 2) h then low + 2
  else if scaledLE 1 (low + 1) h then low + 1
  else low

/-- The reals that round to one double, as half units: from `low` to `high`, the ends
belonging to it when the last significand bit is even. -/
structure Interval where
  /-- The lower end, in half units. -/
  low : Nat
  /-- The upper end, in half units. -/
  high : Nat
  /-- Whether the ends round to the double. -/
  closed : Bool

/-- The interval around positive magnitude bits. -/
def Interval.around (magnitude : Nat) : Interval where
  low := Binary64.unitsOfBits (magnitude - 1) + Binary64.unitsOfBits magnitude
  high := Binary64.unitsOfBits magnitude + Binary64.unitsOfBits (magnitude + 1)
  closed := decide (magnitude % 2 = 0)

/-- Whether the decimal `c * 10 ^ j` lies in the interval. -/
def Interval.holds (i : Interval) (c : Nat) (j : Int) : Bool :=
  if i.closed then leScaled i.low c j && scaledLE c j i.high
  else !scaledLE c j i.low && !leScaled i.high c j

/-- Drops trailing zeros. -/
def stripZeros : Nat → Nat → Nat
  | 0, n => n
  | fuel + 1, n => if n ≠ 0 ∧ n % 10 = 0 then stripZeros fuel (n / 10) else n

/-- The decimal `c * 10 ^ j` with its trailing zeros dropped. -/
def ofScaled (c : Nat) (j : Int) : Decimal where
  digits := stripZeros (length c) c
  exponent := j + length c - 1

/-- The grid neighbour inside the interval that is nearer to `h` half units, if any;
with `upOnTie` a tie goes to the upper one, else to the even one. -/
def nearestOnGrid (upOnTie : Bool) (i : Interval) (h : Nat) (j : Int) : Option Decimal :=
  let down := h * Nat.pow 10 (-j).toNat / (Nat.pow 10 j.toNat * Nat.pow 2 1075)
  let up := down + 1
  match i.holds down j && decide (0 < down), i.holds up j with
  | true, true =>
    -- The midpoint is compared with the value, both doubled.
    let middle := (2 * down + 1) * Nat.pow 10 j.toNat * Nat.pow 2 1075
    let value := 2 * h * Nat.pow 10 (-j).toNat
    if value < middle || (value == middle && !upOnTie && down % 2 == 0) then
      some (ofScaled down j)
    else some (ofScaled up j)
  | true, false => some (ofScaled down j)
  | false, true => some (ofScaled up j)
  | false, false => none

/-- Tries grids of `n` digits, then `n + 1`, for `fuel` grids. -/
def search (upOnTie : Bool) (i : Interval) (h : Nat) (t : Int) : Nat → Int → Decimal
  | 0, n =>
    ofScaled (h * Nat.pow 10 (n - t).toNat / (Nat.pow 10 (t - n).toNat * Nat.pow 2 1075))
      (t - n)
  | fuel + 1, n =>
    match nearestOnGrid upOnTie i h (t + 1 - n) with
    | some d => d
    | none => search upOnTie i h t fuel (n + 1)

/-- The shortest decimal for positive magnitude bits.  Seventeen digits always suffice. -/
def shortest (upOnTie : Bool) (magnitude : Nat) : Decimal :=
  let h := 2 * Binary64.unitsOfBits magnitude
  search upOnTie (Interval.around magnitude) h (exponentOf h) 17 1

end Decimal

end ScriptBridge.Number
