/-
# How a double is written

The digits of a double come from `Decimal.shortest`; what remains are decisions
of the place where the text appears, and each such place is one `Layout`.
-/
import ScriptBridge.Number.Shortest

namespace ScriptBridge.Number

/-- The decisions of one way of writing doubles. -/
structure Layout where
  /-- The powers of ten of the first digit for which no exponent is written. -/
  positional : Int → Bool
  /-- Whether a whole number ends in `.0` when no exponent is written. -/
  pointZero : Bool
  /-- Whether a positive exponent has a plus sign. -/
  exponentPlus : Bool
  /-- Whether the sign of zero is written. -/
  signedZero : Bool
  /-- The text of infinity, without sign. -/
  infinity : String
  /-- Whether a value half way between two shortest candidates takes the upper one; it
  takes the even one otherwise. -/
  upOnTie : Bool

namespace Layout

/-- `n` zeros. -/
def zeros (n : Nat) : String := String.ofList (List.replicate n '0')

/-- The digits with no exponent. -/
def plain (l : Layout) (d : Decimal) : String :=
  let digits := (Nat.toDigits 10 d.digits)
  if d.exponent < 0 then
    "0." ++ zeros (-d.exponent - 1).toNat ++ String.ofList digits
  else
    let whole := d.exponent.toNat + 1
    if digits.length ≤ whole then
      String.ofList digits ++ zeros (whole - digits.length) ++ (if l.pointZero then ".0" else "")
    else String.ofList (digits.take whole) ++ "." ++ String.ofList (digits.drop whole)

/-- One digit, the others after a point, then the exponent. -/
def scientific (l : Layout) (d : Decimal) : String :=
  let digits := Nat.toDigits 10 d.digits
  let fraction := match digits.tail with
    | [] => ""
    | rest => "." ++ String.ofList rest
  let sign := if d.exponent < 0 then "-" else if l.exponentPlus then "+" else ""
  String.ofList (digits.take 1) ++ fraction ++ "e" ++ sign ++ toString d.exponent.natAbs

/-- The text of a double. -/
def write (l : Layout) (x : Binary64) : String :=
  if x.isNaN then "NaN"
  else if x.magnitudeBits = 0 then
    (if x.isNegative && l.signedZero then "-" else "") ++ (if l.pointZero then "0.0" else "0")
  else
    let sign := if x.isNegative then "-" else ""
    if !x.isFinite then sign ++ l.infinity
    else
      let d := Decimal.shortest l.upOnTie x.magnitudeBits
      sign ++ (if l.positional d.exponent then l.plain d else l.scientific d)

/-- Inspected wire values: a point is always there, and an exponent appears below
`10 ^ -4` and from `10 ^ 16` on. -/
def inspected : Layout where
  positional t := decide (-4 ≤ t) && decide (t < 16)
  pointZero := true
  exponentPlus := false
  signedZero := true
  infinity := "inf"
  upOnTie := true

/-- Inspected host numbers: all digits, no exponent, and no point in a whole number. -/
def allDigits : Layout where
  positional _ := true
  pointZero := false
  exponentPlus := false
  signedZero := true
  infinity := "inf"
  upOnTie := true

/-- A number that script turns into a string: an exponent appears below `10 ^ -6` and
from `10 ^ 21` on, and zero has no sign. -/
def script : Layout where
  positional t := decide (-6 ≤ t) && decide (t < 21)
  pointZero := false
  exponentPlus := true
  signedZero := false
  infinity := "Infinity"
  upOnTie := false

end Layout

end ScriptBridge.Number
