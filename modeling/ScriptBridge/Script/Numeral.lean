/-
# Numbers in script strings

Script reads a string as a number where it wants one.  Blanks around the number do not
count, and nothing at all is zero.  A number is decimal, with an optional sign, point and
exponent, or it is a whole number in base 16, 8 or 2, marked as such and without a sign.
Any other string is not a number.
-/
import ScriptBridge.Number.Binary64
import ScriptBridge.Text.Utf16

namespace ScriptBridge.Script.Numeral

open ScriptBridge.Number ScriptBridge.Text

/-- The blanks and line ends of script. -/
def isBlank (c : Char) : Bool :=
  (0x9 ≤ c.toNat && c.toNat ≤ 0xD) || (0x2000 ≤ c.toNat && c.toNat ≤ 0x200A) ||
    [0x20, 0xA0, 0x1680, 0x2028, 0x2029, 0x202F, 0x205F, 0x3000, 0xFEFF].contains c.toNat

/-- The text without the blanks around it. -/
def trimmed (cs : List Char) : List Char :=
  ((cs.dropWhile isBlank).reverse.dropWhile isBlank).reverse

/-- The value of a letter or digit, `a` counting ten. -/
def digitValue? (c : Char) : Option Nat :=
  if c.isDigit then some (c.toNat - '0'.toNat)
  else if 'a' ≤ c ∧ c ≤ 'z' then some (c.toNat - 'a'.toNat + 10)
  else if 'A' ≤ c ∧ c ≤ 'Z' then some (c.toNat - 'A'.toNat + 10)
  else none

/-- The natural number that digits of a base stand for, going on from `n`. -/
def natural? (base : Nat) : Nat → List Char → Option Nat
  | n, [] => some n
  | n, c :: cs =>
    match digitValue? c with
    | some d => if d < base then natural? base (base * n + d) cs else none
    | none => none

/-- A whole number in a base; there must be a digit. -/
def whole? (base : Nat) (cs : List Char) : Option Nat :=
  if cs.isEmpty then none else natural? base 0 cs

/-- The base that the letter after a zero marks. -/
def base? (mark : Char) : Option Nat :=
  if mark = 'x' ∨ mark = 'X' then some 16
  else if mark = 'o' ∨ mark = 'O' then some 8
  else if mark = 'b' ∨ mark = 'B' then some 2
  else none

/-- The exponent at the end of a number, zero when there is none. -/
def exponent? : List Char → Option Int
  | [] => some 0
  | mark :: cs =>
    if mark = 'e' ∨ mark = 'E' then
      match cs with
      | '-' :: d :: ds => (natural? 10 0 (d :: ds)).map fun n => -n
      | '+' :: d :: ds => (natural? 10 0 (d :: ds)).map fun n => n
      | d :: ds => (natural? 10 0 (d :: ds)).map fun n => n
      | [] => none
    else none

/-- The double nearest to a number times a power of ten.  Exponents past those of all
doubles are as good as the first one past them. -/
def scaled (negative : Bool) (significand : Nat) (digits : Nat) (exponent : Int) : Binary64 :=
  let reach : Int := 400 + digits
  let power := max (-reach) (min reach exponent)
  if power < 0 then
    .ofUnits negative (significand * Binary64.unitsPerOne) (Nat.pow 10 (-power).toNat)
  else .ofUnits negative (significand * Binary64.unitsPerOne * Nat.pow 10 power.toNat) 1

/-- A decimal number after its sign. -/
def decimal (negative : Bool) (cs : List Char) : Binary64 :=
  if cs = "Infinity".toList then .infinity negative
  else
    let (before, rest) := cs.span Char.isDigit
    let (after, rest) := match rest with
      | '.' :: rest => rest.span Char.isDigit
      | rest => ([], rest)
    match before ++ after, natural? 10 0 (before ++ after), exponent? rest with
    | _ :: _, some n, some e =>
      scaled negative n (before ++ after).length (e - after.length)
    | _, _, _ => .nan

/-- The characters of a string; half a pair of surrogates is none that means anything. -/
def characters (units : Units) : List Char := units.map fun u => Char.ofNat u.toNat

/-- A decimal number with an optional sign. -/
def signed : List Char → Binary64
  | '+' :: cs => decimal false cs
  | '-' :: cs => decimal true cs
  | cs => decimal false cs

/-- The number that a string stands for. -/
def read (units : Units) : Binary64 :=
  match trimmed (characters units) with
  | [] => .zero false
  | '0' :: mark :: ds =>
    match base? mark with
    | some base => (whole? base ds).elim .nan fun n => .ofInt n
    | none => decimal false ('0' :: mark :: ds)
  | cs => signed cs

/-- The large integer that a string stands for: digits with an optional sign, or a whole
number in another base. -/
def readWhole? (units : Units) : Option Int :=
  match trimmed (characters units) with
  | [] => some 0
  | '+' :: cs => (whole? 10 cs).map fun n => n
  | '-' :: cs => (whole? 10 cs).map fun n => -n
  | '0' :: mark :: ds =>
    match base? mark with
    | some base => (whole? base ds).map fun n => n
    | none => (natural? 10 0 (mark :: ds)).map fun n => n
  | cs => (whole? 10 cs).map fun n => n

end ScriptBridge.Script.Numeral
