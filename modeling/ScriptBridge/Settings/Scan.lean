/-
# Scanning settings text

Settings are written as JSON.  The functions here take the front off a text: blanks,
words, strings, numbers and whole values that are of no interest.  A text fails in
one of three ways: it ends too early, it is not JSON, or it is JSON of the wrong
shape.  The first fault from the left decides.
-/
import ScriptBridge.Number.Binary64

namespace ScriptBridge.Settings

open ScriptBridge.Number

/-- How a settings text fails. -/
inductive Fault where
  /-- The text is not JSON. -/
  | malformed
  /-- The text is JSON, but a value has the wrong shape or is out of range. -/
  | mismatch
  /-- The text ends too early. -/
  | truncated
  deriving DecidableEq, Repr

/-- Takes a value off the front of a text. -/
abbrev Scan (α : Type) := List Char → Except Fault (α × List Char)

namespace Scan

/-- The four blanks of JSON. -/
def isBlank (c : Char) : Bool := c = ' ' || c = '\n' || c = '\t' || c = '\r'

/-- The text after leading blanks. -/
def skipBlanks (cs : List Char) : List Char := cs.dropWhile isBlank

/-- The rest of a word whose first letter is known. -/
def word : List Char → Scan Unit
  | [], cs => .ok ((), cs)
  | _ :: _, [] => .error .truncated
  | w :: ws, c :: cs => if w = c then word ws cs else .error .malformed

/-- The bytes that a text takes. -/
def byteCount (cs : List Char) : Nat := cs.foldr (fun c n => c.utf8Size + n) 0

/-- The value of a hexadecimal digit. -/
def hexDigit? (c : Char) : Option Nat :=
  if c.isDigit then some (c.toNat - '0'.toNat)
  else if 'a' ≤ c ∧ c ≤ 'f' then some (c.toNat - 'a'.toNat + 10)
  else if 'A' ≤ c ∧ c ≤ 'F' then some (c.toNat - 'A'.toNat + 10)
  else none

/-- Four hexadecimal digits. -/
def hex4 : Scan Nat := fun cs =>
  if byteCount (cs.take 4) < 4 then .error .truncated
  else
    match cs with
    | a :: b :: c :: d :: rest =>
      match hexDigit? a, hexDigit? b, hexDigit? c, hexDigit? d with
      | some a, some b, some c, some d => .ok (((a * 16 + b) * 16 + c) * 16 + d, rest)
      | _, _, _, _ => .error .malformed
    | _ => .error .malformed

/-- The character that a one-letter escape stands for. -/
def simpleEscape? : Char → Option Char
  | '"' => some '"'
  | '\\' => some '\\'
  | '/' => some '/'
  | 'b' => some '\x08'
  | 'f' => some '\x0c'
  | 'n' => some '\n'
  | 'r' => some '\r'
  | 't' => some '\t'
  | _ => none

/-- The second half of a surrogate pair, escape and all. -/
def lowHalf : Scan Nat
  | [] => .error .truncated
  | '\\' :: [] => .error .truncated
  | '\\' :: 'u' :: cs => do
    let (n, rest) ← hex4 cs
    if 0xDC00 ≤ n ∧ n ≤ 0xDFFF then .ok (n, rest) else .error .malformed
  | _ => .error .malformed

/-- The character of a `u` escape; surrogates must come in pairs. -/
def unicodeEscape : Scan Char := fun cs => do
  let (n, rest) ← hex4 cs
  if n < 0xD800 ∨ 0xDFFF < n then .ok (Char.ofNat n, rest)
  else if 0xDC00 ≤ n then .error .malformed
  else
    let (m, rest) ← lowHalf rest
    .ok (Char.ofNat (0x10000 + (n - 0xD800) * 0x400 + (m - 0xDC00)), rest)

/-- The rest of a string after its opening quote; `fuel` bounds its length. -/
def stringTail : Nat → Scan (List Char)
  | 0, _ => .error .truncated
  | _ + 1, [] => .error .truncated
  | fuel + 1, c :: cs =>
    if c = '"' then .ok ([], cs)
    else if c = '\\' then
      match cs with
      | [] => .error .truncated
      | 'u' :: cs => do
        let (d, rest) ← unicodeEscape cs
        let (ds, rest) ← stringTail fuel rest
        .ok (d :: ds, rest)
      | e :: cs =>
        match simpleEscape? e with
        | none => .error .malformed
        | some d => do
          let (ds, rest) ← stringTail fuel cs
          .ok (d :: ds, rest)
    else if c.toNat < 0x20 then .error .malformed
    else do
      let (ds, rest) ← stringTail fuel cs
      .ok (c :: ds, rest)

/-- A string after its opening quote. -/
def string : Scan String := fun cs => do
  let (ds, rest) ← stringTail (cs.length + 1) cs
  .ok (String.ofList ds, rest)

/-- The rest of a string of no interest; `u` escapes may be any four digits. -/
def skipString : Nat → Scan Unit
  | 0, _ => .error .truncated
  | _ + 1, [] => .error .truncated
  | fuel + 1, c :: cs =>
    if c = '"' then .ok ((), cs)
    else if c = '\\' then
      match cs with
      | [] => .error .truncated
      | 'u' :: cs => do
        let (_, rest) ← hex4 cs
        skipString fuel rest
      | e :: cs => if (simpleEscape? e).isSome then skipString fuel cs else .error .malformed
    else if c.toNat < 0x20 then .error .malformed
    else skipString fuel cs

/-- The digits in front of a text, and the rest. -/
def digits (cs : List Char) : List Char × List Char := cs.span Char.isDigit

/-- The number that digits stand for. -/
def valueOf (ds : List Char) : Nat := ds.foldl (fun n d => 10 * n + (d.toNat - '0'.toNat)) 0

/-- The exponent mark and digits of a number of no interest. -/
def skipExponent : Scan Unit := fun cs =>
  let cs := match cs with
    | '+' :: rest => rest
    | '-' :: rest => rest
    | cs => cs
  match digits cs with
  | ([], _) => .error .malformed
  | (_, rest) => .ok ((), rest)

/-- What may follow the whole part of a number of no interest. -/
def skipFraction : Scan Unit
  | '.' :: cs =>
    match digits cs with
    | ([], _) => .error .malformed
    | (_, 'e' :: rest) => skipExponent rest
    | (_, 'E' :: rest) => skipExponent rest
    | (_, rest) => .ok ((), rest)
  | 'e' :: cs => skipExponent cs
  | 'E' :: cs => skipExponent cs
  | cs => .ok ((), cs)

/-- A number of no interest, after its sign. -/
def skipNumber : Scan Unit := fun cs =>
  match digits cs with
  | ([], _) => .error .malformed
  | ('0' :: _ :: _, _) => .error .malformed
  | (_, rest) => skipFraction rest

/-- The largest number of 64 bits. -/
def maxUnsigned : Nat := 0xFFFFFFFFFFFFFFFF

/-- A number as it was read: a natural number, a negative integer, or any other. -/
inductive Numeral where
  | natural (n : Nat)
  | negative
  | other
  deriving DecidableEq, Repr

/-- The significand of at most 64 bits that the front of some digits gives, starting
from `n`, and how many digits were left out. -/
def significand : Nat → List Char → Nat × Nat
  | n, [] => (n, 0)
  | n, d :: ds =>
    let m := 10 * n + (d.toNat - '0'.toNat)
    if m ≤ maxUnsigned then significand m ds else (n, ds.length + 1)

/-- Whether a significand times a power of ten is past the largest double. -/
def overflows (significand : Nat) (exponent : Int) : Bool :=
  decide (0 < significand) && decide (0 ≤ exponent) &&
    (decide (308 < exponent) ||
      !((Binary64.ofInt significand).mul (.ofInt (Nat.pow 10 exponent.toNat))).isFinite)

/-- The numeral of a number with a fraction or an exponent. -/
def inexact (significand : Nat) (exponent : Int) : Scan Numeral := fun cs =>
  if overflows significand exponent then .error .malformed else .ok (.other, cs)

/-- The exponent of a number after its mark.  Exponents past 31 bits count as infinite. -/
def exponent (significand : Nat) (start : Int) : Scan Numeral := fun cs =>
  let (negative, cs) := match cs with
    | '+' :: rest => (false, rest)
    | '-' :: rest => (true, rest)
    | cs => (false, cs)
  match cs with
  | [] => .error .truncated
  | cs =>
    match digits cs with
    | ([], _) => .error .malformed
    | (ds, rest) =>
      let e := valueOf ds
      if 0x80000000 ≤ e then
        if 0 < significand ∧ !negative then .error .malformed else .ok (.other, rest)
      else inexact significand (if negative then start - e else start + e) rest

/-- The fraction of a number after its point. -/
def fraction (whole : Nat) (start : Int) : Scan Numeral := fun cs =>
  match digits cs with
  | ([], []) => .error .truncated
  | ([], _) => .error .malformed
  | (ds, rest) =>
    let (s, dropped) := significand whole ds
    let e := start - (ds.length - dropped : Nat)
    match rest with
    | 'e' :: rest => exponent s e rest
    | 'E' :: rest => exponent s e rest
    | rest => inexact s e rest

/-- A number after its sign. -/
def number (negative : Bool) : Scan Numeral := fun cs =>
  match digits cs with
  | ([], []) => .error .truncated
  | ([], _) => .error .malformed
  | ('0' :: _ :: _, _) => .error .malformed
  | (ds, rest) =>
    let (s, dropped) := significand 0 ds
    match rest with
    | '.' :: rest => fraction s dropped rest
    | 'e' :: rest => exponent s dropped rest
    | 'E' :: rest => exponent s dropped rest
    | rest =>
      if 0 < dropped then inexact s dropped rest
      else if !negative then .ok (.natural s, rest)
      else if s = 0 ∨ 0x8000000000000000 < s then .ok (.other, rest)
      else .ok (.negative, rest)

/-- The fault of a value that is not of the wanted kind: a mismatch, unless it is not
even well formed at its front. -/
def wrongKind {α : Type} : Scan α
  | 'n' :: cs => do let _ ← word "ull".toList cs; .error .mismatch
  | 't' :: cs => do let _ ← word "rue".toList cs; .error .mismatch
  | 'f' :: cs => do let _ ← word "alse".toList cs; .error .mismatch
  | '-' :: cs => do let _ ← number true cs; .error .mismatch
  | '"' :: cs => do let _ ← string cs; .error .mismatch
  | '[' :: _ => .error .mismatch
  | '\x7b' :: _ => .error .mismatch
  | c :: cs =>
    if c.isDigit then do let _ ← number false (c :: cs); .error .mismatch
    else .error .malformed
  | [] => .error .malformed

/-- What comes between a key and its value. -/
def colon : Scan Unit := fun cs =>
  match skipBlanks cs with
  | ':' :: rest => .ok ((), rest)
  | [] => .error .truncated
  | _ => .error .malformed

/-- Where the next element or entry starts, none at the closing bracket, which is taken. -/
def nextItem (closing : Char) (first : Bool) : Scan (Option Unit) := fun cs =>
  match skipBlanks cs with
  | [] => .error .truncated
  | c :: rest =>
    if c = closing then .ok (none, rest)
    else if first then .ok (some (), c :: rest)
    else if c = ',' then
      match skipBlanks rest with
      | [] => .error .truncated
      | d :: rest => if d = closing then .error .malformed else .ok (some (), d :: rest)
    else .error .malformed

/-- The opening quote of a key. -/
def openKey : Scan Unit
  | '"' :: cs => .ok ((), cs)
  | _ => .error .malformed

mutual
/-- A value of no interest. -/
def skipValue : Nat → Scan Unit
  | 0, _ => .error .truncated
  | fuel + 1, cs =>
    match skipBlanks cs with
    | [] => .error .truncated
    | 'n' :: cs => word "ull".toList cs
    | 't' :: cs => word "rue".toList cs
    | 'f' :: cs => word "alse".toList cs
    | '-' :: cs => skipNumber cs
    | '"' :: cs => skipString (cs.length + 1) cs
    | '[' :: cs => skipElements fuel true cs
    | '\x7b' :: cs => skipEntries fuel true cs
    | c :: cs => if c.isDigit then skipNumber (c :: cs) else .error .malformed

/-- The elements of an array of no interest. -/
def skipElements : Nat → Bool → Scan Unit
  | 0, _, _ => .error .truncated
  | fuel + 1, first, cs => do
    let (more, cs) ← nextItem ']' first cs
    match more with
    | none => .ok ((), cs)
    | some () => do
      let (_, cs) ← skipValue fuel cs
      skipElements fuel false cs

/-- The entries of an object of no interest. -/
def skipEntries : Nat → Bool → Scan Unit
  | 0, _, _ => .error .truncated
  | fuel + 1, first, cs => do
    let (more, cs) ← nextItem '\x7d' first cs
    match more with
    | none => .ok ((), cs)
    | some () => do
      let (_, cs) ← openKey cs
      let (_, cs) ← skipString (cs.length + 1) cs
      let (_, cs) ← colon cs
      let (_, cs) ← skipValue fuel cs
      skipEntries fuel false cs
end

end Scan

end ScriptBridge.Settings
