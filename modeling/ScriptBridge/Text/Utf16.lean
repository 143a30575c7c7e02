/-
# Script strings

Script holds a string as a list of 16-bit units, which need not be well formed: a
surrogate may stand alone.  Host strings are sequences of characters.  This file
converts between the two; only a lone surrogate stands in the way, and then the
answer says where it is, in bytes of UTF-8 with a lone surrogate counted as three.
-/
namespace ScriptBridge.Text

/-- A script string, as its 16-bit units. -/
abbrev Units := List UInt16

namespace Units

/-- The units of one character: one below `2 ^ 16`, else a surrogate pair. -/
def ofChar (c : Char) : Units :=
  if c.toNat < 0x10000 then [UInt16.ofNat c.toNat]
  else
    let rest := c.toNat - 0x10000
    [UInt16.ofNat (0xD800 + rest / 0x400), UInt16.ofNat (0xDC00 + rest % 0x400)]

/-- The units of a list of characters. -/
def ofChars (cs : List Char) : Units := cs.flatMap ofChar

/-- The units of a host string. -/
def ofString (s : String) : Units := ofChars s.toList

/-- Whether a unit is the first half of a pair. -/
def isHigh (u : UInt16) : Bool := decide (0xD800 ≤ u.toNat) && decide (u.toNat < 0xDC00)

/-- Whether a unit is the second half of a pair. -/
def isLow (u : UInt16) : Bool := decide (0xDC00 ≤ u.toNat) && decide (u.toNat < 0xE000)

/-- The character of a surrogate pair. -/
def pair (high low : UInt16) : Char :=
  Char.ofNat (0x10000 + (high.toNat - 0xD800) * 0x400 + (low.toNat - 0xDC00))

/-- The characters of a script string, or the byte offset of its first lone surrogate,
where `offset` bytes have gone before. -/
def toCharsFrom (offset : Nat) : Units → Except Nat (List Char)
  | [] => .ok []
  | [u] => if isHigh u || isLow u then .error offset else .ok [Char.ofNat u.toNat]
  | u :: v :: rest =>
    if isHigh u && isLow v then (pair u v :: ·) <$> toCharsFrom (offset + 4) rest
    else if isHigh u || isLow u then .error offset
    else
      let c := Char.ofNat u.toNat
      (c :: ·) <$> toCharsFrom (offset + c.utf8Size) (v :: rest)

/-- The host string of a script string, or the byte offset of its first lone surrogate. -/
def toString (units : Units) : Except Nat String := String.ofList <$> toCharsFrom 0 units

end Units

end ScriptBridge.Text
