/-
# Building records

One constructor per kind, the other direction of `Record.view`.
-/
import ScriptBridge.Wire.Record

namespace ScriptBridge.Wire.Record

open ScriptBridge.Number

/-- A record whose payload is not a pointer. -/
def scalar (kind : Kind) (bits : UInt64) : Record := .plain kind.code bits 0

/-- The null value. -/
def null : Record := scalar .null 0

/-- A boolean. -/
def boolean (b : Bool) : Record := scalar .boolean (if b then 1 else 0)

/-- A 32-bit integer, in the low half of the payload. -/
def integer (n : Int32) : Record := scalar .integer n.toUInt32.toUInt64

/-- A double. -/
def number (x : Binary64) : Record := scalar .number x.bits

/-- A date, in milliseconds since the start of 1970. -/
def date (millis : Binary64) : Record := scalar .date millis.bits

/-- A host entry. -/
def managed (slot : Slot) : Record := scalar .managedRef slot.toInt32.toUInt32.toUInt64

/-- A thrown host entry. -/
def managedError (slot : Slot) : Record := scalar .managedError slot.toInt32.toUInt32.toUInt64

/-- A script object. -/
def foreign (handle : Handle) : Record := scalar .foreignRef handle.toInt64.toUInt64

/-- A thrown script object. -/
def foreignError (handle : Handle) : Record := scalar .foreignError handle.toInt64.toUInt64

/-- The longest text or array a length field can count. -/
def maxLength : Nat := 0x7FFFFFFF

/-- The longest start of a list of characters that takes at most `room` bytes. -/
def clipChars : Nat → List Char → List Char
  | _, [] => []
  | room, c :: rest => if c.utf8Size ≤ room then c :: clipChars (room - c.utf8Size) rest else []

/-- A text cut to what a length field can count, at a character boundary. -/
def clip (s : String) : String :=
  if s.utf8ByteSize ≤ maxLength then s else String.ofList (clipChars maxLength s.toList)

/-- A string. -/
def string (s : String) : Record := .text .string (clip s).toUTF8

/-- An error known only by its text, or not even by that. -/
def unknownError : Option String → Record
  | some s => .text .unknownError (clip s).toUTF8
  | none => scalar .unknownError 0

/-- An array of nulls, to be filled by writes; an error where a length field cannot count them. -/
def nulls (length : Nat) : Record :=
  if length ≤ maxLength then .array (List.replicate length null)
  else unknownError (some "array length exceeds the wire limit")

/-- The size of one array element in bytes. -/
def elementSize : Nat := 16

end ScriptBridge.Wire.Record
