/-
# Wire records

A record is what actually crosses: a type code, a length and a payload of 64
bits.  The payload of a text or of an array is a pointer, null or to a buffer
that the record owns.  Records come from a peer that may speak another version
of the format, so any code, bits and length can occur, and reading one can fail.
-/
import ScriptBridge.Number.Binary64
import ScriptBridge.Wire.Kind
import ScriptBridge.Wire.Reference

namespace ScriptBridge.Wire

open ScriptBridge.Number

/-- The two kinds whose payload is a text. -/
inductive TextKind where
  | string
  | unknownError
  deriving DecidableEq, Repr, Inhabited

/-- The kind of value a text is the payload of. -/
def TextKind.kind : TextKind → Kind
  | .string => .string
  | .unknownError => .unknownError

/-- A value as it crosses between host and script. -/
inductive Record where
  /-- A record that owns no buffer; for a text or an array its pointer is null. -/
  | plain (tag : Int32) (bits : UInt64) (length : Int32)
  /-- A record that owns a text buffer of as many bytes as its length says. -/
  | text (kind : TextKind) (bytes : ByteArray)
  /-- A record that owns a buffer of as many elements as its length says. -/
  | array (items : List Record)
  deriving Inhabited

/-- Why a record cannot be read. -/
inductive ProtocolError where
  /-- The type code is none of the twelve. -/
  | unknownDiscriminant (code : Int32)
  /-- The payload does not fit the kind. -/
  | corruptPayload (kind : Kind) (reason : String)
  deriving DecidableEq, Repr

/-- The text of a reading error. -/
def ProtocolError.message : ProtocolError → String
  | .unknownDiscriminant code => "unknown value discriminant " ++ toString code.toInt
  | .corruptPayload kind reason => "corrupt " ++ kind.name ++ " payload: " ++ reason

/-- One layer of a value: what a record says, the elements of an array still being records. -/
inductive View where
  | null
  | boolean (b : Bool)
  | integer (n : Int32)
  | number (x : Binary64)
  | string (s : String)
  /-- Milliseconds since the start of 1970. -/
  | date (millis : Binary64)
  | array (items : List Record)
  | managedRef (slot : Slot)
  | managedError (slot : Slot)
  /-- The empty handle is `none`. -/
  | foreignRef (handle : Option Handle)
  | foreignError (handle : Option Handle)
  | unknownError (message : Option String)

namespace Record

/-- The type code. -/
def tag : Record → Int32
  | .plain tag _ _ => tag
  | .text kind _ => kind.kind.code
  | .array _ => Kind.array.code

/-- The length field: bytes of a text, elements of an array. -/
def length : Record → Int32
  | .plain _ _ length => length
  | .text _ bytes => Int32.ofNat bytes.size
  | .array items => Int32.ofNat items.length

/-- The kind, if the code is known. -/
def kind? (r : Record) : Except ProtocolError Kind :=
  match Kind.ofCode? r.tag with
  | some k => .ok k
  | none => .error (.unknownDiscriminant r.tag)

/-- Whether the code is that of an error, readable or not. -/
def isError (r : Record) : Bool :=
  match Kind.ofCode? r.tag with
  | some k => k.isError
  | none => false

/-- The low 32 bits of a payload as a signed integer. -/
def lowInt32 (bits : UInt64) : Int32 := bits.toUInt32.toInt32

/-- A null pointer stands for nothing when the length is zero, and for nothing else. -/
def readNull {α : Type} (kind : Kind) (length : Int32) (empty : α) : Except ProtocolError α :=
  if length.toInt < 0 then .error (.corruptPayload kind "negative length")
  else if length = 0 then .ok empty
  else .error (.corruptPayload kind "null pointer with nonzero length")

/-- The slot in a payload. -/
def readSlot (kind : Kind) (bits : UInt64) : Except ProtocolError Slot :=
  match Slot.ofInt32? (lowInt32 bits) with
  | some s => .ok s
  | none => .error (.corruptPayload kind "negative slot index")

/-- The handle in a payload; zero is the empty one. -/
def readHandle (kind : Kind) (bits : UInt64) : Except ProtocolError (Option Handle) :=
  if bits = 0 then .ok none
  else
    match Handle.ofInt64? bits.toInt64 with
    | some h => .ok (some h)
    | none => .error (.corruptPayload kind "handle id out of range")

/-- What a record without a buffer says. -/
def viewPlain (kind : Kind) (bits : UInt64) (length : Int32) : Except ProtocolError View :=
  match kind with
  | .null => .ok .null
  | .boolean => .ok (.boolean (decide (lowInt32 bits ≠ 0)))
  | .integer => .ok (.integer (lowInt32 bits))
  | .number => .ok (.number ⟨bits⟩)
  | .date => .ok (.date ⟨bits⟩)
  | .string => readNull kind length (.string "")
  | .unknownError => readNull kind length (.unknownError none)
  | .array => readNull kind length (.array [])
  | .managedRef => .managedRef <$> readSlot kind bits
  | .managedError => .managedError <$> readSlot kind bits
  | .foreignRef => .foreignRef <$> readHandle kind bits
  | .foreignError => .foreignError <$> readHandle kind bits

/-- What a text buffer says. -/
def viewText (kind : TextKind) (bytes : ByteArray) : Except ProtocolError View :=
  match String.fromUTF8? bytes with
  | none => .error (.corruptPayload kind.kind "string is not UTF-8")
  | some s =>
    match kind with
    | .string => .ok (.string s)
    | .unknownError => .ok (.unknownError (some s))

/-- What a record says, one layer deep. -/
def view (r : Record) : Except ProtocolError View :=
  match r with
  | .plain tag bits length =>
    match Kind.ofCode? tag with
    | some k => viewPlain k bits length
    | none => .error (.unknownDiscriminant tag)
  | .text kind bytes => viewText kind bytes
  | .array items => .ok (.array items)

/-- The elements of an array that may be written to, none for any other record.  A null
pointer is an array of no elements when its length is zero. -/
def elements? (r : Record) : Option (List Record) :=
  match r with
  | .plain tag _ length => if tag = Kind.array.code ∧ length = 0 then some [] else none
  | .text _ _ => none
  | .array items => some items

/-- Writes one element of an array; anything else, and an index past the end, is left alone. -/
def setElement (r : Record) (index : Nat) (item : Record) : Record :=
  match r with
  | .array items => .array (items.set index item)
  | r => r

end Record

end ScriptBridge.Wire
