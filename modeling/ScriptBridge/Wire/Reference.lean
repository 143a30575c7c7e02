/-
# Slots and handles

A slot names something the host keeps alive for script, a handle something the
script engine keeps alive for the host.  A slot is below `2 ^ 31`, and a handle
is between 1 and `2 ^ 32 - 1`, zero being the empty handle on the wire.
-/
namespace ScriptBridge.Wire

/-- The name of an entry the host keeps alive for script. -/
structure Slot where
  /-- The index of the entry. -/
  index : Nat
  /-- An index fits a non-negative 32-bit integer. -/
  index_lt : index < 0x80000000
  deriving DecidableEq, Repr

namespace Slot

/-- The slot with an index, if the index is small enough. -/
def ofIndex? (index : Nat) : Option Slot :=
  if h : index < 0x80000000 then some ⟨index, h⟩ else none

/-- The slot with an index given as a 32-bit integer, if that is not negative. -/
def ofInt32? (raw : Int32) : Option Slot :=
  if raw.toInt < 0 then none else ofIndex? raw.toInt.toNat

/-- The index as a 32-bit integer. -/
def toInt32 (s : Slot) : Int32 := Int32.ofInt s.index

/-- The slot as it is named in messages. -/
def text (s : Slot) : String := "slot#" ++ toString s.index

/-- The slot as it is shown when a value is inspected. -/
def inspect (s : Slot) : String := "Slot(" ++ toString s.index ++ ")"

end Slot

/-- The name of a script object the engine keeps alive for the host. -/
structure Handle where
  /-- The number of the handle. -/
  id : Nat
  /-- Zero is the empty handle. -/
  id_pos : 0 < id
  /-- A number fits 32 bits. -/
  id_lt : id < 0x100000000
  deriving DecidableEq, Repr

namespace Handle

/-- The handle with a number, if the number is in range. -/
def ofId? (id : Nat) : Option Handle :=
  if h : 0 < id ∧ id < 0x100000000 then some ⟨id, h.1, h.2⟩ else none

/-- The handle with a number given as a 64-bit integer, if it is in range. -/
def ofInt64? (raw : Int64) : Option Handle :=
  if raw.toInt < 0 then none else ofId? raw.toInt.toNat

/-- The number as a 64-bit integer. -/
def toInt64 (h : Handle) : Int64 := Int64.ofInt h.id

/-- The handle as it is named in messages. -/
def text (h : Handle) : String := "handle#" ++ toString h.id

/-- The handle as it is shown when a value is inspected. -/
def inspect (h : Handle) : String := "ForeignHandle(" ++ toString h.id ++ ")"

end Handle

end ScriptBridge.Wire
