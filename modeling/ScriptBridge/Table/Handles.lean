/-
# The handle table

The engine keeps script objects alive for the host, each under a handle.  The
number of a handle is one more than the index of its cell, so that zero stays
free for the empty handle.  The handle given up last is handed out first.
-/
import ScriptBridge.Wire.Reference

namespace ScriptBridge.Table

open ScriptBridge.Wire (Handle)

/-- A table of values by handle. -/
structure Handles (α : Type) where
  /-- The cells, a vacant one being `none`. -/
  cells : List (Option α)
  /-- The indices of vacant cells, the one freed last first. -/
  free : List Nat
  /-- The number of live handles. -/
  live : Nat

namespace Handles

variable {α : Type}

/-- The table without values. -/
def empty : Handles α := ⟨[], [], 0⟩

/-- The value at a handle. -/
def get? (t : Handles α) (handle : Handle) : Option α := (t.cells[handle.id - 1]?).join

/-- Enters a value and gives its handle; none when the numbers have run out. -/
def insert (t : Handles α) (value : α) : Option (Handle × Handles α) :=
  match t.free with
  | index :: rest =>
    (Handle.ofId? (index + 1)).map fun handle =>
      (handle, ⟨t.cells.set index (some value), rest, t.live + 1⟩)
  | [] =>
    (Handle.ofId? (t.cells.length + 1)).map fun handle =>
      (handle, ⟨t.cells ++ [some value], [], t.live + 1⟩)

/-- Gives up a handle and its value; nothing happens when the handle is not live. -/
def remove (t : Handles α) (handle : Handle) : Option (α × Handles α) :=
  (t.get? handle).map fun value =>
    (value, ⟨t.cells.set (handle.id - 1) none, (handle.id - 1) :: t.free, t.live - 1⟩)

/-- The values in the order of their handles. -/
def values (t : Handles α) : List α := t.cells.filterMap id

/-- The number of live handles. -/
def size (t : Handles α) : Nat := t.live

/-- Gives up all handles. -/
def drain (t : Handles α) : List α × Handles α := (t.values, empty)

end Handles

end ScriptBridge.Table
