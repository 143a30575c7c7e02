/-
# The slot arena

The arena keeps host entries alive for script, each under a slot.  Slots that
were given up are handed out again, the one freed last first, or never,
according to the policy of the arena.

The table is a run of cells from `base` on, a cell being vacant or occupied.
Under `reuse` the run loses its vacant cells at the far end, and the indices
of vacant cells wait in a list; indices past the end may linger there and are
dropped when met, or all at once when the list has grown long.  Under
`monotonic` the run loses its vacant cells at the near end and `base` moves up.
-/
import ScriptBridge.Wire.Reference

namespace ScriptBridge.Table

open ScriptBridge.Wire (Slot)

/-- What becomes of slots that were given up. -/
inductive SlotPolicy where
  /-- The slot freed last is handed out first. -/
  | reuse
  /-- No slot is handed out twice. -/
  | monotonic
  deriving DecidableEq, Repr, Inhabited

/-- How full an arena is. -/
structure Occupancy where
  /-- The largest number of cells there ever was. -/
  peak : Nat
  /-- The cells there are, vacant or occupied. -/
  allocated : Nat
  /-- The occupied cells. -/
  used : Nat
  deriving DecidableEq, Repr

/-- A table of entries by slot. -/
structure Arena (α : Type) where
  /-- What becomes of slots that were given up. -/
  policy : SlotPolicy
  /-- The index of the first cell. -/
  base : Nat
  /-- The cells, a vacant one being `none`. -/
  cells : List (Option α)
  /-- Indices that may be handed out again, the one freed last first. -/
  free : List Nat
  /-- How many cells are occupied, as counted on the way. -/
  used : Nat
  /-- The largest number of cells there ever was. -/
  peak : Nat

namespace Arena

variable {α : Type}

/-- The arena without entries. -/
def empty (policy : SlotPolicy) : Arena α := ⟨policy, 0, [], [], 0, 0⟩

/-- The index after the last cell. -/
def finish (a : Arena α) : Nat := a.base + a.cells.length

/-- The entry at an index. -/
def entryAt? (a : Arena α) (index : Nat) : Option α :=
  if a.base ≤ index then (a.cells[index - a.base]?).join else none

/-- The entry at a slot. -/
def get? (a : Arena α) (slot : Slot) : Option α := a.entryAt? slot.index

/-- Whether a slot is occupied. -/
def contains (a : Arena α) (slot : Slot) : Bool := (a.get? slot).isSome

/-- Whether an index is that of a vacant cell. -/
def isVacant (a : Arena α) (index : Nat) : Bool :=
  decide (a.base ≤ index) && decide (index < a.finish) && (a.entryAt? index).isNone

/-- The first index of a free list that is that of a vacant cell, and the list after it. -/
def popVacant (a : Arena α) : List Nat → Option (Nat × List Nat)
  | [] => none
  | index :: rest => if a.isVacant index then some (index, rest) else popVacant a rest

/-- Enters a value and gives its slot; none when the indices have run out. -/
def add (a : Arena α) (value : α) : Option (Slot × Arena α) :=
  match a.popVacant a.free with
  | some (index, rest) =>
    (Slot.ofIndex? index).map fun slot =>
      (slot, { a with
        cells := a.cells.set (index - a.base) (some value)
        free := rest
        used := a.used + 1 })
  | none =>
    (Slot.ofIndex? a.finish).map fun slot =>
      (slot, { a with
        cells := a.cells ++ [some value]
        free := []
        used := a.used + 1
        peak := max a.peak (a.cells.length + 1) })

/-- A run of cells without the vacant ones at its far end. -/
def trimEnd (cells : List (Option α)) : List (Option α) :=
  (cells.reverse.dropWhile Option.isNone).reverse

/-- How many free indices are kept, at most, beside this many cells. -/
def freeLimit (cells : Nat) : Nat := 2 * max cells 8

/-- Vacates an index that is occupied. -/
def vacate (a : Arena α) (index : Nat) : Arena α :=
  let cells := a.cells.set (index - a.base) none
  match a.policy with
  | .reuse =>
    let cells := trimEnd cells
    let free := index :: a.free
    let free :=
      if freeLimit cells.length < free.length then
        free.filter (fun i => decide (i < a.base + cells.length))
      else free
    { a with cells := cells, free := free, used := a.used - 1 }
  | .monotonic =>
    let kept := cells.dropWhile Option.isNone
    { a with
      cells := kept
      base := a.base + (cells.length - kept.length)
      used := a.used - 1 }

/-- Gives up a slot and its value; nothing happens when the slot is vacant or unknown. -/
def take (a : Arena α) (slot : Slot) : Option (α × Arena α) :=
  (a.get? slot).map fun value => (value, a.vacate slot.index)

/-- The entries in the order of their slots. -/
def values (a : Arena α) : List α := a.cells.filterMap id

/-- The occupied indices, with their entries. -/
def toList (a : Arena α) : List (Nat × α) :=
  a.cells.zipIdx.filterMap fun (cell, i) => cell.map (a.base + i, ·)

/-- Gives up all slots.  Only a monotonic arena remembers which ones it had handed out. -/
def drain (a : Arena α) : List α × Arena α :=
  (a.values, { a with
    base := match a.policy with
      | .reuse => a.base
      | .monotonic => a.finish
    cells := []
    free := []
    used := 0 })

/-- How full the arena is. -/
def occupancy (a : Arena α) : Occupancy := ⟨a.peak, a.cells.length, a.used⟩

end Arena

end ScriptBridge.Table
