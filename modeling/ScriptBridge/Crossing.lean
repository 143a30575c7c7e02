/-
# Crossings

The ten ways in which control passes between host and script, and a count of
each.
-/
namespace ScriptBridge

/-- One way of passing between host and script. -/
inductive Crossing where
  | evaluate
  | getGlobal
  | setGlobal
  | getMember
  | setMember
  | invokeMember
  | getProperty
  | setProperty
  | invoke
  | removeSlot
  deriving DecidableEq, Repr

namespace Crossing

/-- Every crossing, host into script first. -/
def all : List Crossing :=
  [.evaluate, .getGlobal, .setGlobal, .getMember, .setMember, .invokeMember, .getProperty,
   .setProperty, .invoke, .removeSlot]

/-- The position in `all`. -/
def index : Crossing → Nat
  | .evaluate => 0
  | .getGlobal => 1
  | .setGlobal => 2
  | .getMember => 3
  | .setMember => 4
  | .invokeMember => 5
  | .getProperty => 6
  | .setProperty => 7
  | .invoke => 8
  | .removeSlot => 9

/-- Whether script calls the host. -/
def isCallback : Crossing → Bool
  | .getProperty | .setProperty | .invoke | .removeSlot => true
  | _ => false

/-- The name in reports. -/
def name : Crossing → String
  | .evaluate => "evaluate"
  | .getGlobal => "get_global"
  | .setGlobal => "set_global"
  | .getMember => "get_member"
  | .setMember => "set_member"
  | .invokeMember => "invoke_member"
  | .getProperty => "get_property"
  | .setProperty => "set_property"
  | .invoke => "invoke"
  | .removeSlot => "remove_slot"

/-- The name when a crossing is inspected. -/
def inspect : Crossing → String
  | .evaluate => "Evaluate"
  | .getGlobal => "GetGlobal"
  | .setGlobal => "SetGlobal"
  | .getMember => "GetMember"
  | .setMember => "SetMember"
  | .invokeMember => "InvokeMember"
  | .getProperty => "GetProperty"
  | .setProperty => "SetProperty"
  | .invoke => "Invoke"
  | .removeSlot => "RemoveSlot"

/-- The crossing with a name, if there is one. -/
def ofName? (name : String) : Option Crossing := all.find? (fun c => c.name == name)

theorem all_getElem?_index (c : Crossing) : all[c.index]? = some c := by cases c <;> rfl

end Crossing

/-- How often each crossing happened. -/
structure Tally where
  /-- The counts in the order of `Crossing.all`. -/
  counts : List (Crossing × Nat)

namespace Tally

/-- No crossing happened. -/
def zero : Tally := ⟨Crossing.all.map fun c => (c, 0)⟩

/-- One more crossing. -/
def record (t : Tally) (c : Crossing) : Tally :=
  ⟨t.counts.map fun (d, n) => (d, if d = c then n + 1 else n)⟩

/-- The count of a crossing. -/
def count (t : Tally) (c : Crossing) : Nat := (t.counts.lookup c).getD 0

/-- The number of crossings of any kind. -/
def total (t : Tally) : Nat := t.counts.foldr (fun c n => c.2 + n) 0

end Tally

end ScriptBridge
