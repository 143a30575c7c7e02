/-
# Slots and handles in a record

A record may name host entries and script objects anywhere in it.  Whoever takes
the record over answers for each of them, so they are listed from left to right.
-/
import ScriptBridge.Wire.Record

namespace ScriptBridge.Wire.Record

mutual
/-- The readable slots in a record, from left to right. -/
def slots : Record → List Slot
  | .plain tag bits length =>
    match (Record.plain tag bits length).view with
    | .ok (.managedRef s) => [s]
    | .ok (.managedError s) => [s]
    | _ => []
  | .text _ _ => []
  | .array items => slotsOfItems items

/-- The readable slots in some records. -/
def slotsOfItems : List Record → List Slot
  | [] => []
  | r :: rs => slots r ++ slotsOfItems rs
end

mutual
/-- The readable handles in a record, from left to right. -/
def handles : Record → List Handle
  | .plain tag bits length =>
    match (Record.plain tag bits length).view with
    | .ok (.foreignRef (some h)) => [h]
    | .ok (.foreignError (some h)) => [h]
    | _ => []
  | .text _ _ => []
  | .array items => handlesOfItems items

/-- The readable handles in some records. -/
def handlesOfItems : List Record → List Handle
  | [] => []
  | r :: rs => handles r ++ handlesOfItems rs
end

end ScriptBridge.Wire.Record
