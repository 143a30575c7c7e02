/-
# Inspecting records

The text of a record for a reader: its view, or the reason why it has none.
-/
import ScriptBridge.Number.Layout
import ScriptBridge.Text.Quoted
import ScriptBridge.Wire.Record

namespace ScriptBridge.Wire

open ScriptBridge.Number ScriptBridge.Text

/-- A reading error as it is shown inside a record. -/
def ProtocolError.inspect : ProtocolError → String
  | .unknownDiscriminant code => "UnknownDiscriminant(" ++ toString code.toInt ++ ")"
  | .corruptPayload kind reason =>
    "CorruptPayload \x7b kind: " ++ kind.name ++ ", reason: " ++ Quoted.write reason ++ " \x7d"

/-- An optional value as it is shown. -/
def inspectOption {α : Type} (inspect : α → String) : Option α → String
  | none => "None"
  | some a => "Some(" ++ inspect a ++ ")"

/-- A name with its one argument. -/
def inspectCall (name argument : String) : String := name ++ "(" ++ argument ++ ")"

namespace Record

/-- A view that has no elements. -/
def inspectLeaf : View → String
  | .null => "Null"
  | .boolean b => inspectCall "Boolean" (if b then "true" else "false")
  | .integer n => inspectCall "Integer" (toString n.toInt)
  | .number x => inspectCall "Number" (Layout.inspected.write x)
  | .string s => inspectCall "String" (Quoted.write s)
  | .date x => inspectCall "Date" (Layout.inspected.write x)
  | .array _ => "Array([])"
  | .managedRef s => inspectCall "ManagedRef" s.inspect
  | .managedError s => inspectCall "ManagedError" s.inspect
  | .foreignRef h => inspectCall "ForeignRef" (inspectOption Handle.inspect h)
  | .foreignError h => inspectCall "ForeignError" (inspectOption Handle.inspect h)
  | .unknownError m => inspectCall "UnknownError" (inspectOption Quoted.write m)

/-- A record that cannot be read. -/
def inspectUnreadable (r : Record) (e : ProtocolError) : String :=
  "TaggedValue \x7b tag: " ++ toString r.tag.toInt ++ ", length: " ++ toString r.length.toInt ++
    ", error: " ++ e.inspect ++ " \x7d"

/-- A record that owns no array. -/
def inspectShallow (r : Record) : String :=
  match r.view with
  | .ok v => inspectLeaf v
  | .error e => inspectUnreadable r e

mutual
/-- The text of a record. -/
def inspect : Record → String
  | .array items => "Array([" ++ ", ".intercalate (inspectItems items) ++ "])"
  | .plain tag bits length => inspectShallow (.plain tag bits length)
  | .text kind bytes => inspectShallow (.text kind bytes)

/-- The texts of elements. -/
def inspectItems : List Record → List String
  | [] => []
  | r :: rs => inspect r :: inspectItems rs
end

end Record

end ScriptBridge.Wire
