/-
# Reading settings

The settings of a bridge from JSON.  A group of settings is an object, in which
fields may be missing and unknown ones are skipped, or an array of the fields in
their order, which may be short.  What is missing takes its default.
-/
import ScriptBridge.Settings.Basic
import ScriptBridge.Settings.Scan

namespace ScriptBridge.Settings

open ScriptBridge.Table (SlotPolicy)

/-- One field of a group of settings: its name, and how its value is read into the group. -/
structure Field (σ : Type) where
  /-- The key in an object. -/
  name : String
  /-- Reads the value and puts it into the group. -/
  read : σ → Scan σ

namespace Scan

/-- A number of 64 bits. -/
def size : Scan UInt64 := fun cs =>
  let decide : Except Fault (Numeral × List Char) → Except Fault (UInt64 × List Char)
    | .ok (.natural n, rest) => .ok (UInt64.ofNat n, rest)
    | .ok _ => .error .mismatch
    | .error e => .error e
  match skipBlanks cs with
  | [] => .error .truncated
  | '-' :: cs => decide (number true cs)
  | c :: cs => if c.isDigit then decide (number false (c :: cs)) else wrongKind (c :: cs)

/-- The name of a slot policy. -/
def policyName : Scan SlotPolicy := fun cs => do
  let (name, rest) ← string cs
  if name = "reuse" then .ok (.reuse, rest)
  else if name = "monotonic" then .ok (.monotonic, rest)
  else .error .mismatch

/-- A null. -/
def null : Scan Unit := fun cs =>
  match skipBlanks cs with
  | [] => .error .truncated
  | 'n' :: cs => word "ull".toList cs
  | cs => wrongKind cs

/-- A slot policy: its name, or an object with the name as its one key and null as the value. -/
def policy : Scan SlotPolicy := fun cs =>
  match skipBlanks cs with
  | [] => .error .truncated
  | '"' :: cs => policyName cs
  | '\x7b' :: cs =>
    match skipBlanks cs with
    | [] => .error .truncated
    | '"' :: cs => do
      let (p, cs) ← policyName cs
      let (_, cs) ← colon cs
      let (_, cs) ← null cs
      match skipBlanks cs with
      | [] => .error .truncated
      | '\x7d' :: cs => .ok (p, cs)
      | _ => .error .malformed
    | _ => .error .malformed
  | _ => .error .malformed

/-- The fields of a group in an array, as far as there are elements. -/
def groupElements {σ : Type} : List (Field σ) → Bool → σ → Scan σ
  | [], _, group, cs =>
    match skipBlanks cs with
    | [] => .error .truncated
    | ']' :: rest => .ok (group, rest)
    | _ => .error .malformed
  | field :: fields, first, group, cs => do
    let (more, cs) ← nextItem ']' first cs
    match more with
    | none => .ok (group, cs)
    | some () => do
      let (group, cs) ← field.read group cs
      groupElements fields false group cs

/-- The fields of a group in an object; `seen` are the names read before. -/
def groupEntries {σ : Type} (fields : List (Field σ)) :
    Nat → List String → Bool → σ → Scan σ
  | 0, _, _, _, _ => .error .truncated
  | fuel + 1, seen, first, group, cs => do
    let (more, cs) ← nextItem '\x7d' first cs
    match more with
    | none => .ok (group, cs)
    | some () => do
      let (_, cs) ← openKey cs
      let (name, cs) ← string cs
      match fields.find? (fun f => f.name == name) with
      | some field =>
        if name ∈ seen then .error .mismatch
        else do
          let (_, cs) ← colon cs
          let (group, cs) ← field.read group cs
          groupEntries fields fuel (name :: seen) false group cs
      | none => do
        let (_, cs) ← colon cs
        let (_, cs) ← skipValue (2 * cs.length + 2) cs
        groupEntries fields fuel seen false group cs

/-- A group of settings, starting from its defaults. -/
def group {σ : Type} (fields : List (Field σ)) (defaults : σ) : Scan σ := fun cs =>
  match skipBlanks cs with
  | [] => .error .truncated
  | '[' :: cs => groupElements fields true defaults cs
  | '\x7b' :: cs => groupEntries fields (cs.length + 1) [] true defaults cs
  | cs => wrongKind cs

end Scan

/-- A field that is a number. -/
def Field.ofSize {σ : Type} (name : String) (set : σ → UInt64 → σ) : Field σ where
  name := name
  read group cs := do
    let (n, cs) ← Scan.size cs
    .ok (set group n, cs)

/-- The limits of an engine, in their order. -/
def engineFields : List (Field EngineLimits) :=
  [.ofSize "memory_limit" (fun l n => { l with memoryLimit := n }),
   .ofSize "max_stack_size" (fun l n => { l with maxStackSize := n }),
   .ofSize "gc_threshold" (fun l n => { l with gcThreshold := n }),
   .ofSize "max_array_depth" (fun l n => { l with maxArrayDepth := n }),
   .ofSize "max_array_length" (fun l n => { l with maxArrayLength := n })]

/-- The settings of an arena, in their order. -/
def arenaFields : List (Field ArenaSettings) :=
  [{ name := "strategy"
     read := fun a cs => do
       let (p, cs) ← Scan.policy cs
       .ok ({ a with policy := p }, cs) },
   .ofSize "initial_capacity" (fun a n => { a with initialCapacity := n })]

/-- The settings of a bridge, in their order. -/
def bridgeFields : List (Field Settings) :=
  [{ name := "engine"
     read := fun s cs => do
       let (e, cs) ← Scan.group engineFields {} cs
       .ok ({ s with engine := e }, cs) },
   { name := "arena"
     read := fun s cs => do
       let (a, cs) ← Scan.group arenaFields {} cs
       .ok ({ s with arena := a }, cs) }]

/-- A text with nothing but blanks after the one value it holds. -/
def readWhole {σ : Type} (scan : Scan σ) (text : String) : Except Fault σ := do
  let (value, rest) ← scan text.toList
  if (Scan.skipBlanks rest).isEmpty then .ok value else .error .malformed

/-- The limits of an engine from JSON. -/
def readLimits (text : String) : Except Fault EngineLimits :=
  readWhole (Scan.group engineFields {}) text

/-- The settings of a bridge from JSON. -/
def read (text : String) : Except Fault Settings := readWhole (Scan.group bridgeFields {}) text

end ScriptBridge.Settings
