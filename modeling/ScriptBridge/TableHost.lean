/-
# A host that answers from tables

An engine on its own, with a host that logs every call and answers it from tables.  An
answer may itself be the outcome of a script that the engine is made to run first.
-/
import ScriptBridge.Engine.Step

namespace ScriptBridge

open ScriptBridge.Engine ScriptBridge.Script ScriptBridge.Wire

/-- What the tables hold. -/
inductive Answer where
  /-- This very record. -/
  | record (r : Record)
  /-- The host entry so many slots further on. -/
  | slotPlus (n : Nat)
  /-- The thrown host entry so many slots further on. -/
  | errorPlus (n : Nat)
  /-- The outcome of a script. -/
  | run (script : Expr)

/-- An engine and a host that answers from tables. -/
structure TableHost where
  /-- The engine, until it is destroyed. -/
  engine : Option Engine
  /-- Answers to reads, by name. -/
  gets : List (String × Answer)
  /-- Answers to writes, by name; null where there is none. -/
  sets : List (String × Answer)
  /-- Answers to calls, by slot. -/
  invokes : List (Nat × Answer)
  /-- The calls so far, the last one first. -/
  calls : List Request := []
  /-- The slots let go so far, the last one first. -/
  removed : List Slot := []
  /-- How many answers are being run. -/
  pending : Nat := 0
  /-- The outcome of the operation, once it has ended. -/
  outcome : Option Record := none

namespace TableHost

/-- The answer where the tables have none. -/
def missing : Answer := .record (.unknownError (some "mock: no reply"))

/-- The slot that a request is about. -/
def slotOf : Request → Slot
  | .get slot _ => slot
  | .set slot _ _ => slot
  | .invoke slot _ => slot

/-- What the tables say to a request. -/
def lookup (t : TableHost) : Request → Answer
  | .get _ name => (t.gets.lookup name).getD missing
  | .set _ name _ => (t.sets.lookup name).getD (.record .null)
  | .invoke slot _ => (t.invokes.lookup slot.index).getD missing

/-- The record for a slot further on, or an error where there is no such slot. -/
def shifted (slot : Slot) (n : Nat) (make : Slot → Record) : Record :=
  match Slot.ofIndex? (slot.index + n) with
  | some s => make s
  | none => .unknownError (some "mock: no slot")

/-- Answers a request that the engine made. -/
def reply (t : TableHost) (e : Engine) (r : Request) : TableHost :=
  let t := { t with calls := r :: t.calls }
  match t.lookup r with
  | .record a => { t with engine := some (e.answer a) }
  | .slotPlus n => { t with engine := some (e.answer (shifted (slotOf r) n .managed)) }
  | .errorPlus n => { t with engine := some (e.answer (shifted (slotOf r) n .managedError)) }
  | .run script => { t with engine := some (e.enter (.run script)), pending := t.pending + 1 }

/-- Takes what happened in a step of the engine. -/
def handle (t : TableHost) (e : Engine) : Event → TableHost
  | .silent => { t with engine := some e }
  | .removed slot => { t with engine := some e, removed := slot :: t.removed }
  | .request r => t.reply e r
  | .finished r =>
    match t.pending with
    | 0 => { t with engine := some e, outcome := some r }
    | n + 1 => { t with engine := some (e.answer r), pending := n }

/-- One step. -/
def step (t : TableHost) : TableHost :=
  match t.engine with
  | none => t
  | some e =>
    let (e, event) := e.step
    t.handle e event

/-- Steps until the operation has ended, so many at most. -/
def run : Nat → TableHost → TableHost
  | 0, t => t
  | fuel + 1, t => if t.outcome.isSome then t else run fuel t.step

/-- Starts an operation. -/
def begin (t : TableHost) (op : Operation) : TableHost :=
  { t with engine := t.engine.map (·.enter op), outcome := none }

/-- Destroys the engine; as long as the host listens it hears of every slot. -/
def destroy (t : TableHost) : TableHost :=
  match t.engine with
  | none => t
  | some e => { t with engine := none, removed := e.destroy ++ t.removed }

/-- The host stops listening. -/
def disconnect (t : TableHost) : TableHost :=
  { t with engine := t.engine.map fun e => { e with connected := false } }

end TableHost

end ScriptBridge
