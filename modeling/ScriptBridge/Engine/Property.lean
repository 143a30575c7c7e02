/-
# Properties

Reading and writing a property.  It is looked up along the parents of an object, and an
accessor is called on the receiver.  Where the search comes to a stand-in, the matter is
left to the host: the engine sends a request and waits.
-/
import ScriptBridge.Engine.Conversion

namespace ScriptBridge.Engine

open ScriptBridge.Number ScriptBridge.Script ScriptBridge.Table ScriptBridge.Text ScriptBridge.Wire

/-- The name of null and undefined, none for anything else. -/
def nothingName? : Value → Option String
  | .undefined => some "undefined"
  | .null => some "null"
  | _ => none

/-! ### Requests to the host -/

/-- Asks the host for a property of an entry. -/
def askEntry (e : Engine) (slot : Slot) (name : String) (held : List Value) : Engine :=
  if e.isFull then e.throwFull
  else if e.connected then (e.push (.awaiting none held)).goto (.ask (.get slot name))
  else e.throwDisconnected

/-- Lets the host assign a property of an entry; the result is known already. -/
def assignEntry (e : Engine) (slot : Slot) (name : String) (v result : Value)
    (held : List Value) : Engine :=
  if e.connected then
    (e.push (.sending (.set slot name) (some result) held)).goto (.encode v 0)
  else e.throwDisconnected

/-- Lets the host call an entry with the elements of an array. -/
def invokeEntry (e : Engine) (slot : Slot) (array : Value) (held : List Value) : Engine :=
  if e.isFull then e.throwFull
  else if e.connected then (e.push (.sending (.invoke slot) none held)).goto (.encode array 0)
  else e.throwDisconnected

/-! ### Reading -/

/-- Gives a function the object that its instances inherit from, which it only gets when
it is asked for it. -/
def giveInstanceParent (e : Engine) (r : Ref) : Engine :=
  let (v, e) := e.alloc (.ofKind .ordinary (some Intrinsic.objectParent)
    [(.name "constructor", .data (.object r))])
  { e with
    heap := e.heap.update r (·.define (.name "prototype") (.data v))
    control := .ret v }

/-- Gives what a search came to; an accessor is called on the receiver, and a stand-in
leaves it to the host. -/
def giveFound (e : Engine) (receiver : Value) (key : Key) : Found → Engine
  | .property _ (.data v) => e.give v
  | .property _ (.fixed v _) => e.give v
  | .property _ (.accessor (some getter) _) => e.goto (.call (.object getter) receiver [])
  | .property _ (.accessor none _) => e.give .undefined
  | .property holder .unmade => e.giveInstanceParent holder
  | .standIn r slot =>
    match key.text? with
    | some name => e.askEntry slot name [receiver, .object r]
    | none => e.give .undefined
  | .nothing => e.give .undefined

/-- Reads a property of a value that is no object. -/
def readPlain (e : Engine) (v : Value) (key : Key) : Engine :=
  match ObjectKind.implied? (.boxed v) key, Intrinsic.parentOfPlain? v with
  | some (.fixed w _), _ => e.give w
  | _, some r => e.giveFound v key (e.heap.find r key)
  | _, none => e.give .undefined

/-- Reads a property. -/
def readStep (e : Engine) (target : Value) (key : Key) : Engine :=
  match target with
  | .object r => e.giveFound target key (e.heap.find r key)
  | v =>
    match nothingName? v with
    | some name => e.throwType ("cannot read property of " ++ name)
    | none => e.readPlain v key

/-! ### Lengths of arrays -/

/-- The length that a whole number in range stands for. -/
def lengthOf? (x : Binary64) : Option Nat :=
  if x.isIntegral ∧ 0 ≤ x.truncate ∧ x.truncate < 0x100000000 then some x.truncate.toNat
  else none

/-- Cuts or stretches an array, and gives the value that was assigned. -/
def resize (e : Engine) (r : Ref) (v : Value) : Option Nat → Engine
  | some n => { e with heap := e.heap.update r (·.resize n), control := .ret v }
  | none => e.throwNew "RangeError" "invalid array length"

/-- Assigns the length of an array.  A value that is no number is turned into one twice,
and must give the same length both times. -/
def writeLength (e : Engine) (r : Ref) (v : Value) : Engine :=
  match v with
  | .number x => e.resize r v (lengthOf? x)
  | .bigint n => e.resize r v (if 0 ≤ n ∧ n < 0x100000000 then some n.toNat else none)
  | v =>
    match v.asInteger? with
    | some n => e.resize r v (if 0 ≤ n then some n.toNat else none)
    | none => (e.await (.length r v)).giveNumber v

/-- Takes the number that the new length of an array gave at first. -/
def takeLength (e : Engine) (r : Ref) (v x : Value) : Engine :=
  (e.await (.lengthAgain r v (wordOf x))).giveNumber v

/-- Takes the number that the new length of an array gave again. -/
def takeLengthAgain (e : Engine) (r : Ref) (v x : Value) (length : Nat) : Engine :=
  let again := x.asNumber.bind lengthOf?
  e.resize r v (if again = some length then again else none)

/-! ### Writing -/

/-- The name of a key in a message. -/
def keyText (key : Key) : String := key.text?.getD "Symbol.iterator"

/-- Writes where a search came to something: an accessor takes the value, what is fixed
takes none, and a stand-in leaves it to the host.  Anything else is left to what is done
where there is nothing. -/
def writeFound (e : Engine) (receiver : Value) (key : Key) (v : Value) (fresh : Engine) :
    Found → Engine
  | .property _ (.accessor _ (some setter)) =>
    (e.push (.assigned v)).goto (.call (.object setter) receiver [v])
  | .property _ (.accessor _ none) => e.throwType "no setter for property"
  | .property _ (.fixed ..) => e.throwType ("'" ++ keyText key ++ "' is read-only")
  | .standIn r slot =>
    match key.text? with
    | some name => e.assignEntry slot name v v [receiver, .object r]
    | none => e.throwType "proxy: cannot set property"
  | _ => fresh

/-- What takes a value that is assigned to a property of an object: its own property or
the object itself as a stand-in, or else something that it inherits. -/
def takerOf (h : Heap) (r : Ref) (o : Object) (key : Key) : Found :=
  match o.kind, o.own? key with
  | .proxy slot _, _ => .standIn r slot
  | _, some p => .property r p
  | _, none => h.findTaker o.parent key

/-- Writes a property of an object, and gives the value. -/
def writeObject (e : Engine) (r : Ref) (key : Key) (v : Value) : Engine :=
  let entered := { e with heap := e.heap.update r (·.define key (.data v)), control := .ret v }
  match e.heap.get? r with
  | none => entered
  | some o =>
    match o.kind, key with
    | .array _, .name "length" => e.writeLength r v
    | _, _ => e.writeFound (.object r) key v entered (takerOf e.heap r o key)

/-- Writes a property of a value that is no object, which only an accessor or the host can
take. -/
def writePlain (e : Engine) (target : Value) (key : Key) (v : Value) : Engine :=
  e.writeFound target key v (e.throwType "not an object")
    (e.heap.findTaker (Intrinsic.parentOfPlain? target) key)

/-- Writes a property. -/
def writeStep (e : Engine) (target : Value) (key : Key) (v : Value) : Engine :=
  match target with
  | .object r => e.writeObject r key v
  | t =>
    match nothingName? t with
    | some nothing =>
      e.throwType ("cannot set property '" ++ keyText key ++ "' of " ++ nothing)
    | none => e.writePlain t key v

end ScriptBridge.Engine
