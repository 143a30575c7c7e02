/-
# The script heap

Objects by place.  An object has a kind, a parent from which it inherits, and
properties.
-/
import ScriptBridge.Script.Expr
import ScriptBridge.Script.Value
import ScriptBridge.Wire.Reference

namespace ScriptBridge.Script

open ScriptBridge.Number ScriptBridge.Wire

/-- The key of a property.  A name that is the decimal form of an index is that index. -/
inductive Key where
  | index (n : Nat)
  | name (s : String)
  /-- The symbol under which iteration is defined. -/
  | iterator
  deriving DecidableEq, Repr

namespace Key

/-- The largest index is below this. -/
def indexLimit : Nat := 0xFFFFFFFF

/-- The number that the characters of a name would stand for if all were digits. -/
def digitsValue (s : String) : Nat :=
  s.toList.foldl (fun n c => 10 * n + (c.toNat - '0'.toNat)) 0

/-- The number that the decimal form of an index stands for. -/
def index? (s : String) : Option Nat :=
  let n := digitsValue s
  if n < indexLimit ∧ toString n = s then some n else none

/-- The key that a name stands for. -/
def ofName (s : String) : Key :=
  match index? s with
  | some n => index n
  | none => name s

/-- The name of a key; the iterator symbol has none. -/
def text? : Key → Option String
  | index n => some (toString n)
  | name s => some s
  | iterator => none

end Key

/-- A property. -/
inductive Property where
  /-- A value. -/
  | data (v : Value)
  /-- A value that cannot be assigned; a permanent one cannot be replaced either. -/
  | fixed (v : Value) (permanent : Bool)
  /-- A pair of functions, one or both of which may be missing. -/
  | accessor (getter setter : Option Ref)
  /-- The object that instances of a function inherit from, which is only made when it is
  asked for. -/
  | unmade
  deriving DecidableEq, Repr

/-- The places that a property refers to. -/
def Property.refs : Property → List Ref
  | data v => v.refs
  | fixed v _ => v.refs
  | accessor getter setter => getter.toList ++ setter.toList
  | unmade => []

/-- The classes that scripts find. -/
inductive ObjectClass where
  | object
  | function
  | array
  | date
  /-- A class of errors, by its name. -/
  | error (name : String)
  | string
  | number
  | boolean
  | symbol
  | bigint
  /-- Stand-ins; no object inherits from this class. -/
  | proxy
  deriving DecidableEq, Repr

/-- Functions that scripts find but do not define. -/
inductive Builtin where
  /-- Does nothing; all functions inherit from it. -/
  | nothing
  /-- Calls the receiver with a given receiver. -/
  | call
  /-- Calls the receiver with a given receiver and the elements of an object as arguments. -/
  | apply
  /-- A function as a text. -/
  | functionText
  /-- The time of a date. -/
  | getTime
  /-- The time of a date, as the plain value that stands for it. -/
  | dateValue
  /-- A date as a text. -/
  | dateText
  /-- The receiver itself. -/
  | valueOf
  /-- The kind of the receiver as a text. -/
  | kindText
  /-- What the receiver inherits from. -/
  | getParent
  /-- Lets the receiver inherit from something else. -/
  | setParent
  /-- The texts of the elements of the receiver, joined. -/
  | join
  /-- An array as a text: what its own member for joining gives. -/
  | arrayText
  /-- An iterator over the elements of the receiver. -/
  | iterate
  /-- An iterator over the characters of the receiver. -/
  | iterateText
  /-- An error as a text. -/
  | errorText
  /-- The receiver, which is a value of a class but no object. -/
  | plainValue (c : ObjectClass)
  /-- The receiver, which is a value of a class but no object, as a text. -/
  | plainText (c : ObjectClass)
  /-- What the receiver, a symbol, was called. -/
  | description
  /-- A class, which makes objects. -/
  | ofClass (c : ObjectClass)
  /-- A token, which gives the number of a slot, and gives the slot back when it goes away. -/
  | token (slot : Slot)
  /-- Reads a property of the host entry at a slot. -/
  | readEntry (slot : Slot)
  /-- Writes a property of the host entry at a slot. -/
  | writeEntry (slot : Slot)
  /-- Calls the host entry at a slot. -/
  | callEntry (slot : Slot)
  deriving DecidableEq, Repr

/-- What an object is. -/
inductive ObjectKind where
  | ordinary
  /-- An array and its length; the elements are properties. -/
  | array (length : Nat)
  /-- A function, with the exception of the handler it was made in if it uses that, and for a
  getter with the arguments of the function it was made in if it uses those. -/
  | function (body : Expr) (caught : Option Value) (args : Option (List Value))
  | builtin (b : Builtin)
  /-- A date, in milliseconds since the start of 1970. -/
  | date (time : Binary64)
  | error
  /-- A value that is no object, made into one. -/
  | boxed (v : Value)
  /-- A stand-in for the host entry at a slot, and the token that keeps the slot. -/
  | proxy (slot : Slot) (token : Ref)
  deriving Repr

namespace ObjectKind

/-- The places that what an object is refers to. -/
def refs : ObjectKind → List Ref
  | function _ caught args =>
    caught.toList.flatMap Value.refs ++ (args.getD []).flatMap Value.refs
  | proxy _ token => [token]
  | _ => []

/-- An own property that is not stored: the length of an array, the name and length of a
function of a script, and the characters of a string made into an object. -/
def implied? (kind : ObjectKind) (key : Key) : Option Property :=
  match kind, key with
  | .array length, .name "length" => some (.data (.ofCount length))
  | .function .., .name "length" => some (.fixed (.int 0) false)
  | .function .., .name "name" => some (.fixed (.text "") false)
  | .function .., .name "prototype" => some .unmade
  | .boxed (.string units), .name "length" => some (.fixed (.ofCount units.length) true)
  | .boxed (.string units), .index n => units[n]?.map fun u => .fixed (.string [u]) true
  | _, _ => none

end ObjectKind

/-- An object. -/
structure Object where
  /-- What the object is. -/
  kind : ObjectKind
  /-- The object it inherits from; none for a stand-in, whose properties only the host knows. -/
  parent : Option Ref
  /-- Its own properties. -/
  properties : List (Key × Property) := []
  /-- The slot of the host entry that it stands for. -/
  entry : Option Slot := none
  deriving Repr

namespace Object

/-- An object that stands for no host entry. -/
def ofKind (kind : ObjectKind) (parent : Option Ref)
    (properties : List (Key × Property) := []) : Object :=
  { kind := kind, parent := parent, properties := properties }

/-- The slot that the object gives back when it goes away. -/
def slot? (o : Object) : Option Slot :=
  match o.kind with
  | .builtin (.token s) => some s
  | _ => none

/-- Whether the object can be called. -/
def isCallable (o : Object) : Bool :=
  match o.kind with
  | .function .. | .builtin _ | .proxy .. => true
  | _ => false

/-- The places that the object refers to. -/
def refs (o : Object) : List Ref :=
  o.parent.toList ++ o.kind.refs ++ o.properties.flatMap fun (_, p) => p.refs

/-- An own property. -/
def own? (o : Object) (key : Key) : Option Property :=
  match o.properties.lookup key with
  | some p => some p
  | none => o.kind.implied? key

/-- Whether an own property can never be replaced by an accessor pair. -/
def isPermanent (o : Object) (key : Key) : Bool :=
  match o.own? key, o.kind with
  | some (.fixed _ permanent), _ => permanent
  | _, .array _ => decide (key = .name "length")
  | _, .function .. | _, .proxy .. => decide (key = .name "prototype")
  | _, _ => false

/-- The object with a property entered or replaced; an array grows to hold it. -/
def define (o : Object) (key : Key) (p : Property) : Object :=
  { o with
    kind := match o.kind, key with
      | .array length, .index n => .array (max length (n + 1))
      | kind, _ => kind
    properties :=
      if (o.properties.lookup key).isSome then
        o.properties.map fun (k, q) => if k = key then (k, p) else (k, q)
      else o.properties ++ [(key, p)] }

/-- An array cut or stretched to a length; nothing else has one. -/
def resize (o : Object) (length : Nat) : Object :=
  match o.kind with
  | .array _ =>
    { o with
      kind := .array length
      properties := o.properties.filter fun (k, _) =>
        match k with
        | .index n => decide (n < length)
        | _ => true }
  | _ => o

end Object

/-- What a search for a property along the parents of an object comes to. -/
inductive Found where
  /-- A property, and the object that holds it. -/
  | property (holder : Ref) (p : Property)
  /-- A stand-in for the host entry at a slot; only the host knows what that holds. -/
  | standIn (ref : Ref) (slot : Slot)
  /-- Nothing. -/
  | nothing
  deriving DecidableEq, Repr

/-- Objects by place. -/
structure Heap where
  /-- The objects, the youngest first. -/
  objects : List (Ref × Object)
  /-- The next place, and the number of the next symbol. -/
  next : Nat

namespace Heap

/-- The object at a place. -/
def get? (h : Heap) (r : Ref) : Option Object := h.objects.lookup r

/-- Enters an object at a new place. -/
def alloc (h : Heap) (o : Object) : Ref × Heap :=
  (h.next, ⟨(h.next, o) :: h.objects, h.next + 1⟩)

/-- Changes the object at a place. -/
def update (h : Heap) (r : Ref) (f : Object → Object) : Heap :=
  { h with objects := h.objects.map fun (s, o) => if s = r then (s, f o) else (s, o) }

/-- Forgets the object at a place. -/
def erase (h : Heap) (r : Ref) : Heap :=
  { h with objects := h.objects.filter fun (s, _) => s ≠ r }

/-- The places that the objects refer to. -/
def refs (h : Heap) : List Ref := h.objects.flatMap fun (_, o) => o.refs

/-- What a search for a property comes to, among so many objects at most. -/
def search (h : Heap) (key : Key) : Nat → Ref → Found
  | 0, _ => .nothing
  | fuel + 1, r =>
    match h.get? r with
    | none => .nothing
    | some o =>
      match o.kind, o.own? key, o.parent with
      | .proxy slot _, _, _ => .standIn r slot
      | _, some p, _ => .property r p
      | _, none, some parent => search h key fuel parent
      | _, none, none => .nothing

/-- What a search for a property comes to, from an object on. -/
def find (h : Heap) (r : Ref) (key : Key) : Found := h.search key (h.objects.length + 1) r

/-- What a search comes to, among so many objects at most, for something that takes a value
instead of the object that inherits from it.  Values are passed over, but for elements of
arrays, which end the search. -/
def searchTaker (h : Heap) (key : Key) : Nat → Option Ref → Found
  | 0, _ => .nothing
  | _, none => .nothing
  | fuel + 1, some r =>
    match h.get? r with
    | none => .nothing
    | some o =>
      match o.kind, key, o.own? key with
      | .proxy slot _, _, _ => .standIn r slot
      | .array _, .index _, some (.data _) => .nothing
      | _, _, some (.fixed v permanent) => .property r (.fixed v permanent)
      | _, _, some (.accessor getter setter) => .property r (.accessor getter setter)
      | _, _, _ => searchTaker h key fuel o.parent

/-- What takes a value that is assigned to a property of an object that inherits from
another one. -/
def findTaker (h : Heap) (parent : Option Ref) (key : Key) : Found :=
  h.searchTaker key (h.objects.length + 1) parent

/-- Whether an object inherits from another one. -/
def inherits (h : Heap) (ancestor : Ref) : Nat → Ref → Bool
  | 0, _ => false
  | fuel + 1, r =>
    match (h.get? r).bind (·.parent) with
    | none => false
    | some p => p == ancestor || inherits h ancestor fuel p

/-- One round of adding what the objects at some places refer to. -/
def spread (h : Heap) (seen : List Ref) : List Ref :=
  (h.objects.flatMap fun (r, o) => if seen.contains r then o.refs else []).foldl
    (fun seen r => if seen.contains r then seen else r :: seen) seen

/-- The places that can be reached from some places, in so many rounds. -/
def reach (h : Heap) : Nat → List Ref → List Ref
  | 0, seen => seen
  | rounds + 1, seen =>
    let more := h.spread seen
    if more.length = seen.length then seen else reach h rounds more

/-- The places that can be reached from some places. -/
def reachable (h : Heap) (roots : List Ref) : List Ref := h.reach h.objects.length roots

end Heap

end ScriptBridge.Script
