/-
# Calls

A function of a script is evaluated with its arguments, one that scripts only find does
its work at once, and a call of a stand-in is sent to the host.  A class makes a new
object; so does any function of a script, which then sees the object as its receiver.
-/
import ScriptBridge.Engine.Convert
import ScriptBridge.Engine.Describe
import ScriptBridge.Engine.Property

namespace ScriptBridge.Engine

open ScriptBridge.Number ScriptBridge.Script ScriptBridge.Table ScriptBridge.Text ScriptBridge.Wire

/-! ### Arguments -/

/-- The most arguments that a call may have. -/
def maxArguments : Nat := 65535

/-- Reads the arguments that an object holds, from an index on, and then calls. -/
def nextArgument (e : Engine) (f this object : Value) (count index : Nat) (done : List Value) :
    Engine :=
  if index < count then
    (e.await (.argument f this object count index done)).goto (.read object (.index index))
  else e.goto (.call f this done.reverse)

/-- Reads as many arguments as an object holds, unless they are too many. -/
def takeArgumentCount (e : Engine) (f this object v : Value) : Engine :=
  let count := wordOf v
  if maxArguments < count then
    e.throwNew "RangeError"
      ("too many arguments in function call (only " ++ toString maxArguments ++ " allowed)")
  else e.nextArgument f this object count 0 []

/-- Calls a function with the arguments that an object holds. -/
def applyTo (e : Engine) (f this object : Value) : Engine :=
  if !e.isCallable f then e.throwType "not a function"
  else
    match object with
    | .undefined | .null => e.goto (.call f this [])
    | .object _ =>
      ((e.await (.argumentCount f this object)).await .number).goto
        (.read object (.name "length"))
    | _ => e.throwType "not a object"

/-! ### Instances -/

/-- An object without properties that inherits from another one. -/
def allocHeir (e : Engine) (parent : Option Ref) : Value × Engine :=
  e.alloc (.ofKind .ordinary (some (parent.getD Intrinsic.objectParent)))

/-- Gives an object, a new one for a value that is none. -/
def giveObject (e : Engine) (v : Value) : Engine :=
  match v, Intrinsic.parentOfPlain? v with
  | .object _, _ => e.give v
  | v, some parent => giveNew (e.alloc (.ofKind (.boxed v) (some parent)))
  | _, none => giveNew (e.allocHeir none)

/-- The time of a date made from a value. -/
def timeOf (v : Value) : Binary64 :=
  match v with
  | .string _ => .nan
  | v => (v.toNumber.toOption.bind Value.asNumber).getD .nan

/-- Makes a new array: of a length if there is just a number, and else of elements. -/
def makeArray (e : Engine) (items : List Value) : Engine :=
  let ofLength (length : Option Nat) : Engine :=
    match length with
    | some n => giveNew (e.alloc (.ofKind (.array n) (some Intrinsic.arrayParent)))
    | none => e.throwNew "RangeError" "invalid array length"
  match items with
  | [.int n] => ofLength (if 0 ≤ n.toInt then some n.toInt.toNat else none)
  | [.number x] => ofLength (lengthOf? x)
  | items => giveNew (e.allocArray items)

/-- Makes a new error, whose message is a text unless there is none. -/
def makeError (e : Engine) (className : String) (message : Value) : Engine :=
  match message with
  | .undefined => giveNew (e.newErrorOf className none)
  | v => (e.await (.errorOf className)).giveText v none

/-- Makes a new instance of a class. -/
def makeInstance (e : Engine) (c : ObjectClass) (args : List Value) : Engine :=
  let first := args.head?.getD .undefined
  match c with
  | .object => e.giveObject first
  | .function => giveNew (e.alloc (.ofKind (.function .undefined none none)
      (some Intrinsic.functionParent)))
  | .array => e.makeArray args
  | .date => giveNew (e.allocDate (if args.length = 1 then timeOf first else .nan))
  | .error name => e.makeError name first
  | .string => (e.await .boxed).giveText (args.head?.getD (.text "")) none
  | .number => (e.await .boxed).giveNearest (args.head?.getD (.int 0))
  | .boolean => e.giveObject (.bool first.isTruthy)
  | .symbol | .bigint => e.throwType "not a constructor"
  | .proxy => e.throwType "not an object"

/-- Makes a new instance of what should be a class. -/
def construct (e : Engine) (f : Value) (args : List Value) : Engine :=
  match f, (e.object? f).map Object.kind with
  | .object _, some (.builtin (.ofClass c)) => e.makeInstance c args
  | .object _, some (.function ..) | .object _, some (.proxy ..) =>
    (e.await (.instanceParent f args)).goto (.read f (.name "prototype"))
  | .object _, _ => e.throwType "not a constructor"
  | _, _ => e.throwType "not a function"

/-- Makes a new object that inherits from what a function gave for that, and lets the
function see it. -/
def constructFrom (e : Engine) (f : Value) (args : List Value) (parent : Value) : Engine :=
  let (made, e) := e.allocHeir parent.refs.head?
  match (e.object? f).map Object.kind with
  | some (.function ..) => (e.await (.instanceMade made)).goto (.call f made args)
  | _ => e.give made

/-- Makes a new instance of the class that stands under a name. -/
def instantiate (e : Engine) (c : ObjectClass) (args : List Value) : Engine :=
  (e.await (.instanceClass args)).goto (.read globalObject (.name (Intrinsic.className c)))

/-! ### Functions that scripts find -/

/-- Goes on with a receiver, unless there is none. -/
def withReceiver (e : Engine) (this : Value) (next : Engine → Value → Engine) : Engine :=
  match this with
  | .undefined | .null => e.throwType "cannot convert to object"
  | this => next e this

/-- Goes on with the time of a date. -/
def withTime (e : Engine) (this : Value) (next : Binary64 → Value) : Engine :=
  match (e.object? this).map Object.kind with
  | some (.date time) => e.give (next time)
  | _ => e.throwType "not a Date object"

/-- Lets an object inherit from another one or from nothing, unless it would then inherit
from itself. -/
def setParent (e : Engine) (this parent : Value) : Engine :=
  let adopt (r : Ref) (parent : Option Ref) : Engine :=
    { e with
      heap := e.heap.update r fun o => { o with parent := parent }
      control := .ret .undefined }
  match this, parent with
  | .object r, .null => adopt r none
  | .object r, .object p =>
    if p = r || e.heap.inherits r (e.heap.objects.length + 1) p then
      e.throwType "circular prototype chain"
    else adopt r (some p)
  | _, _ => e.give .undefined

/-- What an object inherits from. -/
def parentOf (e : Engine) (v : Value) : Value :=
  let parent := match v with
    | .object r => (e.heap.get? r).bind (·.parent)
    | v => Intrinsic.parentOfPlain? v
  parent.elim .null .object

/-- The word for a value of a class in messages. -/
def classWord : ObjectClass → String
  | .string => "string"
  | .number => "number"
  | .boolean => "boolean"
  | .symbol => "symbol"
  | .bigint => "BigInt"
  | c => Intrinsic.className c

/-- Goes on with the value of a class that a receiver is or stands for. -/
def withPlain (e : Engine) (c : ObjectClass) (this : Value) (next : Value → Engine) : Engine :=
  let value : Option Value := match this, (e.object? this).map Object.kind with
    | _, some (.boxed v) => some v
    | .object r, _ => if Intrinsic.parentOf? c = some r then Intrinsic.plainDefault? c else none
    | v, _ => some v
  match value.filter fun v => Intrinsic.plainClass? v = some c with
  | some v => next v
  | none => e.throwType ("not a " ++ classWord c)

/-- Gives the text of a value of a class; a symbol shows what it was called. -/
def givePlainText (e : Engine) (v : Value) : Engine :=
  match v with
  | .symbol _ description => e.give (.string (Value.symbolText description))
  | v => e.giveText v none

/-- What a symbol was called. -/
def descriptionOf : Value → Value
  | .symbol _ (some description) => .string description
  | _ => .undefined

/-- Calls a class as a function. -/
def callClass (e : Engine) (c : ObjectClass) (args : List Value) : Engine :=
  let first := args.head?.getD .undefined
  match c with
  | .string => e.givePlainText (args.head?.getD (.text ""))
  | .number => e.giveNearest (args.head?.getD (.int 0))
  | .boolean => e.give (.bool first.isTruthy)
  | .symbol =>
    match first with
    | .undefined => e.giveSymbol none
    | v => (e.await .symbol).giveText v none
  | .bigint => e.giveBigint first
  | .proxy => e.throwType "must be called with new"
  | c => e.makeInstance c args

/-! ### Entries of the host -/

/-- Goes on with the name of a property, which has to be a text. -/
def withEntryName (e : Engine) (v : Value) (next : String → Engine) : Engine :=
  match v with
  | .string units =>
    match units.toString with
    | .ok name => next name
    | .error offset => e.throwType (surrogateText offset)
  | v => e.throwType (mismatchText (e.typeName v) "string")

/-- Reads a property of an entry as a function; a symbol finds nothing. -/
def callReader (e : Engine) (slot : Slot) (key : Value) : Engine :=
  match key with
  | .symbol .. => e.give .undefined
  | v => e.withEntryName v fun name => e.askEntry slot name []

/-- Writes a property of an entry as a function, and gives whether it could be written,
which it cannot under a symbol. -/
def callWriter (e : Engine) (slot : Slot) (key v : Value) : Engine :=
  match key with
  | .symbol .. => e.give (.bool false)
  | k => e.withEntryName k fun name => e.assignEntry slot name v (.bool true) []

/-- Calls an entry as a function, with the elements of an array. -/
def callEntry (e : Engine) (slot : Slot) (array : Value) : Engine :=
  match (e.object? array).map Object.kind with
  | some (.array _) => e.invokeEntry slot array []
  | _ => e.throwType (mismatchText (e.typeName array) "array")

/-! ### Calls -/

/-- Calls a function that scripts find but do not define. -/
def callBuiltin (e : Engine) (b : Builtin) (this : Value) (args : List Value) : Engine :=
  let arg (position : Nat) : Value := args[position]?.getD .undefined
  match b with
  | .nothing => e.give .undefined
  | .call => e.goto (.call this (arg 0) args.tail)
  | .apply => e.applyTo this (arg 0) (arg 1)
  | .functionText => e.describeFunction this
  | .getTime | .dateValue => e.withTime this .number
  | .dateText => e.withTime this fun time => .text (dateText time)
  | .valueOf => e.withReceiver this giveObject
  | .kindText => e.give (e.kindText this)
  | .getParent => e.withReceiver this fun e v => e.give (e.parentOf v)
  | .setParent => e.withReceiver this fun e v => e.setParent v (arg 0)
  | .join => e.withReceiver this fun e v => e.join v (arg 0)
  | .arrayText =>
    e.withReceiver this fun e v => (e.await (.joinMember v)).goto (.read v (.name "join"))
  | .iterate => e.withReceiver this fun e _ => giveNew (e.allocHeir none)
  | .iterateText =>
    match this with
    | .undefined | .null => e.throwType "null or undefined are forbidden"
    | _ => giveNew (e.allocHeir none)
  | .errorText =>
    match this with
    | .object _ => e.describeError this
    | _ => e.throwType "not an object"
  | .plainValue c => e.withPlain c this e.give
  | .plainText c => e.withPlain c this e.givePlainText
  | .description => e.withPlain .symbol this fun v => e.give (descriptionOf v)
  | .ofClass c => e.callClass c args
  | .token slot => e.give (.int slot.toInt32)
  | .readEntry slot => e.callReader slot (arg 1)
  | .writeEntry slot => e.callWriter slot (arg 1) (arg 2)
  | .callEntry slot => e.callEntry slot (arg 2)

/-- Starts a call, which keeps the function, the receiver and the arguments. -/
def enterCall (e : Engine) (f this : Value) (args : List Value) : Engine :=
  e.push (.call (f :: this :: args))

/-- Calls a function; a call of a stand-in is sent to the host. -/
def callStep (e : Engine) (f this : Value) (args : List Value) : Engine :=
  match (e.object? f).map Object.kind with
  | some (.function body caught kept) =>
    if e.isFull then e.throwFull
    else (e.enterCall f this args).goto (.eval body ⟨this, kept.getD args, caught⟩)
  | some (.builtin b) =>
    if e.isFull then e.throwFull else (e.enterCall f this args).callBuiltin b this args
  | some (.proxy slot _) =>
    let (array, e) := e.allocArray args
    e.invokeEntry slot array (f :: this :: args)
  | _ => e.throwType "not a function"

end ScriptBridge.Engine
