/-
# Evaluation

The parts of a script that need no other part of the engine are evaluated at once; for
the others a frame keeps what is still to be done.  Operands are evaluated from left to
right, and an operator is applied when all of them have their values.
-/
import ScriptBridge.Engine.Call

namespace ScriptBridge.Engine

open ScriptBridge.Number ScriptBridge.Script ScriptBridge.Table ScriptBridge.Text ScriptBridge.Wire

/-! ### Operators -/

/-- Enters arrays in one another; there is at least one. -/
def allocNest (e : Engine) : Nat → Value × Engine
  | 0 => e.allocArray []
  | 1 => e.allocArray []
  | depth + 1 =>
    let (v, e) := allocNest e depth
    e.allocArray [v]

/-- Enters an array that holds itself. -/
def allocLoop (e : Engine) : Value × Engine :=
  let r := e.heap.next
  e.allocArray [.object r]

/-- Enters an object with properties; of two of one name the later counts. -/
def allocObject (e : Engine) (properties : List (String × Value)) : Value × Engine :=
  let start := Object.ofKind .ordinary (some Intrinsic.objectParent)
  e.alloc (properties.foldl (fun o (name, v) => o.define (.ofName name) (.data v)) start)

/-- Enters a function; only a getter can see the arguments of the function that makes it. -/
def allocFunction (e : Engine) (body : Expr) (isGetter : Bool) (env : Env) : Value × Engine :=
  e.alloc (.ofKind
    (.function body (if body.usesCaught then env.caught else none)
      (if isGetter && body.usesArgs then some env.args else none))
    (some Intrinsic.functionParent))

/-- Applies an operator to its operands. -/
def apply (e : Engine) (op : Op) (operands : List Value) : Engine :=
  match op, operands with
  | .symbol description, _ => e.giveSymbol (some (Units.ofString description))
  | .date time, _ => e.instantiate .date [.number time]
  | .fakeDate, _ => giveNew (e.allocHeir (some Intrinsic.dateParent))
  | .nest depth, _ => giveNew (e.allocNest depth)
  | .loop, _ => giveNew e.allocLoop
  | .error className message, _ => e.instantiate (.error className) [.text message]
  | .array, vs => giveNew (e.allocArray vs)
  | .fill count, v :: _ => giveNew (e.allocArray (List.replicate count v))
  | .object keys, vs => giveNew (e.allocObject (keys.zip vs))
  | .assign name, v :: _ => e.goto (.write globalObject (.ofName name) v)
  | .get name, v :: _ => e.goto (.read v (.ofName name))
  | .put name, t :: v :: _ => e.goto (.write t (.ofName name) v)
  | .getIterator, v :: _ => e.goto (.read v .iterator)
  | .putIterator, t :: v :: _ => e.goto (.write t .iterator v)
  | .call, f :: args => e.goto (.call f .undefined args)
  | .callOn, t :: f :: args => e.goto (.call f t args)
  | .add, a :: b :: _ => e.giveSum a b
  | .equal, a :: b :: _ => e.give (.bool (a.strictEqual b))
  | .typeOf, v :: _ => e.give (.text (e.typeOf v))
  | .throw, v :: _ => (e.markThrown v).goto (.throw v)
  | _, _ => e.give .undefined

/-- Evaluates the next operand, or applies the operator when there is none. -/
def nextOperand (e : Engine) (op : Op) (done : List Value) (rest : List Expr) (env : Env) :
    Engine :=
  match rest with
  | [] => e.apply op done.reverse
  | x :: xs => (e.push (.operands op done xs env)).goto (.eval x env)

/-- Evaluates the next part. -/
def nextPart (e : Engine) (rest : List Expr) (env : Env) : Engine :=
  match rest with
  | [] => e.give .undefined
  | [x] => e.goto (.eval x env)
  | x :: xs => (e.push (.parts xs env)).goto (.eval x env)

/-! ### Evaluation -/

/-- Evaluates a script. -/
def evalStep (e : Engine) (script : Expr) (env : Env) : Engine :=
  match script with
  | .undefined => e.give .undefined
  | .null => e.give .null
  | .bool b => e.give (.bool b)
  | .int n => e.give (.int n)
  | .number x => e.give (.ofLiteral x)
  | .string units => e.give (.string units)
  | .bigint n => e.give (.bigint n)
  | .this => e.give env.this
  | .global => e.give globalObject
  | .caught =>
    match env.caught with
    | some v => e.give v
    | none => e.throwNew "ReferenceError" "caught is not defined"
  | .arg position => e.give (env.args[position]?.getD .undefined)
  | .var name => e.goto (.read globalObject (.ofName name))
  | .function body => giveNew (e.allocFunction body false env)
  | .seq parts => e.nextPart parts env
  | .cond test yes no => (e.push (.branch yes no env)).goto (.eval test env)
  | .tryCatch body handler => (e.push (.guard handler env)).goto (.eval body env)
  | .callMember target name args => (e.push (.member name args env)).goto (.eval target env)
  | .defineGetter target name body =>
    (e.push (.define (.ofName name) body false env)).goto (.eval target env)
  | .defineSetter target name body =>
    (e.push (.define (.ofName name) body true env)).goto (.eval target env)
  | .op op operands => e.nextOperand op [] operands env

/-- Gives an object one half of an accessor pair, the other half staying as it is. -/
def defineAccessor (e : Engine) (target : Value) (key : Key) (body : Expr) (isSetter : Bool)
    (env : Env) : Engine :=
  match target, e.object? target with
  | .object r, some o =>
    if o.isPermanent key then e.throwType "property is not configurable"
    else
      let f := e.heap.next
      let e := (e.allocFunction body (!isSetter) env).2
      let halves := match o.own? key with
        | some (.accessor getter setter) => (getter, setter)
        | _ => (none, none)
      let pair := if isSetter then Property.accessor halves.1 (some f)
        else Property.accessor (some f) halves.2
      { e with heap := e.heap.update r (·.define key pair), control := .ret target }
  | _, _ => e.throwType "not an object"

end ScriptBridge.Engine
