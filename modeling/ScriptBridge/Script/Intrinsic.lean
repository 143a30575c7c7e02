/-
# Intrinsic objects

The objects that a heap starts with, at fixed places: the global object, the objects that
others inherit from, and the functions and classes that scripts find.  Scripts may assign
most of what the global object holds; the intrinsic objects themselves stay.

Scripts do not find the class of the table in which an engine notes what stands for a host
entry, nor the functions that make properties permanent, nor promises.  So they neither get
hold of that table, nor freeze a stand-in, nor leave work for later.
-/
import ScriptBridge.Script.Heap

namespace ScriptBridge.Script

open ScriptBridge.Number

namespace Intrinsic

/-- The global object. -/
def global : Ref := 0
/-- What objects inherit from. -/
def objectParent : Ref := 1
/-- What functions inherit from. -/
def functionParent : Ref := 2
/-- What arrays inherit from. -/
def arrayParent : Ref := 3
/-- What dates inherit from. -/
def dateParent : Ref := 4
/-- What strings inherit from. -/
def stringParent : Ref := 5
/-- What numbers inherit from. -/
def numberParent : Ref := 6
/-- What booleans inherit from. -/
def booleanParent : Ref := 7
/-- What symbols inherit from. -/
def symbolParent : Ref := 8
/-- What large integers inherit from. -/
def bigintParent : Ref := 9
/-- What errors inherit from. -/
def errorParent : Ref := 10

/-- The classes of errors besides plain ones, in the order of their places. -/
def errorClasses : List String :=
  ["EvalError", "RangeError", "ReferenceError", "SyntaxError", "TypeError", "URIError",
   "InternalError"]

/-- What errors of a class inherit from. -/
def errorParentOf (className : String) : Ref :=
  match errorClasses.findIdx? (· == className) with
  | some i => errorParent + 1 + i
  | none => errorParent

/-! ### Functions and classes -/

/-- The classes whose values need not be objects. -/
def plainClasses : List ObjectClass := [.string, .number, .boolean, .symbol, .bigint]

/-- The functions that scripts find, in the order of their places, with the name and the
number of parameters that scripts see. -/
def functions : List (Builtin × String × Nat) :=
  [(.call, "call", 1), (.apply, "apply", 2), (.functionText, "toString", 0),
   (.getTime, "getTime", 0), (.dateValue, "valueOf", 0), (.dateText, "toString", 0),
   (.valueOf, "valueOf", 0), (.kindText, "toString", 0),
   (.getParent, "get __proto__", 0), (.setParent, "set __proto__", 1),
   (.join, "join", 1), (.arrayText, "toString", 0), (.iterate, "values", 0),
   (.iterateText, "[Symbol.iterator]", 0), (.errorText, "toString", 0),
   (.description, "get description", 0)] ++
  plainClasses.flatMap fun c => [(.plainValue c, "valueOf", 0), (.plainText c, "toString", 0)]

/-- The classes that scripts find, in the order of their places, with the number of
parameters that scripts see. -/
def classes : List (ObjectClass × Nat) :=
  [(.object, 1), (.function, 1), (.array, 1), (.date, 7), (.string, 1), (.number, 1),
   (.boolean, 1), (.symbol, 0), (.bigint, 1), (.proxy, 2), (.error "Error", 1)] ++
  errorClasses.map fun name => (.error name, 1)

/-- The place of the first function. -/
def firstFunction : Ref := errorParent + 1 + errorClasses.length

/-- The place of the first class. -/
def firstClass : Ref := firstFunction + functions.length

/-- The number of intrinsic objects. -/
def count : Nat := firstClass + classes.length

/-- The place of a function. -/
def functionRef (b : Builtin) : Ref := firstFunction + functions.findIdx (·.1 == b)

/-- The place of a class. -/
def classRef (c : ObjectClass) : Ref := firstClass + classes.findIdx (·.1 == c)

/-- The name of a class, as scripts find it. -/
def className : ObjectClass → String
  | .object => "Object"
  | .function => "Function"
  | .array => "Array"
  | .date => "Date"
  | .error name => name
  | .string => "String"
  | .number => "Number"
  | .boolean => "Boolean"
  | .symbol => "Symbol"
  | .bigint => "BigInt"
  | .proxy => "Proxy"

/-- What the objects of a class inherit from. -/
def parentOf? : ObjectClass → Option Ref
  | .object => some objectParent
  | .function => some functionParent
  | .array => some arrayParent
  | .date => some dateParent
  | .error name => some (errorParentOf name)
  | .string => some stringParent
  | .number => some numberParent
  | .boolean => some booleanParent
  | .symbol => some symbolParent
  | .bigint => some bigintParent
  | .proxy => none

/-- The class of a value that is no object. -/
def plainClass? : Value → Option ObjectClass
  | .string _ => some .string
  | .int _ | .number _ => some .number
  | .bool _ => some .boolean
  | .symbol .. => some .symbol
  | .bigint _ => some .bigint
  | _ => none

/-- What a value that is no object inherits from. -/
def parentOfPlain? (v : Value) : Option Ref := (plainClass? v).bind parentOf?

/-- The value that a class sees in what its values inherit from. -/
def plainDefault? : ObjectClass → Option Value
  | .string => some (.text "")
  | .number => some (.int 0)
  | .boolean => some (.bool false)
  | _ => none

/-! ### Their properties -/

/-- A property that holds a function. -/
def method (name : String) (b : Builtin) : Key × Property :=
  (.name name, .data (.object (functionRef b)))

/-- A property that holds a text. -/
def label (name text : String) : Key × Property := (.name name, .data (.text text))

/-- The property under which a parent holds its class. -/
def ownClass (c : ObjectClass) : Key × Property :=
  (.name "constructor", .data (.object (classRef c)))

/-- The properties of a function or a class: its name and its number of parameters. -/
def signature (name : String) (parameters : Nat) : List (Key × Property) :=
  [(.name "length", .fixed (.ofCount parameters) false),
   (.name "name", .fixed (.text name) false)]

/-- What the global object holds at first. -/
def globals : List (Key × Property) :=
  [(.name "globalThis", .data (.object global)),
   (.name "undefined", .fixed .undefined true),
   (.name "NaN", .fixed (.number .nan) true),
   (.name "Infinity", .fixed (.number (.infinity false)) true)] ++
  classes.map fun (c, _) => (.name (className c), .data (.object (classRef c)))

/-- The properties that what the values of a class inherit from has besides those that all
such objects have. -/
def ownProperties : ObjectClass → List (Key × Property)
  | .string =>
    [(.name "length", .fixed (.int 0) false),
     (.iterator, .data (.object (functionRef .iterateText)))]
  | .symbol => [(.name "description", .accessor (some (functionRef .description)) none)]
  | _ => []

/-- What objects inherit from, with the properties that all objects have. -/
def rootObject : Object :=
  .ofKind .ordinary none
    [method "valueOf" .valueOf, method "toString" .kindText, ownClass .object,
     (.name "__proto__",
       .accessor (some (functionRef .getParent)) (some (functionRef .setParent)))]

/-- What the objects of the other classes inherit from, in the order of their places. -/
def parents : List Object :=
  [.ofKind (.builtin .nothing) objectParent
     ([method "call" .call, method "apply" .apply, method "toString" .functionText,
       ownClass .function] ++ signature "" 0),
   .ofKind (.array 0) objectParent
     [method "join" .join, method "toString" .arrayText, ownClass .array,
      (.iterator, .data (.object (functionRef .iterate)))],
   .ofKind .ordinary objectParent
     [method "getTime" .getTime, method "valueOf" .dateValue, method "toString" .dateText,
      ownClass .date]] ++
  plainClasses.map (fun c =>
    .ofKind .ordinary objectParent
      ([method "valueOf" (.plainValue c), method "toString" (.plainText c), ownClass c] ++
        ownProperties c)) ++
  [.ofKind .ordinary objectParent
     [label "name" "Error", label "message" "", method "toString" .errorText,
      ownClass (.error "Error")]] ++
  errorClasses.map fun name =>
    .ofKind .ordinary errorParent
      [label "name" name, label "message" "", ownClass (.error name)]

/-- A class as an object. -/
def classObject (c : ObjectClass) (parameters : Nat) : Object :=
  .ofKind (.builtin (.ofClass c)) functionParent
    (signature (className c) parameters ++
      (parentOf? c).toList.map fun r => (.name "prototype", .fixed (.object r) true))

/-- A function that scripts find, as an object. -/
def functionObject (b : Builtin) (name : String) (parameters : Nat) : Object :=
  .ofKind (.builtin b) functionParent (signature name parameters)

/-- The intrinsic objects, in the order of their places. -/
def objects : List Object :=
  [.ofKind .ordinary objectParent globals, rootObject] ++ parents ++
  functions.map (fun (b, name, parameters) => functionObject b name parameters) ++
  classes.map fun (c, parameters) => classObject c parameters

end Intrinsic

/-- The heap with nothing but the intrinsic objects. -/
def Heap.initial : Heap :=
  ⟨(Intrinsic.objects.zipIdx.map fun (o, r) => (r, o)).reverse, Intrinsic.count⟩

end ScriptBridge.Script
