/-
# Objects as texts

Each kind of object has its own way to become a text.  An array joins the texts of its
elements, with nothing for those that are null or undefined; an error gives its name and
its message; a date gives its time; any other object only tells its kind.  The elements
of an array and the members of an error are read like any others, so script and the host
may be called on the way.
-/
import ScriptBridge.Calendar.LongText
import ScriptBridge.Engine.Conversion

namespace ScriptBridge.Engine

open ScriptBridge.Calendar ScriptBridge.Number ScriptBridge.Script ScriptBridge.Text

/-! ### Kinds -/

/-- The word for the kind of a value that is no object. -/
def plainWord : Value → String
  | .null => "Null"
  | .bool _ => "Boolean"
  | .int _ | .number _ => "Number"
  | .string _ => "String"
  | .symbol .. => "Symbol"
  | .bigint _ => "BigInt"
  | _ => "Undefined"

/-- The word for the kind of an object. -/
def objectWord (o : Object) : String :=
  match o.kind with
  | .array _ => "Array"
  | .function .. | .builtin _ | .proxy .. => "Function"
  | .error => "Error"
  | .date _ => "Date"
  | .boxed v => plainWord v
  | .ordinary => "Object"

/-- The word for the kind of a value. -/
def kindWord (e : Engine) : Value → String
  | .object r =>
    if r = Intrinsic.global then "global" else (e.heap.get? r).elim "Object" objectWord
  | v => plainWord v

/-- The text that tells the kind of a value. -/
def kindText (e : Engine) (v : Value) : Value := .text ("[object " ++ e.kindWord v ++ "]")

/-- The text of a function of a script, which does not tell its body. -/
def scriptFunctionText : String := "function () \x7b\x7d"

/-- The text of another function, by its name. -/
def functionText (name : Units) : Units :=
  Units.ofString "function " ++ name ++ Units.ofString "() \x7b\n    [native code]\n\x7d"

/-- Gives the text of a function. -/
def describeFunction (e : Engine) (f : Value) : Engine :=
  match (e.object? f).map Object.kind with
  | some (.function ..) => e.give (.text scriptFunctionText)
  | some (.builtin _) | some (.proxy ..) =>
    ((e.await .functionName).await (.text (some ""))).goto (.read f (.name "name"))
  | _ => e.throwType "not a function"

/-- The text of a date, by its time in milliseconds. -/
def dateText (time : Binary64) : String :=
  if time.isFinite then Instant.longText ⟨time.truncate / 1000, 0⟩ else "Invalid Date"

/-! ### Arrays -/

/-- Joins the other elements of an object. -/
def nextJoined (e : Engine) (object : Value) (separator : Units) (length index : Nat)
    (done : List Units) : Engine :=
  if index < length then
    (e.await (.joinElement object separator length index done)).goto
      (.read object (.index index))
  else e.give (.string (separator.intercalate done.reverse))

/-- Takes an element that is to be joined. -/
def takeJoined (e : Engine) (object : Value) (separator : Units) (length index : Nat)
    (done : List Units) (v : Value) : Engine :=
  match v with
  | .undefined | .null => e.nextJoined object separator length (index + 1) ([] :: done)
  | v => (e.await (.joinText object separator length index done)).giveText v none

/-- The length that a number stands for: none below zero, and cut to a whole number. -/
def lengthOf (v : Value) : Nat := (v.asNumber.elim 0 Binary64.truncate).toNat

/-- Starts to join the elements of an object whose length is known. -/
def startJoin (e : Engine) (object separator : Value) (length : Nat) : Engine :=
  (e.await (.joinSeparator object length)).giveText separator (some ",")

/-- Reads the length of an object and then joins its elements. -/
def join (e : Engine) (object separator : Value) : Engine :=
  ((e.await (.joinLength object separator)).await .number).goto
    (.read object (.name "length"))

/-- The text of an array: what its own member for joining gives, or its kind. -/
def arrayText (e : Engine) (object f : Value) : Engine :=
  if e.isCallable f then e.goto (.call f object []) else e.give (e.kindText object)

/-! ### Errors -/

/-- Reads the name of an error, and then its message. -/
def describeError (e : Engine) (error : Value) : Engine :=
  ((e.await (.errorName error)).await (.text (some "Error"))).goto (.read error (.name "name"))

/-- Reads the message of an error whose name is known. -/
def describeMessage (e : Engine) (error : Value) (name : Units) : Engine :=
  ((e.await (.errorMessage name)).await (.text (some ""))).goto (.read error (.name "message"))

/-- The text of an error: its name and its message, a colon between them if both say
something. -/
def errorText (name message : Units) : Units :=
  if name.isEmpty then message
  else if message.isEmpty then name
  else name ++ Units.ofString ": " ++ message

end ScriptBridge.Engine
