/-
# Scripts

Scripts as trees.  Evaluation is strict and from left to right, with a few
exceptions that have constructors of their own; everything else is an operator
applied to operands.
-/
import ScriptBridge.Number.Binary64
import ScriptBridge.Text.Utf16

namespace ScriptBridge.Script

open ScriptBridge.Number ScriptBridge.Text

/-- What is done with operands once they have been evaluated. -/
inductive Op where
  /-- A new symbol, and what it is called. -/
  | symbol (description : String)
  /-- A new date; a time that is not whole is cut, one out of range is invalid. -/
  | date (time : Binary64)
  /-- An object that inherits from dates without being one. -/
  | fakeDate
  /-- Arrays in one another, at least one, the innermost one empty. -/
  | nest (depth : Nat)
  /-- An array that holds itself. -/
  | loop
  /-- A new error object. -/
  | error (className message : String)
  /-- An array of the operands. -/
  | array
  /-- An array that holds its one operand many times. -/
  | fill (count : Nat)
  /-- An object with the operands as properties. -/
  | object (keys : List String)
  /-- Assigns a global. -/
  | assign (name : String)
  /-- Reads a property. -/
  | get (name : String)
  /-- Writes a property. -/
  | put (name : String)
  /-- Reads the iterator property. -/
  | getIterator
  /-- Writes the iterator property. -/
  | putIterator
  /-- Calls the first operand with the others as arguments. -/
  | call
  /-- Calls the second operand on the first one as receiver, with the others as arguments. -/
  | callOn
  /-- The sum. -/
  | add
  /-- Strict equality. -/
  | equal
  /-- The name of the type. -/
  | typeOf
  /-- Throws its operand. -/
  | throw
  deriving DecidableEq, Repr

/-- A script. -/
inductive Expr where
  | undefined
  | null
  | bool (b : Bool)
  | int (n : Int32)
  /-- A numeric literal. -/
  | number (x : Binary64)
  | string (units : Units)
  | bigint (n : Int)
  /-- The receiver of the running function, or the global object outside of any. -/
  | this
  /-- The global object. -/
  | global
  /-- The exception of the handler this stands in. -/
  | caught
  /-- An argument of the running function; a getter sees those of the function that made it. -/
  | arg (position : Nat)
  /-- A property of the global object. -/
  | var (name : String)
  /-- A function. -/
  | function (body : Expr)
  /-- Evaluates all and gives the last. -/
  | seq (parts : List Expr)
  /-- Evaluates one of two by a condition. -/
  | cond (test yes no : Expr)
  /-- Evaluates the handler when the body throws. -/
  | tryCatch (body handler : Expr)
  /-- Calls a member; the member is read before the arguments are evaluated. -/
  | callMember (target : Expr) (name : String) (args : List Expr)
  /-- Gives an object a getter for a property. -/
  | defineGetter (target : Expr) (name : String) (body : Expr)
  /-- Gives an object a setter for a property. -/
  | defineSetter (target : Expr) (name : String) (body : Expr)
  /-- An operator on operands. -/
  | op (op : Op) (operands : List Expr)
  deriving Repr, Inhabited

namespace Expr

mutual
/-- Whether the exception of a surrounding handler is used. -/
def usesCaught : Expr → Bool
  | caught => true
  | function body => usesCaught body
  | seq parts => anyUsesCaught parts
  | cond test yes no => usesCaught test || usesCaught yes || usesCaught no
  | tryCatch body _ => usesCaught body
  | callMember target _ args => usesCaught target || anyUsesCaught args
  | defineGetter target _ body => usesCaught target || usesCaught body
  | defineSetter target _ body => usesCaught target || usesCaught body
  | op _ operands => anyUsesCaught operands
  | _ => false

/-- Whether one of some scripts uses the exception of a surrounding handler. -/
def anyUsesCaught : List Expr → Bool
  | [] => false
  | e :: es => usesCaught e || anyUsesCaught es
end

mutual
/-- Whether the arguments of the surrounding function are used. -/
def usesArgs : Expr → Bool
  | arg _ => true
  | seq parts => anyUsesArgs parts
  | cond test yes no => usesArgs test || usesArgs yes || usesArgs no
  | tryCatch body handler => usesArgs body || usesArgs handler
  | callMember target _ args => usesArgs target || anyUsesArgs args
  | defineGetter target _ body => usesArgs target || usesArgs body
  | defineSetter target _ _ => usesArgs target
  | op _ operands => anyUsesArgs operands
  | _ => false

/-- Whether one of some scripts uses the arguments of the surrounding function. -/
def anyUsesArgs : List Expr → Bool
  | [] => false
  | e :: es => usesArgs e || anyUsesArgs es
end

end Expr

end ScriptBridge.Script
