/-
# The kinds of wire value

Every value that crosses between host and script carries the code of one of
twelve kinds.  Negative codes are the errors.
-/
namespace ScriptBridge.Wire

/-- What a wire value is. -/
inductive Kind where
  | null
  | boolean
  | integer
  | number
  | string
  | date
  | array
  /-- A host object, method or error, by slot. -/
  | managedRef
  /-- A script object, by handle. -/
  | foreignRef
  /-- An error known only by its text. -/
  | unknownError
  /-- A thrown host entry, by slot. -/
  | managedError
  /-- A thrown script object, by handle. -/
  | foreignError
  deriving DecidableEq, Repr, Inhabited

namespace Kind

/-- Every kind. -/
def all : List Kind :=
  [.null, .boolean, .integer, .number, .string, .date, .array, .managedRef, .foreignRef,
   .unknownError, .managedError, .foreignError]

/-- The code that stands for the kind in a record. -/
def code : Kind → Int32
  | .null => 0
  | .boolean => 1
  | .integer => 2
  | .number => 3
  | .string => 4
  | .date => 5
  | .array => 10
  | .managedRef => 11
  | .foreignRef => 12
  | .unknownError => -1
  | .managedError => -2
  | .foreignError => -3

/-- The kind that a code stands for. -/
def ofCode? (code : Int32) : Option Kind := all.find? (fun k => decide (k.code = code))

/-- Whether values of the kind report a failure. -/
def isError : Kind → Bool
  | .unknownError | .managedError | .foreignError => true
  | _ => false

/-- The kind as it is shown in messages. -/
def name : Kind → String
  | .null => "Null"
  | .boolean => "Boolean"
  | .integer => "Integer"
  | .number => "Number"
  | .string => "String"
  | .date => "Date"
  | .array => "Array"
  | .managedRef => "ManagedRef"
  | .foreignRef => "ForeignRef"
  | .unknownError => "UnknownError"
  | .managedError => "ManagedError"
  | .foreignError => "ForeignError"

theorem mem_all (k : Kind) : k ∈ all := by cases k <;> decide

theorem ofCode?_code (k : Kind) : ofCode? k.code = some k := by cases k <;> decide

end Kind

end ScriptBridge.Wire
