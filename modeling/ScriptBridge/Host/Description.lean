/-
# Descriptions of host types

What script can reach on the objects of a host type.  A description is built from
registrations: getters and setters of one name are merged into one property, the
one registered last counting, and methods of one name are overloads in the order of
their registration.  What a getter, a setter or a method does is left open here.
-/
import ScriptBridge.Host.Parameter

namespace ScriptBridge.Host

variable {G S M : Type}

/-- What can be read from and written to a property. -/
structure Property (G S : Type) where
  /-- How it is read, if it can be. -/
  getter : Option G := none
  /-- How it is written, if it can be. -/
  setter : Option S := none

/-- One way to call a method. -/
structure Overload (M : Type) where
  /-- The kinds of its parameters. -/
  params : List Param
  /-- What it does. -/
  body : M

/-- One step of describing a type. -/
inductive Registration (G S M : Type) where
  /-- The name in messages. -/
  | typeName (name : String)
  /-- How a property is read. -/
  | getter (name : String) (get : G)
  /-- How a property is written. -/
  | setter (name : String) (set : S)
  /-- One way to call a method. -/
  | method (name : String) (params : List Param) (body : M)

/-- Everything script can reach on the objects of a type. -/
structure Description (G S M : Type) where
  /-- The name in messages. -/
  name : String
  /-- The properties by name. -/
  properties : List (String × Property G S) := []
  /-- The overloads by name. -/
  methods : List (String × List (Overload M)) := []

/-- Changes the value at a key, which is entered when it is not there. -/
def alter {α : Type} (key : String) (start : α) (f : α → α) :
    List (String × α) → List (String × α)
  | [] => [(key, f start)]
  | (k, a) :: rest => if k = key then (k, f a) :: rest else (k, a) :: alter key start f rest

namespace Description

/-- The property of a name. -/
def property (d : Description G S M) (name : String) : Option (Property G S) :=
  d.properties.lookup name

/-- The getter of a name. -/
def getter (d : Description G S M) (name : String) : Option G :=
  (d.property name).bind (·.getter)

/-- The setter of a name. -/
def setter (d : Description G S M) (name : String) : Option S :=
  (d.property name).bind (·.setter)

/-- The overloads of a name, in the order of their registration. -/
def overloads (d : Description G S M) (name : String) : Option (List (Overload M)) :=
  d.methods.lookup name

/-- Whether some overload has the name. -/
def hasMethod (d : Description G S M) (name : String) : Bool := (d.overloads name).isSome

/-- Takes one more registration into account. -/
def register (d : Description G S M) : Registration G S M → Description G S M
  | .typeName name => { d with name := name }
  | .getter name get =>
    { d with properties := alter name {} (fun p => { p with getter := some get }) d.properties }
  | .setter name set =>
    { d with properties := alter name {} (fun p => { p with setter := some set }) d.properties }
  | .method name params body =>
    { d with methods := alter name [] (· ++ [⟨params, body⟩]) d.methods }

/-- The description that registrations give, starting from a name. -/
def ofRegistrations (name : String) (rs : List (Registration G S M)) : Description G S M :=
  rs.foldl register { name := name }

/-- The first overload of the best score, given the best one so far. -/
def best (args : List HostValue) :
    Option (Nat × Overload M) → List (Overload M) → Option (Nat × Overload M)
  | top, [] => top
  | top, o :: os =>
    match Param.scores o.params args with
    | none => best args top os
    | some n =>
      match top with
      | none => best args (some (n, o)) os
      | some (m, p) => if m < n then best args (some (n, o)) os else best args (some (m, p)) os

/-- The overload that a call binds to: of those that fit, the best, and of several best
ones the first. -/
def resolve (d : Description G S M) (name : String) (args : List HostValue) :
    Except HostError (Overload M) :=
  match d.overloads name with
  | none => .error (.missingMember d.name name)
  | some os =>
    match best args none os with
    | some (_, o) => .ok o
    | none => .error (.noMatchingOverload d.name name args.length)

end Description

end ScriptBridge.Host
