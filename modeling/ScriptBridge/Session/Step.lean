/-
# Steps of a session

Before anything else happens, what nothing refers to any more is let go: a bridge that
the host has given up is disposed, a lease is given back, an object is forgotten.  Of
several things whose last reference ends at once, each goes before the next, in the order
in which the value or the fields that held them list them.  Only an engine at work goes
on regardless, since its steps refer to nothing of the host.
-/
import ScriptBridge.Session.Act
import ScriptBridge.Session.Serve

namespace ScriptBridge.Session

open ScriptBridge.Bridge ScriptBridge.Host

/-! ### Letting go -/

/-- A bridge at a stage for which something holds. -/
def bridgeAt? (s : Session) (stage : Bridge.Stage) (p : Nat → Bool) : Option Nat :=
  (List.range s.bridges.length).find? fun b => s.isAt b stage && p b

/-- A bridge that the host has given up and that no operation keeps. -/
def abandoned? (s : Session) : Option Nat :=
  s.bridgeAt? .leaving fun b => !s.frames.any (Frame.isKeeping b)

/-- A bridge that has been dropped and that nothing uses. -/
def unused? (s : Session) : Option Nat := s.bridgeAt? .dropped fun b => !s.uses b

/-- Gives a lease back to its engine. -/
def endLease (s : Session) (f : ForeignObject) : Session :=
  let s := { s with leases := s.leases.filter fun g => g.lease ≠ f.lease }
  match s.engine? f.bridge with
  | none => s
  | some e =>
    (s.push (.interrupted s.control)).startEngine f.bridge .nothing e (.release f.handle)

/-- Forgets an object and lets go of its fields, by their names. -/
def forgetObject (s : Session) (st : HostState) : Session :=
  let s := { s with objects := s.objects.filter fun other => !other.object.same st.object }
  if st.fields.isEmpty then s
  else
    let fields := st.fields.mergeSort fun a b => decide (a.1 ≤ b.1)
    s.interrupt (.drop (fields.map Prod.snd))

/-- Lets go of something that nothing refers to any more, if there is something. -/
def tidy? (s : Session) : Option Session :=
  match s.abandoned? with
  | some b => some ((s.updateBridge b ({ · with stage := .dropped })).interrupt (.dispose b))
  | none =>
    match s.unused? with
    | some b => some (s.updateBridge b Bridge.vanish)
    | none =>
      match s.deadLease? with
      | some f => some (s.endLease f)
      | none => s.deadObject?.map s.forgetObject

/-! ### Outcomes -/

/-- An outcome as script gets to see it. -/
def seenByScript (r : Outcome) : Except HostError HostValue := r.mapError Failure.cause

/-- What a getter gave.  One that has no failures to report breaks off instead. -/
def getterResult (fallible : Bool) (r : Outcome) : Except HostError HostValue :=
  match r, fallible with
  | .error (.panic text), _ => .error (.panicked text)
  | .error f, false => .error (.panicked f.cause.message)
  | r, _ => seenByScript r

/-- What a setter gave. -/
def setterResult (r : Outcome) : Except HostError HostValue := (seenByScript r).map fun _ => .null

/-- The entry in the log for a dispose hook that failed; one that broke off leaves none. -/
def hookFailure? : Outcome → Option HostError
  | .error (.panic _) => none
  | .error f => some f.cause
  | .ok _ => none

/-- The failure of an operation as one of host code. -/
def reported : Outcome → Outcome
  | .error (.operation e) => .error (.host e.cause)
  | r => r

/-- The text for a failure. -/
def failureText (e : HostError) : String := e.name ++ "|" ++ e.message

/-- Does the next of some actions and gathers the results. -/
def listStep (s : Session) (rest : List Action) (results : List HostValue) (scene : Scene) :
    Session :=
  s.actFirst rest scene (s.give (.array results.reverse)) fun rest => .listing rest results scene

/-- Gives an outcome to the frame that was on top. -/
def doneStep (s : Session) (f : Frame) (r : Outcome) : Session :=
  match f with
  | .interrupted c => s.goto c
  | .held _ | .pausing | .keeping _ | .running .. | .borrowed .. => s.goto (.done r)
  | .scope b => s.leaveScope b r
  | .reporting => s.goto (.done (reported r))
  | .getting b _ fallible => s.goto (.respond b (getterResult fallible r))
  | .setting b _ _ => s.goto (.respond b (setterResult r))
  | .calling b _ _ => s.goto (.respond b (seenByScript r))
  | .assignee b o setter =>
    match r with
    | .error e => s.refuse b e.cause
    | .ok v => s.change b o (.setting b o v) setter ⟨o, [], v⟩
  | .callee b o name =>
    match r with
    | .error e => s.refuse b e.cause
    | .ok v => s.callMethod b o name v
  | .hook o =>
    match hookFailure? r with
    | none => s.finish
    | some e => (s.log (s.identOf o ++ "! " ++ e.message)).finish
  | .sequence rest _ scene =>
    match r with
    | .error e => s.goto (.done (.error e))
    | .ok v => s.actFirst rest scene (s.give v) fun rest => .sequence rest v scene
  | .listing rest results scene =>
    match r with
    | .error e => s.goto (.done (.error e))
    | .ok v => s.listStep rest (v :: results) scene
  | .attempting =>
    match r with
    | .error (.host e) => s.give (.string (failureText e))
    | .error (.operation e) => s.give (.string (failureText e.cause))
    | r => s.goto (.done r)

/-! ### Steps -/

/-- Goes on with what is about to be done; none when all is done or an outcome is to be
looked at. -/
def proceed? (s : Session) : Option Session :=
  match s.control with
  | .done r =>
    match s.frames with
    | [] => none
    | .pausing :: _ => none
    | f :: rest => some ({ s with frames := rest }.doneStep f r)
  | .act a scene => some (s.actStep a scene)
  | .operate b op => some (s.operateStep b op)
  | .engine b => some (s.engineStep b)
  | .decode b r => some (s.decodeStep b r)
  | .perform b tasks heard result => some (s.performStep b tasks heard result)
  | .respond b r => some (s.respondStep b r)
  | .answer b r => some (s.answerStep b r)
  | .drain b slots => some (s.drainStep b slots)
  | .release entries => some (s.releaseStep entries)
  | .dispose b => some (s.disposeStep b)
  | .teardown b slots => some (s.teardownStep b slots)
  | .forget b => some ((s.updateBridge b ({ · with described := [] })).finish)
  | .drop [] => some s.finish
  | .drop (_ :: rest) => some (s.goto (.drop rest))

/-- One step; none when all is done or an outcome is to be looked at. -/
def step? (s : Session) : Option Session :=
  match s.control with
  | .engine b => some (s.engineStep b)
  | _ => s.tidy? <|> s.proceed?.map s.lettingGo

/-- Steps until there is none, so many at most. -/
def run : Nat → Session → Session
  | 0, s => s
  | fuel + 1, s =>
    match s.step? with
    | none => s
    | some s => run fuel s

end ScriptBridge.Session
