/-
# Members

What script gets when it uses a member of a host object by its name.  It is what the registrations
for the type of the object say: a read runs the getter that was registered last, or gives a method
where there is none; an assignment runs the setter that was registered last, and no method stands in
for one; a call binds to one of the overloads.  What a method that is bound reads of its arguments
is there.  Methods and failures that are kept alive for script answer to few names of their own.
-/
import ScriptBridge.Proofs.Host.Overloads
import ScriptBridge.Proofs.Session.Assignment
import ScriptBridge.Proofs.Session.Decoding
import ScriptBridge.Proofs.Session.Types

namespace ScriptBridge.Session

open ScriptBridge.Bridge ScriptBridge.Host ScriptBridge.Script ScriptBridge.Table ScriptBridge.Wire

variable {s s' t : Session} {b : Nat} {e e' : Engine} {o : HostObject} {v : HostValue} {r : Record}
  {slot : Slot} {name : String} {entry : Entry} {a : Action} {scene : Scene} {f : Frame}
  {below : List Frame} {outcome : Outcome} {names : Nat → String}
  {members : Nat → List (Registration Getter Action Action)} {types : List HostType}
  {setups : List Setup} {older : List Session}

/-! ### What a method reads of its arguments -/

/-- A call runs an overload that takes the arguments. -/
lemma exists_overload_of_callMethod (hc : (s.callMethod b o name v).control = .act a scene) :
    ∃ overload, (s.typeOf o).description.resolve name (v.asArray.getD [v]) = .ok overload ∧
      a = overload.body ∧ scene = ⟨o, v.asArray.getD [v], .null⟩ := by
  cases hresolve : (s.typeOf o).description.resolve name (v.asArray.getD [v]) with
  | error err =>
    have hresolve' : ((s.updateBridge b (·.describe o.type)).typeOf o).description.resolve name
      (v.asArray.getD [v]) = .error err := hresolve
    rw [callMethod, hresolve'] at hc
    cases hc
  | ok overload =>
    rw [callMethod_eq hresolve, change] at hc
    split at hc
    · cases hc
    · cases hc
      exact ⟨overload, rfl, rfl, rfl⟩

lemma actStep_arg {p : Param} {i : Nat} {w : HostValue}
    (hw : (Args.mk scene.args).get i p = .ok w) : s.actStep (.arg p i) scene = s.give w := by
  rw [actStep, hw, withResult]

/-- **What a call binds to reads its arguments without failure.**  A kind has a score for just those
values that its reader takes.  So an overload that a call binds to has as many parameters as there
are arguments, and the reader of each of them succeeds, as does reading a value as it is; an
overload with a parameter whose reader fails is not bound to.  Host code that a call runs can thus
read what it has declared. -/
theorem bound_arguments_read {G S M : Type} :
    (∀ (p : Param) (args : List HostValue) (i : Nat) (v : HostValue), args[i]? = some v →
      ((p.score v).isSome = true ↔ ∃ w, (Args.mk args).get i p = .ok w) ∧
        ((p.score v).isSome = false →
          (Args.mk args).get i p = .error (.argumentType i p.name v.kind))) ∧
    (∀ (d : Description G S M) (name : String) (args : List HostValue) (o : Overload M),
      d.resolve name args = .ok o → o.params.length = args.length ∧
        (∀ i p, o.params[i]? = some p → ∃ w, (Args.mk args).get i p = .ok w) ∧
        ∀ i < o.params.length, ∃ w, (Args.mk args).value i = .ok w) ∧
    (∀ (d : Description G S M) (name : String) (args : List HostValue) (o : Overload M) (i : Nat)
      (p : Param) (err : HostError), o.params[i]? = some p →
        (Args.mk args).get i p = .error err → d.resolve name args ≠ .ok o) ∧
    ∀ (s : Session) (b : Nat) (o : HostObject) (name : String) (v : HostValue) (a : Action)
      (scene : Scene), (s.callMethod b o name v).control = .act a scene →
        ∃ overload, (s.typeOf o).description.resolve name (v.asArray.getD [v]) = .ok overload ∧
          a = overload.body ∧ scene = ⟨o, v.asArray.getD [v], .null⟩ ∧
          (∀ i p, overload.params[i]? = some p →
            ∃ w, ∀ t : Session, t.actStep (.arg p i) scene = t.give w) ∧
          ∀ i < overload.params.length,
            ∃ w, ∀ t : Session, t.actStep (.arg .any i) scene = t.give w := by
  refine ⟨?_, ?_, ?_, ?_⟩
  · intro p args i v hv
    constructor
    · rw [Param.isSome_score, Args.exists_get_eq_ok]
      simp [hv]
    · intro hscore
      refine Args.get_of_not_fits hv fun hfits => ?_
      rw [Param.isSome_score.2 hfits] at hscore
      cases hscore
  · intro d name args o h
    obtain ⟨hlength, hget⟩ := Overload.takes_iff_get.1 (Description.takes_of_resolve h)
    refine ⟨hlength, hget, fun i hi => ?_⟩
    exact Args.get_of_fits (List.getElem?_eq_getElem (hlength ▸ hi)) (.any _)
  · intro d name args o i p err hp herr h
    obtain ⟨-, hget⟩ := Overload.takes_iff_get.1 (Description.takes_of_resolve h)
    obtain ⟨w, hw⟩ := hget i p hp
    cases herr.symm.trans hw
  · intro s b o name v a scene hc
    obtain ⟨overload, hresolve, rfl, rfl⟩ := exists_overload_of_callMethod hc
    obtain ⟨hlength, hget⟩ := Overload.takes_iff_get.1 (Description.takes_of_resolve hresolve)
    refine ⟨overload, hresolve, rfl, rfl, fun i p hp => ?_, fun i hi => ?_⟩
    · obtain ⟨w, hw⟩ := hget i p hp
      exact ⟨w, fun t => actStep_arg hw⟩
    · obtain ⟨w, hw⟩ := Args.get_of_fits (List.getElem?_eq_getElem (hlength ▸ hi)) (.any _)
      exact ⟨w, fun t => actStep_arg hw⟩

/-! ### What comes of a use -/

/-- Nothing that belongs to the host has changed. -/
structure Unmoved (s s' : Session) : Prop where
  objects : s'.objects = s.objects
  registers : s'.registers = s.registers

/-- Script is answered at once. -/
structure Responds (s : Session) (b : Nat) (below : List Frame) (r : Except HostError HostValue)
    (s' : Session) : Prop extends Unmoved s s' where
  control : s'.control = .respond b r
  frames : s'.frames = below

/-- What script has handed over is decoded, for a frame that waits for it. -/
structure Awaits (s : Session) (b : Nat) (f : Frame) (r : Record) (s' : Session) : Prop
    extends Unmoved s s' where
  control : s'.control = .decode b r
  frames : s'.frames = f :: s.frames

/-- Host code is about to run, for a frame that waits for what it gives. -/
structure Acts (s : Session) (f : Frame) (below : List Frame) (a : Action) (scene : Scene)
    (s' : Session) : Prop extends Unmoved s s' where
  control : s'.control = .act a scene
  frames : s'.frames = f :: below

/-- Host code is about to run, unless others use the object in a way that does not go together with
it. -/
inductive EntersOrRefuses (s : Session) (b : Nat) (o : HostObject) (taken : Bool) (f : Frame)
    (below : List Frame) (a : Action) (scene : Scene) (s' : Session) : Prop
  /-- The object is free for it. -/
  | enters (hfree : taken = false) (h : Acts s f below a scene s')
  /-- The object is not, and script is told so. -/
  | refused (htaken : taken = true) (h : Responds s b below (.error (.reentrant o.typeName)) s')

/-- For each type there is a name, and its members have been registered. -/
def Registered (types : List HostType) (names : Nat → String)
    (members : Nat → List (Registration Getter Action Action)) : Prop :=
  ∀ type, (HostType.ofNumber types type).description =
    .ofRegistrations (names type) (members type)

/-- What comes of reading a property of an entry. -/
inductive ReadsEntry (s : Session) (b : Nat) (names : Nat → String)
    (members : Nat → List (Registration Getter Action Action)) (name : String) (s' : Session) :
    Entry → Prop
  /-- The getter that was registered last runs unless the object is being changed. -/
  | getter {o : HostObject} {g : Getter} (hget : lastGetter (members o.type) name = some g)
    (h : EntersOrRefuses s b o (s.isWriting o) (.getting b o g.fallible) s.frames g.action
      ⟨o, [], .null⟩ s') : ReadsEntry s b names members name s' (.object o)
  /-- Where there is no getter, a method is given. -/
  | method {o : HostObject} (hget : lastGetter (members o.type) name = none)
    (hmethod : overloadsNamed (members o.type) name ≠ []) (h : GivesMethod s b o name s') :
    ReadsEntry s b names members name s' (.object o)
  /-- Where there is neither, there is no such member. -/
  | missing {o : HostObject} (hget : lastGetter (members o.type) name = none)
    (hmethod : overloadsNamed (members o.type) name = [])
    (h : Responds s b s.frames (.error (.missingMember
      (lastTypeName (names o.type) (members o.type)) name)) s') :
    ReadsEntry s b names members name s' (.object o)
  /-- A method has a name. -/
  | methodName {o : HostObject} {method : String} (hname : name = "name")
    (h : Responds s b s.frames (.ok (.string method)) s') :
    ReadsEntry s b names members name s' (.method o method)
  /-- A method has nothing else. -/
  | methodMissing {o : HostObject} {method : String} (hname : name ≠ "name")
    (h : Responds s b s.frames (.error (.missingMember "HostMethod" name)) s') :
    ReadsEntry s b names members name s' (.method o method)
  /-- A failure has a name. -/
  | errorName {x : HostError} (hname : name = "name")
    (h : Responds s b s.frames (.ok (.string x.name)) s') :
    ReadsEntry s b names members name s' (.error x)
  /-- A failure has a message. -/
  | errorMessage {x : HostError} (hname : name = "message")
    (h : Responds s b s.frames (.ok (.string x.message)) s') :
    ReadsEntry s b names members name s' (.error x)
  /-- A failure has nothing else. -/
  | errorMissing {x : HostError} (hname : name ≠ "name") (hmessage : name ≠ "message")
    (h : Responds s b s.frames (.error (.missingMember "HostError" name)) s') :
    ReadsEntry s b names members name s' (.error x)

/-- What comes of assigning a property of an entry.  Methods do not matter. -/
inductive WritesEntry (s : Session) (b : Nat) (names : Nat → String)
    (members : Nat → List (Registration Getter Action Action)) (name : String) (r : Record)
    (s' : Session) : Entry → Prop
  /-- The setter that was registered last waits for the value. -/
  | setter {o : HostObject} {a : Action} (hset : lastSetter (members o.type) name = some a)
    (h : Awaits s b (.assignee b o a) r s') : WritesEntry s b names members name r s' (.object o)
  /-- A property that has a getter only cannot be assigned, whatever the value. -/
  | readOnly {o : HostObject} {g : Getter} (hset : lastSetter (members o.type) name = none)
    (hget : lastGetter (members o.type) name = some g)
    (h : Responds s b s.frames (.error (.readOnly
      (lastTypeName (names o.type) (members o.type)) name)) s') :
    WritesEntry s b names members name r s' (.object o)
  /-- Where there is neither, there is no such member, whatever the value. -/
  | missing {o : HostObject} (hset : lastSetter (members o.type) name = none)
    (hget : lastGetter (members o.type) name = none)
    (h : Responds s b s.frames (.error (.missingMember
      (lastTypeName (names o.type) (members o.type)) name)) s') :
    WritesEntry s b names members name r s' (.object o)
  /-- Nothing of a method can be assigned. -/
  | method {o : HostObject} {method : String}
    (h : Responds s b s.frames (.error (.readOnly "HostMethod" name)) s') :
    WritesEntry s b names members name r s' (.method o method)
  /-- Nothing of a failure can be assigned. -/
  | error {x : HostError} (h : Responds s b s.frames (.error (.readOnly "HostError" name)) s') :
    WritesEntry s b names members name r s' (.error x)

/-- What comes of calling an entry. -/
inductive CallsEntry (s : Session) (b : Nat) (slot : Slot) (r : Record) (s' : Session) :
    Entry → Prop
  /-- A method waits for its arguments. -/
  | method {o : HostObject} {name : String} (h : Awaits s b (.callee b o name) r s') :
    CallsEntry s b slot r s' (.method o name)
  /-- An object cannot be called. -/
  | object {o : HostObject} (h : Responds s b s.frames (.error (.notCallable slot)) s') :
    CallsEntry s b slot r s' (.object o)
  /-- A failure cannot be called. -/
  | error {x : HostError} (h : Responds s b s.frames (.error (.notCallable slot)) s') :
    CallsEntry s b slot r s' (.error x)

/-- What comes of a value for a setter. -/
inductive SetsProperty (s : Session) (b : Nat) (o : HostObject) (setter : Action)
    (below : List Frame) (s' : Session) : Outcome → Prop
  /-- The setter runs unless the object is in use. -/
  | decoded {v : HostValue}
    (h : EntersOrRefuses s b o (s.isBorrowed o) (.setting b o v) below setter ⟨o, [], v⟩ s') :
    SetsProperty s b o setter below s' (.ok v)
  /-- There is no value. -/
  | undecoded {x : Failure} (h : Responds s b below (.error x.cause) s') :
    SetsProperty s b o setter below s' (.error x)

/-- What comes of the arguments for a method. -/
inductive BindsCall (s : Session) (b : Nat) (o : HostObject) (names : Nat → String)
    (members : Nat → List (Registration Getter Action Action)) (name : String) (below : List Frame)
    (s' : Session) : Outcome → Prop
  /-- Of the overloads in the order of their registration, the first best one runs unless the object
  is in use. -/
  | bound {v : HostValue} {overload : Overload Action}
    (hfirst : IsFirstBest (v.asArray.getD [v]) (overloadsNamed (members o.type) name) overload)
    (h : EntersOrRefuses s b o (s.isBorrowed o)
      (.calling b o (v.asArray.getD [v])) below overload.body
      ⟨o, v.asArray.getD [v], .null⟩ s') : BindsCall s b o names members name below s' (.ok v)
  /-- None takes the arguments. -/
  | unmatched {v : HostValue} (hmethod : overloadsNamed (members o.type) name ≠ [])
    (hnone : ∀ q ∈ overloadsNamed (members o.type) name, ¬q.Takes (v.asArray.getD [v]))
    (h : Responds s b below (.error (.noMatchingOverload
      (lastTypeName (names o.type) (members o.type)) name (v.asArray.getD [v]).length)) s') :
    BindsCall s b o names members name below s' (.ok v)
  /-- There is none. -/
  | missing {v : HostValue} (hmethod : overloadsNamed (members o.type) name = [])
    (h : Responds s b below (.error (.missingMember
      (lastTypeName (names o.type) (members o.type)) name)) s') :
    BindsCall s b o names members name below s' (.ok v)
  /-- There are no arguments. -/
  | undecoded {x : Failure} (h : Responds s b below (.error x.cause) s') :
    BindsCall s b o names members name below s' (.error x)

/-! ### Requests -/

/-- A frame that neither looks at an object nor changes it does not use it. -/
lemma isBorrowed_of_cons (hf : s.frames = f :: below) (hwriting : f.isWriting o = false)
    (hreading : f.isReading o = false) : s.isBorrowed o =
      ({ s with frames := below } : Session).isBorrowed o := by
  simp [isBorrowed, isWriting, hf, hwriting, hreading]

/-- Host code that may change an object is to run. -/
lemma entersOrRefuses_change {p : Session} {taken : Bool} (htaken : taken = p.isBorrowed o)
    (hunmoved : Unmoved s p) (hframes : p.frames = below) :
    EntersOrRefuses s b o taken f below a scene (p.change b o f a scene) := by
  unfold change
  subst htaken
  split
  · next hborrowed =>
    exact .refused hborrowed ⟨⟨hunmoved.objects, hunmoved.registers⟩, rfl, hframes⟩
  · next hfree =>
    exact .enters (Bool.eq_false_iff.2 hfree)
      ⟨⟨hunmoved.objects, hunmoved.registers⟩, rfl, congrArg _ hframes⟩

namespace Goes

variable (hgo : Goes s s') (hreg : Registered s.types names members)
include hgo hreg

/-- Script reads a property. -/
lemma reads (hc : s.control = .engine b) (he : s.engine? b = some e)
    (hq : e.step.2 = .request (.get slot name)) (hentry : s.entryOf? b slot = some entry) :
    ReadsEntry s b names members name s' entry := by
  have hs' : s' = (s.asked b e.step.1 .getProperty).readProperty b slot name :=
    (hgo.eq_engineStep hc).trans (engineStep_request he hq)
  rw [readProperty, entryOf?_asked, hentry] at hs'
  cases entry with
  | object o =>
    have hd : (((s.asked b e.step.1 .getProperty).updateBridge b (·.describe o.type)).typeOf
        o).description = .ofRegistrations (names o.type) (members o.type) := hreg o.type
    have hmethod := Description.hasMethod_ofRegistrations (names o.type) (members o.type) name
    dsimp only at hs'
    rw [readObject] at hs'
    dsimp only at hs'
    rw [hd, Description.getter_ofRegistrations, Description.name_ofRegistrations] at hs'
    cases hget : lastGetter (members o.type) name with
    | some g =>
      rw [hget] at hs'
      dsimp only at hs'
      refine .getter hget ?_
      split at hs' <;> subst hs'
      · next hwriting => exact .refused hwriting ⟨⟨rfl, rfl⟩, rfl, rfl⟩
      · next hfree => exact .enters (Bool.eq_false_iff.2 hfree) ⟨⟨rfl, rfl⟩, rfl, rfl⟩
    | none =>
      by_cases hnone : overloadsNamed (members o.type) name = []
      · rw [hget] at hs'
        dsimp only at hs'
        rw [if_neg fun h => hmethod.1 h hnone] at hs'
        subst hs'
        exact .missing hget hnone ⟨⟨rfl, rfl⟩, rfl, rfl⟩
      · refine .method hget hnone (Probes.givesMethod ⟨hc, ⟨e, slot, he, hq, hentry⟩, ?_, ?_⟩ hgo)
        · rw [show (s.typeOf o).description = _ from hreg o.type,
            Description.getter_ofRegistrations, hget]
        · rw [show (s.typeOf o).description = _ from hreg o.type]
          exact hmethod.2 hnone
  | method o method =>
    dsimp only at hs'
    split at hs' <;> subst hs'
    · next hname => exact .methodName hname ⟨⟨rfl, rfl⟩, rfl, rfl⟩
    · next hname => exact .methodMissing hname ⟨⟨rfl, rfl⟩, rfl, rfl⟩
  | error x =>
    dsimp only at hs'
    split at hs'
    · next hname =>
      subst hs'
      exact .errorName hname ⟨⟨rfl, rfl⟩, rfl, rfl⟩
    · next hname =>
      split at hs' <;> subst hs'
      · next hmessage => exact .errorMessage hmessage ⟨⟨rfl, rfl⟩, rfl, rfl⟩
      · next hmessage => exact .errorMissing hname hmessage ⟨⟨rfl, rfl⟩, rfl, rfl⟩

/-- Script assigns a property. -/
lemma writes (hc : s.control = .engine b) (he : s.engine? b = some e)
    (hq : e.step.2 = .request (.set slot name r)) (hentry : s.entryOf? b slot = some entry) :
    WritesEntry s b names members name r s' entry := by
  have hs' : s' = (s.asked b e.step.1 .setProperty).writeProperty b slot name r :=
    (hgo.eq_engineStep hc).trans (engineStep_request he hq)
  rw [writeProperty, entryOf?_asked, hentry] at hs'
  cases entry with
  | object o =>
    have hd : (((s.asked b e.step.1 .setProperty).updateBridge b (·.describe o.type)).typeOf
        o).description = .ofRegistrations (names o.type) (members o.type) := hreg o.type
    dsimp only at hs'
    rw [hd, Description.setter_ofRegistrations, Description.name_ofRegistrations,
      Description.isSome_property_ofRegistrations] at hs'
    cases hset : lastSetter (members o.type) name with
    | some a =>
      rw [hset] at hs'
      subst hs'
      exact .setter hset ⟨⟨rfl, rfl⟩, rfl, rfl⟩
    | none =>
      cases hget : lastGetter (members o.type) name with
      | some g =>
        rw [hset, hget] at hs'
        subst hs'
        exact .readOnly hset hget ⟨⟨rfl, rfl⟩, rfl, rfl⟩
      | none =>
        rw [hset, hget] at hs'
        subst hs'
        exact .missing hset hget ⟨⟨rfl, rfl⟩, rfl, rfl⟩
  | method o method =>
    subst hs'
    exact .method ⟨⟨rfl, rfl⟩, rfl, rfl⟩
  | error x =>
    subst hs'
    exact .error ⟨⟨rfl, rfl⟩, rfl, rfl⟩

omit hreg in
/-- Script calls something. -/
lemma calls (hc : s.control = .engine b) (he : s.engine? b = some e)
    (hq : e.step.2 = .request (.invoke slot r)) (hentry : s.entryOf? b slot = some entry) :
    CallsEntry s b slot r s' entry := by
  have hs' : s' = (s.asked b e.step.1 .invoke).callEntry b slot r :=
    (hgo.eq_engineStep hc).trans (engineStep_request he hq)
  rw [callEntry, entryOf?_asked, hentry] at hs'
  cases entry <;> subst hs'
  case object => exact .object ⟨⟨rfl, rfl⟩, rfl, rfl⟩
  case method => exact .method ⟨⟨rfl, rfl⟩, rfl, rfl⟩
  case error => exact .error ⟨⟨rfl, rfl⟩, rfl, rfl⟩

omit hreg in
/-- A value for a setter is there, or it cannot be decoded. -/
lemma assigns (ht : s.tidy? = none) (hc : s.control = .done outcome)
    (hf : s.frames = .assignee b o a :: below) :
    ∃ t, GoesOnAs t s' ∧ SetsProperty s b o a below t outcome := by
  rw [hgo.eq_lettingGo ht (fun c => by rw [hc]; nofun) (proceed?_of_done hc hf nofun)]
  refine ⟨_, goesOnAs_lettingGo _, ?_⟩
  cases outcome with
  | error x => exact .undecoded ⟨⟨rfl, rfl⟩, rfl, rfl⟩
  | ok v => exact .decoded (entersOrRefuses_change (isBorrowed_of_cons hf rfl rfl) ⟨rfl, rfl⟩ rfl)

/-- The arguments for a method are there, or they cannot be decoded. -/
lemma binds (ht : s.tidy? = none) (hc : s.control = .done outcome)
    (hf : s.frames = .callee b o name :: below) :
    ∃ t, GoesOnAs t s' ∧ BindsCall s b o names members name below t outcome := by
  rw [hgo.eq_lettingGo ht (fun c => by rw [hc]; nofun) (proceed?_of_done hc hf nofun)]
  refine ⟨_, goesOnAs_lettingGo _, ?_⟩
  cases outcome with
  | error x => exact .undecoded ⟨⟨rfl, rfl⟩, rfl, rfl⟩
  | ok v =>
    let p : Session := ({ s with frames := below } : Session).updateBridge b (·.describe o.type)
    have hd : (p.typeOf o).description = .ofRegistrations (names o.type) (members o.type) :=
      hreg o.type
    change BindsCall s b o names members name below
      (({ s with frames := below } : Session).callMethod b o name v) _
    rw [callMethod, hd]
    rcases Description.resolve_cases (names o.type) (members o.type) name (v.asArray.getD [v]) with
      ⟨hmethod, h⟩ | ⟨⟨hmethod, hnone⟩, h⟩ | ⟨overload, hfirst, h⟩ <;> rw [h]
    · exact .missing hmethod ⟨⟨rfl, rfl⟩, rfl, rfl⟩
    · exact .unmatched hmethod hnone ⟨⟨rfl, rfl⟩, rfl, rfl⟩
    · exact .bound hfirst (entersOrRefuses_change (isBorrowed_of_cons hf rfl rfl) ⟨rfl, rfl⟩ rfl)

end Goes

/-! ### While a value is decoded -/

/-- An outcome reaches what lies beneath, which goes on with it next. -/
def IsGiven (below : List Frame) (s : Session) : Prop := Returns below s ∧ s.tidy? = none

/-- An outcome stays on its way until the frame that waits for it goes on. -/
lemma Goes.isOn_done (h : Goes s s') (hon : IsOn (.done outcome) (f :: below) s) (hf : f ≠ .pausing)
    (hr : ¬IsGiven (f :: below) s) : IsOn (.done outcome) (f :: below) s' := by
  rcases hon with ⟨hframes, hc⟩ | ⟨l, hl⟩
  · cases h.happens with
    | works hc' =>
      rw [hc] at hc'
      cases hc'
    | tidies _ ht =>
      rcases frames_tidy? ht with ⟨hframes', hcontrol'⟩ | ⟨l, hl⟩
      · exact .inl ⟨hframes'.trans hframes, hcontrol'.trans hc⟩
      · exact .inr ⟨l, by rw [hl, hc, hframes]⟩
    | proceeds _ ht => exact absurd ⟨⟨hframes, _, hc⟩, ht⟩ hr
    | turns _ hnone =>
      rw [hframes] at hnone
      obtain hnil | ⟨rest, hpausing⟩ := hnone
      · cases hnil
      · exact absurd (List.cons.inj hpausing).1 hf
  · exact (h.waits hl).elim .inr .inl

/-- What a record comes to that a session decodes, once something has been heard of the objects
that were thrown. -/
def decodesTo (s : Session) (b : Nat) (br : Bridge) (r : Record) (heard : List Heard) : Outcome :=
  (decode b br.arena s.nextLease r).result.mapError fun x => .operation (x.error heard)

/-- **The frame that waits for a value goes on with what decoding has come to**, whatever scripts
and host code do before. -/
lemma Course.given {br : Bridge} {past : List Session} (h : Course s (t :: past))
    (hs : Orderly s) (hc : s.control = .decode b r) (hb : s.bridge? b = some br)
    (ht : s.tidy? = none) (hf : s.frames = f :: below) (hpausing : f ≠ .pausing)
    (hfirst : ∀ u ∈ past, ¬IsGiven (f :: below) u) (hgiven : IsGiven (f :: below) t) :
    ∃ heard, t.control = .done (s.decodesTo b br r heard) := by
  -- Either no outcome has come back yet, or it has and nothing but letting go happens before it is
  -- given.
  have hway : (∀ u ∈ t :: past, ¬Returns (f :: below) u) ∨
      ∃ heard, IsOn (.done (s.decodesTo b br r heard)) (f :: below) t := by
    clear hgiven
    generalize heq : t :: past = course at h
    induction h generalizing t past with
    | starts =>
      cases heq
      refine .inl (List.forall_mem_singleton.2 ?_)
      rintro ⟨-, r', hr'⟩
      rw [hc] at hr'
      cases hr'
    | @goes u u' older h hgo ih =>
      cases heq
      obtain ⟨hu, holder⟩ := List.forall_mem_cons.1 hfirst
      rcases ih holder rfl with hnone | ⟨heard, hon⟩
      · by_cases hreturns : Returns (f :: below) u'
        · have hclosed := (h.goes hgo).closed hs hc hb ht (hf ▸ hnone) (hf ▸ hreturns)
          exact .inr ⟨_, .inl ⟨hreturns.1, hclosed.1⟩⟩
        · exact .inl (List.forall_mem_cons.2 ⟨hreturns, hnone⟩)
      · exact .inr ⟨heard, hgo.isOn_done hon hpausing hu⟩
  rcases hway with hnone | ⟨heard, ⟨-, hdone⟩ | ⟨l, hl⟩⟩
  · exact absurd hgiven.1 (hnone t (List.mem_cons_self ..))
  · exact ⟨heard, hdone⟩
  · have hlength := congrArg List.length (hgiven.1.1.symm.trans hl)
    simp only [List.length_append, List.length_cons] at hlength
    omega

/-! ### Member dispatch -/

/-- **Members follow the registrations.**  What comes of a use of an entry is what `ReadsEntry`,
`WritesEntry` and `CallsEntry` say, by the getter and the setter of the name that were registered
last and the overloads of the name in their order.  A setter or a method for which a value is
decoded gets what the decoding has come to, whatever happens before, and `SetsProperty` and
`BindsCall` say whether it runs. -/
theorem History.member_dispatch (h : History types setups (s :: older))
    (hmembers : Registered types names members) :
    (∀ b e s', s.control = .engine b → s.engine? b = some e → Goes s s' →
      (∀ slot name entry, e.step.2 = .request (.get slot name) →
        s.entryOf? b slot = some entry → ReadsEntry s b names members name s' entry) ∧
      (∀ slot name r entry, e.step.2 = .request (.set slot name r) →
        s.entryOf? b slot = some entry → WritesEntry s b names members name r s' entry) ∧
      ∀ slot r entry, e.step.2 = .request (.invoke slot r) →
        s.entryOf? b slot = some entry → CallsEntry s b slot r s' entry) ∧
    ∀ b r br f below t past t', s.control = .decode b r → s.bridge? b = some br →
      s.tidy? = none → s.frames = f :: below → Course s (t :: past) →
      (∀ u ∈ past, ¬IsGiven (f :: below) u) → IsGiven (f :: below) t → Goes t t' →
      (∀ o a, f = .assignee b o a → ∃ heard u, GoesOnAs u t' ∧
        SetsProperty t b o a below u (s.decodesTo b br r heard)) ∧
      ∀ o name, f = .callee b o name → ∃ heard u, GoesOnAs u t' ∧
        BindsCall t b o names members name below u (s.decodesTo b br r heard) := by
  have hreg : Registered s.types names members := by
    rwa [h.types_eq s (List.mem_cons_self ..)]
  constructor
  · intro b e s' hc he hgo
    refine ⟨?_, ?_, ?_⟩
    · intro slot name entry hq hentry
      exact hgo.reads hreg hc he hq hentry
    · intro slot name r entry hq hentry
      exact hgo.writes hreg hc he hq hentry
    · intro slot r entry hq hentry
      exact hgo.calls hc he hq hentry
  · intro b r br f below t past t' hc hb ht hf hcourse hfirst hgiven hgo
    have hregt : Registered t.types names members := by
      rwa [(hcourse.history h).types_eq t (List.mem_cons_self ..)]
    have hdone : f ≠ .pausing → ∃ heard, t.control = .done (s.decodesTo b br r heard) := fun hne =>
      hcourse.given h.orderly hc hb ht hf hne hfirst hgiven
    constructor
    · rintro o a rfl
      obtain ⟨heard, hdone⟩ := hdone nofun
      exact ⟨heard, hgo.assigns hgiven.2 hdone hgiven.1.1⟩
    · rintro o name rfl
      obtain ⟨heard, hdone⟩ := hdone nofun
      exact ⟨heard, hgo.binds hregt hgiven.2 hdone hgiven.1.1⟩

/-! ### A getter that was registered twice -/

/-- The members of a host type: a property whose getter was registered twice, a method of its name,
and a method that runs a script that reads the property. -/
def twiceMembers : List (Registration Getter Action Action) :=
  [.getter "n" ⟨.label "first", true⟩, .method "n" [] .ident, .setter "n" .sink,
    .getter "n" ⟨.label "last", true⟩, .method "visit" [] (.eval (.op (.get "n") [.var "x"]))]

/-- A host type with these members. -/
def twiceType : HostType := .described twiceMembers none

/-- What has been registered where this is the first host type and nothing is described of any
other. -/
lemma registered_twice : Registered [twiceType]
    (fun type => if type < HostType.describable then "Dyn" else "Plain")
    (fun type => if type = 0 then twiceMembers else [])
  | 0 => rfl
  | 1 => rfl
  | 2 => rfl
  | _ + 3 => rfl

/-- A program in which script uses an object of that type. -/
def twice (script : Expr) : List Session :=
  follow 100 (tell 0 (.evaluate script)
    (obey 40 0 (.setVariable "x" (.fresh 0 "x" [])) none (made [twiceType] [{}])))

/-- The object of which script is about to read a property. -/
def readNext? (s : Session) (name : String) : Option HostObject :=
  match s.control with
  | .engine b => (s.engine? b).bind fun e =>
    match e.step.2 with
    | .request (.get slot n) =>
      if n = name then (s.entryOf? b slot).bind fun
        | .object o => some o
        | _ => none
      else none
    | _ => none
  | _ => none

lemma readNext?_eq_some (h : s.readNext? name = some o) : ∃ b e slot, s.control = .engine b ∧
    s.engine? b = some e ∧ e.step.2 = .request (.get slot name) ∧
      s.entryOf? b slot = some (.object o) := by
  unfold readNext? at h
  split at h
  · next b hc =>
    obtain ⟨e, he, hread⟩ := Option.bind_eq_some_iff.1 h
    split at hread
    · next slot n hq =>
      split at hread
      · next hname =>
        subst hname
        obtain ⟨entry, hentry, ho⟩ := Option.bind_eq_some_iff.1 hread
        cases entry <;> cases ho
        exact ⟨b, e, slot, hc, he, hq, hentry⟩
      · cases hread
    · cases hread
  · cases h

/-- Script reads the property of the object at some time. -/
lemma exists_reading (script : Expr) (writing : Bool)
    (hany : (twice script).any (fun s => (s.readNext? "n").any fun o =>
      o.type == 0 && s.isWriting o == writing) = true) :
    ∃ s older b e slot o, History [twiceType] [{}] (s :: older) ∧ s.control = .engine b ∧
      s.engine? b = some e ∧ e.step.2 = .request (.get slot "n") ∧
      s.entryOf? b slot = some (.object o) ∧ o.type = 0 ∧ s.isWriting o = writing ∧
      Goes s (s.engineStep b) := by
  have h : History [twiceType] [{}] (twice script) :=
    (((history_made (by decide +kernel)).obey ..).tell ..).follow _
  generalize twice script = hist at hany h
  obtain ⟨s, hs, hread⟩ := List.any_eq_true.1 hany
  obtain ⟨newer, older, rfl⟩ := List.append_of_mem hs
  obtain ⟨o, ho, hp⟩ := (Option.any_eq_true _ _).1 hread
  obtain ⟨b, e, slot, hc, he, hq, hentry⟩ := readNext?_eq_some ho
  rw [Bool.and_eq_true, beq_iff_eq, beq_iff_eq] at hp
  exact ⟨s, older, b, e, slot, o, h.earlier, hc, he, hq, hentry, hp.1, hp.2,
    .steps (by rw [step?, hc])⟩

/-- The getter that was registered last runs, though there is an earlier one and a method of the
name. -/
theorem member_dispatch_twice : ∃ s older s' o, History [twiceType] [{}] (s :: older) ∧
    Goes s s' ∧ s'.control = .act (.label "last") ⟨o, [], .null⟩ := by
  obtain ⟨s, older, b, e, slot, o, h, hc, he, hq, ho, htype, hfree, hgo⟩ :=
    exists_reading (.op (.get "n") [.var "x"]) false (by decide +kernel)
  refine ⟨s, older, _, o, h, hgo, ?_⟩
  have hread := ((h.member_dispatch registered_twice).1 b e _ hc he hgo).1 slot "n" _ hq ho
  generalize s.engineStep b = s' at hread ⊢
  have hlast : lastGetter twiceMembers "n" = some ⟨.label "last", true⟩ := rfl
  cases hread with
  | getter hget htries =>
    rw [htype, if_pos rfl, hlast] at hget
    cases hget
    cases htries with
    | enters _ hacts => exact hacts.control
    | refused htaken =>
      rw [hfree] at htaken
      cases htaken
  | method hget | missing hget =>
    rw [htype, if_pos rfl, hlast] at hget
    cases hget

/-- While a method of the object runs, the getter does not. -/
theorem getter_shut_out : ∃ s older s' b e slot o, History [twiceType] [{}] (s :: older) ∧
    s.control = .engine b ∧ s.engine? b = some e ∧ e.step.2 = .request (.get slot "n") ∧
    s.entryOf? b slot = some (.object o) ∧
    (s.typeOf o).description = .ofRegistrations "Dyn" twiceMembers ∧
    lastGetter twiceMembers "n" = some ⟨.label "last", true⟩ ∧ Goes s s' ∧
    s'.control = .respond b (.error (.reentrant o.typeName)) ∧
    ∀ scene, s'.control ≠ .act (.label "last") scene := by
  obtain ⟨s, older, b, e, slot, o, h, hc, he, hq, ho, htype, hwriting, hgo⟩ :=
    exists_reading (.callMember (.var "x") "visit" []) true (by decide +kernel)
  have hread := hgo.reads (h.types_eq s (List.mem_cons_self ..) ▸ registered_twice) hc he hq ho
  refine ⟨s, older, _, b, e, slot, o, h, hc, he, hq, ho, ?_, rfl, hgo, ?_⟩
  · rw [typeOf, h.types_eq s (List.mem_cons_self ..), htype]
    rfl
  · generalize s.engineStep b = s' at hread ⊢
    cases hread with
    | getter hget htries =>
      cases htries with
      | enters hfree =>
        rw [hwriting] at hfree
        cases hfree
      | refused _ hresponds =>
        rw [hresponds.control]
        exact ⟨rfl, (by simp)⟩
    | method hget | missing hget =>
      rw [htype, if_pos rfl] at hget
      cases hget

end ScriptBridge.Session
