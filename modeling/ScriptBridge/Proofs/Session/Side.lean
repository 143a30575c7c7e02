/-
# One bridge of a session

What of a session matters to the slots of one bridge are its engine, its arena, the slots
that are to be given up, and what everything that is still to be done means for it.  The
steps of all other bridges, and those of host code, only come and go on top.
-/
import ScriptBridge.Proofs.Session.Kept

namespace ScriptBridge

open ScriptBridge.Bridge ScriptBridge.Host ScriptBridge.Table ScriptBridge.Wire

namespace Session

variable {s s' : Session} {b c : Nat}

/-- What of a session matters to a bridge, as long as its engine is there. -/
structure Side where
  /-- The engine. -/
  engine : Engine
  /-- The entries that script refers to. -/
  arena : Arena Entry
  /-- The slots that are given up when the call that is running has ended. -/
  deferred : List Slot
  /-- What is still to be done means this for the bridge, what is done next first. -/
  trail : List Mark

/-- What everything that is still to be done means for a bridge. -/
def trail (s : Session) (b : Nat) : List Mark := s.control.mark b :: s.frames.map (Frame.mark b)

/-- What of a session matters to a bridge, unless the bridge has been disposed. -/
def side? (s : Session) (b : Nat) : Option Side :=
  (s.core? b).bind fun k => k.engine.map fun e => ⟨e, k.arena, k.deferred, s.trail b⟩

/-- Some marks mean nothing. -/
def Blank (marks : List Mark) : Prop := ∀ m ∈ marks, m = .other

/-- What a reply of an engine that is waited for means. -/
def Purpose.mark (r : Record) : Purpose → Mark
  | .value => .decode r
  | .nothing => .other
  | .member h name tasks heard result =>
    .perform (r.handles.map .release ++ tasks) (heard ++ [⟨h, name, textOf? r⟩]) result

/-- Nothing like this is ever still to be done for a bridge that is there. -/
inductive Astray : List Mark → Prop
  /-- The bridge has been torn down. -/
  | torn {T : List Mark} : Astray (.teardown :: T)
  /-- Something waits for an engine that is not at work. -/
  | forlorn {p : Purpose} {T : List Mark} : Astray (.other :: .running p :: T)
  /-- Nothing waits for an engine at work. -/
  | unheard {T : List Mark} (h : ∀ p rest, T ≠ .running p :: rest) : Astray (.engine :: T)

/-- What a step means for a bridge whose engine is there afterwards, given the foreign objects
that are kept before it and after it. -/
inductive Moves (k k' : List ForeignObject) : Side → Side → Prop
  /-- Something else is done. -/
  | plain {e : Engine} {a : Arena Entry} {q : List Slot} {os os' T : List Mark} (hos : Blank os)
    (hos' : Blank os') (hT : os = [] → T.head? ≠ some .engine) (hk : Within k' k) :
    Moves k k' ⟨e, a, q, os ++ T⟩ ⟨e, a, q, os' ++ T⟩
  /-- An operation starts. -/
  | opens {e : Engine} {a a' : Arena Entry} {q : List Slot} {os T : List Mark}
    {w : Engine.Operation} {p : Purpose} (hm : a.Mints a' (Engine.Control.begin w).inbound)
    (hos : Blank os) (hw : (Engine.Control.begin w).holding = [])
    (hp : p = .value ∨ p = .nothing) (hk : Within k' k) :
    Moves k k' ⟨e, a, q, .other :: T⟩
      ⟨e.enter w, a', q, .engine :: .running p :: .scope :: (os ++ T)⟩
  /-- An operation fails since a value cannot be sent. -/
  | balks {e : Engine} {a a' : Arena Entry} {q : List Slot} {os T : List Mark}
    (hm : a.Mints a' []) (hos : Blank os) (hk : Within k' k) :
    Moves k k' ⟨e, a, q, .other :: T⟩ ⟨e, a', q, .other :: .scope :: (os ++ T)⟩
  /-- A lease is given back. -/
  | releases {e : Engine} {a : Arena Entry} {q : List Slot} {m : Mark} {T : List Mark}
    (f : ForeignObject) (hm : m ≠ .engine) (hk : Within (f :: k') k) :
    Moves k k' ⟨e, a, q, m :: T⟩
      ⟨e.enter (.release f.handle), a, q, .engine :: .running .nothing :: m :: T⟩
  /-- A handle in a record is given up. -/
  | gives {e : Engine} {a : Arena Entry} {q : List Slot} {h : Handle} {tasks : List Task}
    {heard : List Heard} {result : Except Fault HostValue} {T : List Mark} (hk : Within k' k) :
    Moves k k' ⟨e, a, q, .perform (.release h :: tasks) heard result :: T⟩
      ⟨e.enter (.release h), a, q,
        .engine :: .running .nothing :: .perform tasks heard result :: T⟩
  /-- A member of a thrown object is read. -/
  | reads {e : Engine} {a : Arena Entry} {q : List Slot} {h : Handle} {name : String}
    {tasks : List Task} {heard : List Heard} {result : Except Fault HostValue} {T : List Mark}
    (hk : Within k' k) :
    Moves k k' ⟨e, a, q, .perform (.read h name :: tasks) heard result :: T⟩
      ⟨e.enter (.getMember h name), a, q,
        .engine :: .running (.member h name tasks heard result) :: T⟩
  /-- All has been done for a record. -/
  | performed {e : Engine} {a : Arena Entry} {q : List Slot} {heard : List Heard}
    {result : Except Fault HostValue} {T : List Mark} (hk : Within k' k) :
    Moves k k' ⟨e, a, q, .perform [] heard result :: T⟩ ⟨e, a, q, .other :: T⟩
  /-- A record is decoded. -/
  | decodes {e : Engine} {a : Arena Entry} {q : List Slot} {r : Record} {tasks : List Task}
    {result : Except Fault HostValue} {T : List Mark} (hp : ∀ h, (tasks.flatMap Task.released ++
      (foreignsOfResult result).map (·.handle)).count h ≤ r.handles.count h)
    (hk : Within k' (foreignsOfResult result ++ k)) :
    Moves k k' ⟨e, a, q, .decode r :: T⟩ ⟨e, a, q, .perform tasks [] result :: T⟩
  /-- The engine works on. -/
  | works {e : Engine} {a : Arena Entry} {q : List Slot} {T : List Mark}
    (he : e.step.2 = .silent) (hk : Within k' k) :
    Moves k k' ⟨e, a, q, .engine :: T⟩ ⟨e.step.1, a, q, .engine :: T⟩
  /-- A slot that script let go of is kept until the operation has ended. -/
  | defers {e : Engine} {a : Arena Entry} {q : List Slot} {slot : Slot} {T : List Mark}
    (he : e.step.2 = .removed slot) (hi : .scope ∈ T) (hk : Within k' k) :
    Moves k k' ⟨e, a, q, .engine :: T⟩ ⟨e.step.1, a, q ++ [slot], .engine :: T⟩
  /-- A slot that script let go of is given up. -/
  | unpins {e : Engine} {a a' : Arena Entry} {q : List Slot} {slot : Slot} {entry : Entry}
    {T : List Mark} (he : e.step.2 = .removed slot) (hi : .scope ∉ T)
    (ht : a.take slot = some (entry, a')) (hk : Within k' k) :
    Moves k k' ⟨e, a, q, .engine :: T⟩ ⟨e.step.1, a', q, .other :: .engine :: T⟩
  /-- A slot that script let go of was vacant. -/
  | misses {e : Engine} {a : Arena Entry} {q : List Slot} {slot : Slot} {T : List Mark}
    (he : e.step.2 = .removed slot) (hi : .scope ∉ T) (ht : a.take slot = none)
    (hk : Within k' k) :
    Moves k k' ⟨e, a, q, .engine :: T⟩ ⟨e.step.1, a, q, .engine :: T⟩
  /-- A request is answered without host code. -/
  | refuses {e : Engine} {a : Arena Entry} {q : List Slot} {req : Engine.Request}
    {r : Except HostError HostValue} {T : List Mark} (he : e.step.2 = .request req)
    (hk : Within k' k) :
    Moves k k' ⟨e, a, q, .engine :: T⟩ ⟨e.step.1, a, q, .respond r :: T⟩
  /-- A getter is called for a request. -/
  | calls {e : Engine} {a : Arena Entry} {q : List Slot} {req : Engine.Request} {T : List Mark}
    (he : e.step.2 = .request req) (hk : Within k' k) :
    Moves k k' ⟨e, a, q, .engine :: T⟩ ⟨e.step.1, a, q, .other :: .serving :: T⟩
  /-- The value of a request is decoded. -/
  | takes {e : Engine} {a : Arena Entry} {q : List Slot} {req : Engine.Request} {r : Record}
    {T : List Mark} (he : e.step.2 = .request req) (hr : r.slots = req.outbound)
    (hh : r.handles = req.holding) (hk : Within k' k) :
    Moves k k' ⟨e, a, q, .engine :: T⟩ ⟨e.step.1, a, q, .decode r :: .serving :: T⟩
  /-- A request is answered with a new slot. -/
  | pins {e : Engine} {a a' : Arena Entry} {q : List Slot} {req : Engine.Request}
    {r : Except HostError Record} {T : List Mark} (he : e.step.2 = .request req)
    (hm : a.Mints a' (slotsOfResult r)) (hk : Within k' k) :
    Moves k k' ⟨e, a, q, .engine :: T⟩ ⟨e.step.1, a', q, .answer r :: T⟩
  /-- The reply of the engine is taken. -/
  | finishes {e : Engine} {a : Arena Entry} {q : List Slot} {r : Record} {p : Purpose}
    {T : List Mark} (he : e.step.2 = .finished r) (hk : Within k' k) :
    Moves k k' ⟨e, a, q, .engine :: .running p :: T⟩ ⟨e.step.1, a, q, p.mark r :: T⟩
  /-- Host code has ended a callback. -/
  | replies {e : Engine} {a : Arena Entry} {q : List Slot} {r : Except HostError HostValue}
    {T : List Mark} (hk : Within k' k) :
    Moves k k' ⟨e, a, q, .other :: .serving :: T⟩ ⟨e, a, q, .respond r :: T⟩
  /-- An operation within another one is left. -/
  | leaves {e : Engine} {a : Arena Entry} {q : List Slot} {T : List Mark} (hi : .scope ∈ T)
    (hk : Within k' k) :
    Moves k k' ⟨e, a, q, .other :: .scope :: T⟩ ⟨e, a, q, .other :: T⟩
  /-- The outermost operation is left. -/
  | leavesLast {e : Engine} {a : Arena Entry} {q : List Slot} {T : List Mark} (hi : .scope ∉ T)
    (hk : Within k' k) :
    Moves k k' ⟨e, a, q, .other :: .scope :: T⟩ ⟨e, a, q, .drain [] :: .other :: T⟩
  /-- The outcome of a callback becomes a record. -/
  | responds {e : Engine} {a a' : Arena Entry} {q : List Slot} {v : HostValue}
    {r : Except HostError Record} {T : List Mark} (hm : a.Mints a' (slotsOfResult r))
    (hk : Within k' k) :
    Moves k k' ⟨e, a, q, .respond (.ok v) :: T⟩ ⟨e, a', q, .answer r :: T⟩
  /-- The failure of a callback is passed on. -/
  | fails {e : Engine} {a : Arena Entry} {q : List Slot} {err : HostError} {T : List Mark}
    (hk : Within k' k) :
    Moves k k' ⟨e, a, q, .respond (.error err) :: T⟩ ⟨e, a, q, .answer (.error err) :: T⟩
  /-- A callback is answered. -/
  | answers {e : Engine} {a a' : Arena Entry} {q : List Slot} {res : Except HostError Record}
    {r : Record} {T : List Mark}
    (hr : res = .ok r ∧ a' = a ∨ (∃ err, res = .error err) ∧ a.Mints a' r.slots)
    (hk : Within k' k) :
    Moves k k' ⟨e, a, q, .answer res :: T⟩ ⟨e.answer r, a', q, .engine :: T⟩
  /-- A slot is given up. -/
  | drains {e : Engine} {a a' : Arena Entry} {q : List Slot} {slot : Slot} {slots : List Slot}
    {entry : Entry} {T : List Mark} (ht : a.take slot = some (entry, a')) (hk : Within k' k) :
    Moves k k' ⟨e, a, q, .drain (slot :: slots) :: T⟩
      ⟨e, a', q, .other :: .drain slots :: T⟩
  /-- A slot that is to be given up was vacant. -/
  | passes {e : Engine} {a : Arena Entry} {q : List Slot} {slot : Slot} {slots : List Slot}
    {T : List Mark} (ht : a.take slot = none) (hk : Within k' k) :
    Moves k k' ⟨e, a, q, .drain (slot :: slots) :: T⟩ ⟨e, a, q, .drain slots :: T⟩
  /-- The slots that were deferred meanwhile are to be given up. -/
  | refills {e : Engine} {a : Arena Entry} {q : List Slot} {T : List Mark} (hk : Within k' k) :
    Moves k k' ⟨e, a, q, .drain [] :: T⟩ ⟨e, a, [], .drain q :: T⟩
  /-- All slots have been given up. -/
  | dries {e : Engine} {a : Arena Entry} {T : List Mark} (hk : Within k' k) :
    Moves k k' ⟨e, a, [], .drain [] :: T⟩ ⟨e, a, [], .other :: T⟩
  /-- What cannot be. -/
  | strays {x y : Side} (h : Astray x.trail) : Moves k k' x y

/-! ### Sides of a session -/

lemma side?_eq_some {x : Side} : s.side? b = some x ↔
    s.core? b = some ⟨some x.engine, x.arena, x.deferred⟩ ∧ s.trail b = x.trail := by
  obtain ⟨e, a, q, T⟩ := x
  simp only [side?, Option.bind_eq_some_iff, Option.map_eq_some_iff]
  constructor
  · rintro ⟨⟨o, a', q'⟩, hb, e', he, heq⟩
    cases he
    cases heq
    exact ⟨hb, rfl⟩
  · rintro ⟨hb, rfl⟩
    exact ⟨_, hb, e, rfl, rfl⟩

lemma side?_of_core? {e : Engine} {a : Arena Entry} {q : List Slot}
    (hb : s.core? b = some ⟨some e, a, q⟩) : s.side? b = some ⟨e, a, q, s.trail b⟩ :=
  side?_eq_some.2 ⟨hb, rfl⟩

lemma engine?_of_side? {x : Side} (hx : s.side? b = some x) : s.engine? b = some x.engine :=
  engine?_of_core? (side?_eq_some.1 hx).1

lemma side?_isSome_of_engine? {e : Engine} (he : s.engine? b = some e) :
    ∃ x, s.side? b = some x ∧ x.engine = e := by
  obtain ⟨a, q, hb⟩ := core?_of_engine? he
  exact ⟨_, side?_of_core? hb, rfl⟩

lemma trail_eq {ctl : Control} {fs : List Frame} (hc : s.control = ctl) (hs : s.frames = fs)
    (b : Nat) : s.trail b = ctl.mark b :: fs.map (Frame.mark b) := by
  rw [trail, hc, hs]

/-- A bridge is inside an operation exactly if its scope is among what is still to be done. -/
lemma any_isScope (fs : List Frame) (b : Nat) :
    fs.any (Frame.isScope b) = true ↔ .scope ∈ fs.map (Frame.mark b) := by
  rw [List.any_eq_true, List.mem_map]
  refine exists_congr fun f => and_congr_right fun _ => ?_
  cases f with
  | interrupted ctl =>
    refine iff_of_false Bool.false_ne_true ?_
    cases ctl <;> simp only [Frame.mark, Control.mark] <;> first | simp | (split <;> simp)
  | scope c => simp [Frame.isScope, Frame.mark]
  | running c p => simp only [Frame.isScope, Frame.mark]; split <;> simp
  | getting c o fallible => simp only [Frame.isScope, Frame.mark]; split <;> simp
  | assignee c o setter => simp only [Frame.isScope, Frame.mark]; split <;> simp
  | setting c o v => simp only [Frame.isScope, Frame.mark]; split <;> simp
  | callee c o name => simp only [Frame.isScope, Frame.mark]; split <;> simp
  | calling c o args => simp only [Frame.isScope, Frame.mark]; split <;> simp
  | _ => simp [Frame.isScope, Frame.mark, Frame.isCallback]

end Session

end ScriptBridge
