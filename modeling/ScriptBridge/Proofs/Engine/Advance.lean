/-
# What a step of an engine can do

A step that neither reports a slot nor lets an object go is work of script, or one of a
few things that move a record, a slot or a handle between script and host.  They are
listed here once, so that whatever holds of the steps of an engine is shown by going
through the list.
-/
import ScriptBridge.Proofs.Engine.Returns

namespace ScriptBridge

open ScriptBridge.Number ScriptBridge.Script ScriptBridge.Table ScriptBridge.Text ScriptBridge.Wire

namespace Engine

/-- The slots that come along with what is about to be done, on their way into script. -/
def Control.inbound : Control → List Slot
  | .begin (.setGlobal _ r) | .begin (.setMember _ _ r) | .begin (.invokeMember _ _ r)
  | .reply r | .convert r => r.slots
  | _ => []

/-- The slots that a frame keeps on their way into script. -/
def Frame.inbound : Frame → List Slot
  | .items _ _ rest | .placed _ _ rest => Record.slotsOfItems rest
  | .entry c => c.inbound
  | _ => []

/-- Whether a frame is where an engine was entered. -/
def Frame.isEntry : Frame → Bool
  | .entry _ => true
  | _ => false

/-- What is about to be done goes with the frames there are, and so does each frame. -/
structure Shaped (e : Engine) : Prop where
  fits : e.control.Fits e.stack
  settled : Settled e.stack

/-- The frame that takes the value of an operation which brings one, and the record of it. -/
inductive Brings : Operation → Frame → Record → Prop
  | global (name : String) (r : Record) : Brings (.setGlobal name r) (.assignGlobal name) r
  | member (target : Handle) (name : String) (r : Record) :
    Brings (.setMember target name r) (.assignMember target name) r
  | arguments (target : Handle) (name : String) (r : Record) :
    Brings (.invokeMember target name r) (.spread target name) r

/-- An object is on its way to the host. -/
def Exports (e : Engine) (r : Ref) : Prop :=
  (∃ depth, e.control = .encode (.object r) depth) ∨ e.control = .throw (.object r) ∨
    ∃ rest, e.stack = .pending (.dateParent r) :: rest

/-- What a step that goes on with an operation can do. -/
inductive Advance (P : Prop) (e : Engine) : Engine → Event → Prop
  /-- Nothing is to be done. -/
  | idle (hc : e.control = .idle) : Advance P e e .silent
  /-- No frame is left. -/
  | stops (hs : e.stack = []) (hc : e.control.isInner = true) :
    Advance P e (e.goto .idle) .silent
  /-- Script works on. -/
  | works {e' : Engine} (hc : e.control.inbound = []) (h : ScriptWork P e e') :
    Advance P e e' .silent
  /-- Script works on without the frame on top. -/
  | pops {f : Frame} {rest : List Frame} {e' : Engine} (hs : e.stack = f :: rest)
    (hf : f.inbound = []) (hentry : f.isEntry = false) (hc : e.control.inbound = [])
    (h : ScriptWork P { e with stack := rest } e')
    (hu : e'.control.Speaks False ∨ e'.control = e.control) :
    Advance P e e' .silent
  /-- An element that was read becomes a record. -/
  | element {array : Ref} {depth length index : Nat} {done : List Record} {rest : List Frame}
    {v : Value} (hs : e.stack = .elements array depth length index done :: rest)
    (hc : e.control = .ret v) (hv : e.Shown P v.refs) :
    Advance P e (e.goto (.encode v (depth + 1))) .silent
  /-- The first element of an array is read. -/
  | startsArray {r : Ref} {depth length : Nat} (hc : e.control = .encode (.object r) depth)
    (hr : e.heap.Shows P r) :
    Advance P e (e.nextElement r depth length 0 []) .silent
  /-- The next element of an array is read. -/
  | nextElement {array : Ref} {depth length index : Nat} {done : List Record}
    {rest : List Frame} {r : Record}
    (hs : e.stack = .elements array depth length index done :: rest)
    (hc : e.control = .encoded r) (ha : e.heap.Shows P array) :
    Advance P e
      ({ e with stack := rest }.nextElement array depth length (index + 1) (r :: done)) .silent
  /-- What stands for a host entry goes to the host by its slot. -/
  | names {r : Ref} {slot : Slot} {record : Record}
    (hc : (∃ depth, e.control = .encode (.object r) depth) ∧ record = .managed slot ∨
      e.control = .throw (.object r) ∧ record = .managedError slot)
    (hs : AwaitsRecord e.stack) (ho : (e.heap.get? r).bind (·.entry) = some slot) :
    Advance P e (e.goto (.encoded record)) .silent
  /-- Another object goes to the host by a new handle. -/
  | pins {b : Engine} {r : Ref} {handle : Handle} {handles : Handles Ref} {record : Record}
    (hb : b = e ∨ ∃ f rest, e.stack = f :: rest ∧ f.inbound = [] ∧ f.isEntry = false ∧
      b = { e with stack := rest })
    (hc : e.control.inbound = []) (hs : AwaitsRecord b.stack) (hr : e.heap.Shows P r)
    (hi : e.handles.insert r = some (handle, handles))
    (hrecord : record = .foreign handle ∨ record = .foreignError handle) (ho : e.Exports r) :
    Advance P e { b with handles := handles, control := .encoded record } .silent
  /-- A write or a call goes to the host. -/
  | sends {call : Engine.Call} {result : Option Value} {held : List Value} {rest : List Frame}
    {r : Record} (hs : e.stack = .sending call result held :: rest)
    (hc : e.control = .encoded r) :
    Advance P e { e with stack := .awaiting result held :: rest, control := .idle }
      (.request (call.request r))
  /-- A read goes to the host. -/
  | asks {r : Request} (hc : e.control = .ask r) : Advance P e (e.goto .idle) (.request r)
  /-- An operation ends. -/
  | finishes {c : Control} {rest : List Frame} {r : Record} (hs : e.stack = .entry c :: rest)
    (hc : e.control = .encoded r) :
    Advance P e { e with stack := rest, control := c } (.finished r)
  /-- The answer of the host is taken. -/
  | replies {result : Option Value} {held : List Value} {rest : List Frame} {r : Record}
    (hs : e.stack = .awaiting result held :: rest) (hc : e.control = .reply r) :
    Advance P e
      { e with stack := .accepting r.isError result held :: rest, control := .convert r } .silent
  /-- The elements after one that failed come back. -/
  | fails {f : Frame} {array : Ref} {index : Nat} {items : List Record} {rest : List Frame}
    {v : Value} (hs : e.stack = f :: rest)
    (hf : f = .items array index items ∨ f = .placed array index items)
    (hc : e.control = .throw v) :
    Advance P e
      { e with stack := rest, released := e.released ++ Record.slotsOfItems items } .silent
  /-- A record becomes a value at once. -/
  | takes {r : Record} (hc : e.control = .convert r) :
    Advance P e (withValue (e.convert r) give) .silent
  /-- The elements of a record become values one by one. -/
  | startsItems {items : List Record} (hc : e.control = .convert (.array items)) :
    Advance P e ((e.allocArray []).2.nextItem e.heap.next 0 items) .silent
  /-- A stand-in is begun. -/
  | startsStandIn {r : Record} {slot : Slot} (hc : e.control = .convert r)
    (hr : r.slots = [slot]) : Advance P e (e.startStandIn slot) .silent
  /-- An element is entered in its array. -/
  | places {array : Ref} {index : Nat} {items : List Record} {rest : List Frame} {v : Value}
    (hs : e.stack = .items array index items :: rest) (hc : e.control = .ret v)
    (hv : e.Shown P v.refs) :
    Advance P e
      { e with
        stack := .placed array index items :: rest
        control := .write (.object array) (.index index) v } .silent
  /-- The next element of a record is to become a value. -/
  | nextItem {array : Ref} {index : Nat} {items : List Record} {rest : List Frame} {v : Value}
    (hs : e.stack = .placed array index items :: rest) (hc : e.control = .ret v) :
    Advance P e ({ e with stack := rest }.nextItem array (index + 1) items) .silent
  /-- The class of a stand-in has been found. -/
  | takesClass {slot : Slot} {token : Ref} {rest : List Frame} {v : Value}
    (hs : e.stack = .pending (.standInClass slot token) :: rest) (hc : e.control = .ret v) :
    Advance P e ({ e with stack := rest }.takeStandInClass slot token v) .silent
  /-- An object is to stand for a host entry. -/
  | enters {slot : Slot} {rest : List Frame} {v : Value}
    (hs : e.stack = .pending (.entered slot) :: rest) (hc : e.control = .ret v) :
    Advance P e ({ e with stack := rest }.enterStandIn slot v) .silent
  /-- An operation that brings a value starts. -/
  | begins {op : Operation} {f : Frame} {r : Record} (hc : e.control = .begin op)
    (hb : Brings op f r) : Advance P e ((e.push f).goto (.convert r)) .silent
  /-- A handle is given up. -/
  | releases {handle : Handle} {r : Ref} {handles : Handles Ref}
    (hc : e.control = .begin (.release handle))
    (hr : e.handles.remove handle = some (r, handles)) :
    Advance P e { e with handles := handles, control := .encoded .null } .silent
  /-- All that cannot be reached is forgotten. -/
  | collects (hc : e.control = .begin .collect) :
    Advance P e (e.sweep.goto (.encoded .null)) .silent

variable {P : Prop} {e : Engine}

/-! ### Records on their way out -/

lemma advance_encodeInstance {base : Engine} {r : Ref}
    (hbase : base = e ∨ ∃ f rest, e.stack = f :: rest ∧ f.inbound = [] ∧ f.isEntry = false ∧
      base = { e with stack := rest })
    (hg : e.heap.Guarded P) (hc : e.control.inbound = []) (hs : AwaitsRecord base.stack)
    (hr : e.heap.Shows P r) (ho : e.Exports r) (isDate : Bool) :
    Advance P e (base.encodeInstance r isDate) .silent := by
  have hworks : ∀ e', ScriptWork P base e' → e'.control.Speaks False → Advance P e e' .silent := by
    intro e' h hu
    rcases hbase with rfl | ⟨f, rest, hstack, hf, hentry, rfl⟩
    · exact .works hc h
    · exact .pops hstack hf hentry hc h (.inl hu)
  have hheap : base.heap = e.heap := by rcases hbase with rfl | ⟨f, rest, -, -, -, rfl⟩ <;> rfl
  have hhandles : base.handles = e.handles := by
    rcases hbase with rfl | ⟨f, rest, -, -, -, rfl⟩ <;> rfl
  have hgrown : Grown P base base := .refl (hheap ▸ hg)
  have hshown : base.Shown P [r] := shown_cons.2 ⟨hheap ▸ hr, shown_nil P base⟩
  unfold Engine.encodeInstance
  split
  · exact hworks _ ((hgrown.pushOn (f := .timeMember (.object r)) rfl hshown hs).works rfl hshown)
      trivial
  · split
    · next handle e' hpin =>
      unfold Engine.pin at hpin
      rw [Option.map_eq_some_iff] at hpin
      obtain ⟨⟨h, handles⟩, hi, he⟩ := hpin
      cases he
      exact .pins (b := base) hbase hc hs hr (hhandles ▸ hi) (.inl rfl) ho
    · have hfull : (Record.unknownError (some "foreign handle table is full")).Speaks False :=
        Record.speaks_unknownError nofun
      exact hworks _ (hgrown.giveRecordOf (Record.isBare_unknownError _) hfull hs) hfull

lemma advance_encodeStep {v : Value} {depth : Nat} (hc : e.control = .encode v depth)
    (hs : AwaitsRecord e.stack) (hg : e.heap.Guarded P) (hv : e.Shown P v.refs) :
    Advance P e (e.encodeStep v depth) .silent := by
  have hin : e.control.inbound = [] := by rw [hc]; rfl
  have hgrown : Grown P e e := .refl hg
  have hplain : ∀ {r : Record}, r.IsBare → r.Speaks False →
      Advance P e (e.goto (.encoded r)) .silent := fun hr hspeaks =>
    .works hin (hgrown.giveRecordOf hr hspeaks hs)
  have hcannot : ∀ kind, "cannot pass a script " ++ kind ++ " to the host" = "" → False :=
    fun kind h => absurd (String.append_eq_empty_iff.1 h).2 (by decide)
  unfold Engine.encodeStep
  split
  · exact hplain Record.isBare_null Record.speaks_null
  · exact hplain Record.isBare_null Record.speaks_null
  · exact hplain (Record.isBare_boolean _) (Record.speaks_boolean _)
  · exact hplain (Record.isBare_integer _) (Record.speaks_integer _)
  · exact hplain (Record.isBare_number _) (Record.speaks_number _)
  · split
    · exact hplain (Record.isBare_string _) (Record.speaks_string _)
    · exact .works hin (hgrown.refuse (surrogateText_ne_empty _) hs)
  · exact hplain (Record.isBare_unknownError _) (Record.speaks_unknownError (hcannot _))
  · exact hplain (Record.isBare_unknownError _) (Record.speaks_unknownError (hcannot _))
  · next r =>
    have hr := (shown_cons.1 hv).1
    unfold Engine.encodeObject
    split
    · next slot hslot => exact .names (.inl ⟨⟨depth, hc⟩, rfl⟩) hs hslot
    · split
      · exact hplain (Record.isBare_unknownError _) (Record.speaks_unknownError nofun)
      · split
        · exact hplain (Record.isBare_unknownError _) (Record.speaks_unknownError nofun)
        · split
          · exact hplain (Record.isBare_nulls _) (Record.speaks_nulls _)
          · exact .startsArray hc hr
    · split
      · exact advance_encodeInstance (.inl rfl) hg hin hs hr (.inl ⟨depth, hc⟩) _
      · exact .works hin ((hgrown.pushOn (f := .pending (.dateClass r)) rfl hv hs).works rfl
          hgrown.shown_global)

/-! ### Exceptions -/

lemma advance_settleError {v : Value} (hc : e.control = .throw v) (hs : AwaitsRecord e.stack)
    (hg : e.heap.Guarded P) (hv : e.Shown P v.refs) :
    Advance P e (e.settleError v) .silent := by
  have hin : e.control.inbound = [] := by rw [hc]; rfl
  have hplain : Advance P e (e.goto (.encoded (.unknownError (some (thrownText v))))) .silent :=
    .works hin (.inner ((Grown.refl hg).goto _) (Record.isBare_unknownError _) hs (shown_nil P e)
      (.inr (.inr ⟨_, ⟨hs, .inr ⟨v, hc, rfl⟩⟩, rfl⟩)))
  unfold Engine.settleError
  split
  · next r =>
    split
    · next slot hslot => exact .names (.inr ⟨hc, rfl⟩) hs hslot
    · split
      · next handle e' hpin =>
        unfold Engine.pin at hpin
        rw [Option.map_eq_some_iff] at hpin
        obtain ⟨⟨h, handles⟩, hi, he⟩ := hpin
        cases he
        exact .pins (b := e) (.inl rfl) hin hs (shown_cons.1 hv).1 hi (.inr rfl) (.inr (.inl hc))
      · exact .works hin (((Grown.refl hg).pushOn (f := .printing (.object r)) rfl hv hs).giveText
          hv none)
  · exact hplain

/-! ### Records on their way in -/

lemma Grown.newHostError {e₀ : Engine} (h : Grown P e₀ e) (message : Option String) :
    Grown P e₀ (e.newHostError message).2 := by
  refine h.allocOfKind rfl (h.shown_parent Intrinsic.errorParent_lt) (shown_nil P e)
    fun p hp => ?_
  obtain ⟨v, hv, rfl⟩ := List.mem_map.1 hp
  obtain ⟨m, -, rfl⟩ := Option.map_eq_some_iff.1 (Option.mem_toList.1 hv)
  exact shown_nil P e

lemma shown_newHostError (message : Option String) :
    (e.newHostError message).2.Shown P (e.newHostError message).1.refs :=
  shown_alloc (Object.isPlain_ofKind rfl _ _)

/-- A record without slots that owns no array becomes a value by work of script. -/
lemma scriptWork_convertShallow {r : Record} (hr : r.slots = []) (hg : e.heap.Guarded P)
    (hh : e.Shown P e.handles.values) : ScriptWork P e (withValue (e.convertShallow r) give) := by
  have hgrown : Grown P e e := .refl hg
  have hrestore : ∀ h, ScriptWork P e (withValue (e.restore h) give) := fun h =>
    hgrown.withRestored hh h fun t ht => hgrown.give (shown_cons.2 ⟨ht, shown_nil P e⟩)
  unfold Engine.convertShallow
  split
  · next v hview =>
    rw [Record.slots_of_view hview] at hr
    cases v with
    | null => exact hgrown.give (shown_nil P e)
    | boolean b => exact hgrown.give (shown_nil P e)
    | integer n => exact hgrown.give (shown_nil P e)
    | number x => exact hgrown.give (.of_refs_nil (Value.refs_ofWhole x))
    | string s => exact hgrown.give (shown_nil P e)
    | date x => exact hgrown.giveOfKind rfl Intrinsic.dateParent_lt (shown_nil P e)
    | array items => exact hgrown.giveArray (by simp)
    | managedRef slot => cases hr
    | managedError slot => cases hr
    | foreignRef handle =>
      cases handle with
      | none => exact hgrown.give (shown_nil P e)
      | some h => exact hrestore h
    | foreignError handle =>
      cases handle with
      | none => exact hgrown.give (shown_nil P e)
      | some h => exact hrestore h
    | unknownError m => exact (hgrown.newHostError _).give (shown_newHostError _)
  · exact (hgrown.newError _ _).works rfl (Grown.shown_newErrorOf _ _)

lemma advance_arriveShallow {r : Record} (hc : e.control = .convert r)
    (hr : ∀ items, r ≠ .array items) (hg : e.heap.Guarded P)
    (hh : e.Shown P e.handles.values) : Advance P e (e.arriveShallow r) .silent := by
  have hgrown : Grown P e e := .refl hg
  have hin : r.slots = [] → e.control.inbound = [] := fun hslots => by
    rw [hc]
    exact hslots
  unfold Engine.arriveShallow
  split
  · next x hview =>
    exact .works (hin (Record.slots_of_view hview)) (hgrown.instantiate _ (by simp))
  · next hview => exact .startsStandIn hc (Record.slots_of_view hview)
  · next hview => exact .startsStandIn hc (Record.slots_of_view hview)
  · next m hview =>
    have hnew := hgrown.newHostError none
    have hshown := shown_newHostError (P := P) (e := e) none
    exact .works (hin (Record.slots_of_view hview))
      ((hnew.push (f := .assigned (.object e.heap.next)) rfl hshown).works rfl
        (shown_append.2 ⟨hshown, shown_nil P _⟩))
  · next hdate href herror hunknown =>
    have hslots : r.slots = [] := by
      cases hview : r.view with
      | error err => exact Record.slots_of_view_error hview
      | ok v =>
        rw [Record.slots_of_view hview]
        cases v with
        | managedRef slot => exact absurd hview (href slot)
        | managedError slot => exact absurd hview (herror slot)
        | array items =>
          cases r with
          | plain tag bits length =>
            rw [Record.view_plain_ne_array hview]
            rfl
          | text kind bytes =>
            rcases Record.view_text_isString hview with ⟨s, h⟩ | ⟨s, h⟩ <;> cases h
          | array items => exact absurd rfl (hr items)
        | _ => rfl
    exact .works (hin hslots) (scriptWork_convertShallow hslots hg hh)

lemma advance_arriveStep {r : Record} (hc : e.control = .convert r) (hg : e.heap.Guarded P)
    (hh : e.Shown P e.handles.values) : Advance P e (e.arriveStep r) .silent := by
  unfold Engine.arriveStep
  split
  · exact .takes hc
  · split
    · exact .startsItems hc
    · next hr => exact advance_arriveShallow hc hr hg hh

/-! ### Starts of operations -/

lemma advance_beginStep {op : Operation} (hc : e.control = .begin op)
    (hf : ∃ c rest, e.stack = .entry c :: rest) (hg : e.heap.Guarded P)
    (hh : e.Shown P e.handles.values) : Advance P e (e.beginStep op) .silent := by
  have hgrown : Grown P e e := .refl hg
  have hs : AwaitsRecord e.stack := by
    obtain ⟨c, rest, hstack⟩ := hf
    rw [hstack]
    trivial
  cases op with
  | run script =>
    refine .works (by rw [hc]; rfl)
      ((hgrown.pushOn (f := .settle) rfl (shown_nil P e) hs).works rfl ?_)
    simp only [Control.refs, Env.refs, List.flatMap_nil, Option.toList_none, List.append_nil]
    exact hgrown.shown_global
  | getGlobal name =>
    exact .works (by rw [hc]; rfl)
      ((hgrown.pushOn (f := .settle) rfl (shown_nil P e) hs).works rfl hgrown.shown_global)
  | setGlobal name r => exact .begins hc (.global name r)
  | getMember target name =>
    refine .works (by rw [hc]; rfl) (hgrown.withRestored hh target fun r hr => ?_)
    exact (hgrown.pushOn (f := .settle) rfl (shown_nil P e) hs).works rfl
      (shown_cons.2 ⟨hr, shown_nil P e⟩)
  | setMember target name r => exact .begins hc (.member target name r)
  | invokeMember target name r => exact .begins hc (.arguments target name r)
  | release handle =>
    unfold Engine.beginStep
    dsimp only
    split
    · next r handles hr => exact .releases hc hr
    · exact .works (by rw [hc]; rfl)
        (hgrown.giveRecordOf Record.isBare_null Record.speaks_null hs)
  | collect => exact .collects hc

/-! ### Steps -/

lemma advance_ret {v : Value} {f : Frame} {rest : List Frame} (hc : e.control = .ret v)
    (hs : e.stack = f :: rest) (hsits : f.Sits rest) (hg : e.heap.Guarded P)
    (hv : e.Shown P v.refs) (hf : f.isQuiet = true → e.Shown P f.refs)
    (hh : e.Shown P e.handles.values) :
    Advance P e (({ e with stack := rest } : Engine).retStep f v) .silent := by
  have hin : e.control.inbound = [] := by rw [hc]; rfl
  have hback : ∀ c, (({ e with stack := rest } : Engine).push f).goto c = e.goto c := by
    intro c
    rw [Engine.push, ← hs]
  have hstay : (({ e with stack := rest } : Engine).push f) = e := by
    rw [Engine.push, ← hs]
  have hgrown : Grown P { e with stack := rest } { e with stack := rest } := .refl hg
  have hretry : Advance P e e .silent :=
    .works hin (.inner (.refl hg) (by rw [hc]; trivial) (by rw [hc]; trivial)
      (by rw [hc]; exact hv) (.inr (.inl rfl)))
  by_cases hq : f.isQuiet = true
  · by_cases hd : ∃ r, f = .pending (.dateParent r)
    · obtain ⟨r, rfl⟩ := hd
      have hr := (shown_cons.1 (hf rfl)).1
      change Advance P e (({ e with stack := rest } : Engine).takeDateParent r v) .silent
      unfold Engine.takeDateParent
      split
      · exact advance_encodeInstance (.inr ⟨_, _, hs, rfl, rfl, rfl⟩) hg hin hsits hr
          (.inr (.inr ⟨rest, hs⟩)) _
      · exact .pops hs rfl rfl hin (hgrown.throwType _) (.inl trivial)
    · have hworks := hgrown.retStep hh hq (hf hq) hsits (fun r he => hd ⟨r, he⟩) hv
      have hsilent : ∀ text, ¬ AboutToTell { e with stack := rest } text := by
        rintro text ⟨-, hsays | ⟨w, hsays, -⟩⟩ <;> cases hc.symm.trans hsays
      refine .pops hs ?_ ?_ hin hworks (hworks.voices.imp_right fun hu =>
        hu.resolve_right fun h => hsilent h.choose h.choose_spec.1) <;>
      cases f <;> first | rfl | cases hq
  · cases f with
    | items array index items => exact .places hs hc hv
    | placed array index items => exact .nextItem hs hc
    | elements array depth length index done =>
      change Advance P e ((({ e with stack := rest } : Engine).push _).goto _) .silent
      rw [hback]
      exact .element hs hc hv
    | sending call result held =>
      change Advance P e (({ e with stack := rest } : Engine).push _) .silent
      rw [hstay]
      exact hretry
    | awaiting result held =>
      change Advance P e (({ e with stack := rest } : Engine).push _) .silent
      rw [hstay]
      exact hretry
    | entry c =>
      change Advance P e ((({ e with stack := rest } : Engine).push _).goto _) .silent
      rw [hback]
      exact .works hin ((Grown.refl hg).startEncode hv (by rw [hs]; trivial))
    | pending work =>
      cases work with
      | standInClass slot token => exact .takesClass hs hc
      | entered slot => exact .enters hs hc
      | _ => exact absurd rfl hq
    | _ => exact absurd rfl hq

lemma advance_throw {v : Value} {f : Frame} {rest : List Frame} (hc : e.control = .throw v)
    (hs : e.stack = f :: rest) (hg : e.heap.Guarded P) (hv : e.Shown P v.refs)
    (hf : f.isQuiet = true → e.Shown P f.refs) :
    Advance P e (({ e with stack := rest } : Engine).throwStep f v) .silent := by
  have hin : e.control.inbound = [] := by rw [hc]; rfl
  have hgrown : Grown P { e with stack := rest } { e with stack := rest } := .refl hg
  have hpop : f.inbound = [] → f.isEntry = false →
      Advance P e { e with stack := rest } .silent := fun hf hentry =>
    .pops hs hf hentry hin (.inner hgrown (by dsimp only; rw [hc]; trivial)
      (by dsimp only; rw [hc]; trivial) (by dsimp only; rw [hc]; exact hv)
      (.inr (.inl rfl))) (.inr rfl)
  have hsettle : AwaitsRecord e.stack → Advance P e
      ((({ e with stack := rest } : Engine).push f).settleError v) .silent := fun hawaits => by
    rw [Engine.push, ← hs]
    exact advance_settleError hc hawaits hg hv
  cases f with
  | guard handler env =>
    refine .pops hs rfl rfl hin ((hgrown.push (f := .hold [v]) rfl ?_).works rfl ?_) (.inl trivial)
    · simp only [Frame.refs, shown_flatMap, List.mem_singleton, forall_eq]
      exact hv
    · have henv := hf rfl
      simp only [Frame.refs, Env.refs, shown_append, shown_flatMap] at henv
      simp only [Control.refs, Env.refs, shown_append, shown_flatMap, Option.toList_some,
        List.mem_singleton, forall_eq]
      exact ⟨henv.1, hv⟩
  | sending call result held => exact hsettle (by rw [hs]; trivial)
  | entry c => exact hsettle (by rw [hs]; trivial)
  | printing thrown =>
    exact .pops hs rfl rfl hin (hgrown.works rfl (shown_nil P _)) (.inl trivial)
  | items array index items => exact .fails hs (.inl rfl) hc
  | placed array index items => exact .fails hs (.inr rfl) hc
  | _ => exact hpop rfl rfl

/-- What holds where a step of an engine is to be judged: what it is about to do goes with
its frames, and script may refer to all that its frames, handles and objects refer to. -/
structure Sighted (P : Prop) (e : Engine) : Prop where
  guarded : e.heap.Guarded P
  control : e.Shown P e.control.refs
  frames : ∀ f ∈ e.stack, f.isQuiet = true → e.Shown P f.refs
  elements : ∀ array depth length index done,
    .elements array depth length index done ∈ e.stack → e.heap.Shows P array
  handles : e.Shown P e.handles.values

lemma advance_encoded {r : Record} (hc : e.control = .encoded r) (hs : AwaitsRecord e.stack)
    (hv : e.Sighted P) :
    Advance P e (e.popWith fun e f => e.encodedStep f r).1
      (e.popWith fun e f => e.encodedStep f r).2 := by
  unfold Engine.popWith
  split
  · next hs' =>
    rw [hs'] at hs
    cases hs
  · next f rest hs' =>
    rw [hs'] at hs
    cases f with
    | elements array depth length index done =>
      exact .nextElement hs' hc (hv.elements array depth length index done (by simp [hs']))
    | sending call result held => exact .sends hs' hc
    | entry c => exact .finishes hs' hc
    | _ => cases hs

lemma advance_refuse {text : String} (hc : e.control = .refuse text)
    (hs : AwaitsRecord e.stack) (hg : e.heap.Guarded P) :
    Advance P e (e.popWith fun e f => (e.refuseStep f text, .silent)).1
      (e.popWith fun e f => (e.refuseStep f text, .silent)).2 := by
  have hin : e.control.inbound = [] := by rw [hc]; rfl
  have hback : ∀ f rest, e.stack = f :: rest → AwaitsRecord e.stack →
      Advance P e ((({ e with stack := rest } : Engine).push f).goto
        (.encoded (.unknownError (some text)))) .silent := by
    intro f rest hs' hawaits
    rw [Engine.push, ← hs']
    exact .works hin (.inner ((Grown.refl hg).goto _) (Record.isBare_unknownError _) hawaits
      (shown_nil P e) (.inr (.inr ⟨text, ⟨hawaits, .inl hc⟩, rfl⟩)))
  unfold Engine.popWith
  split
  · next hs' =>
    rw [hs'] at hs
    cases hs
  · next f rest hs' =>
    have hawaits := hs
    rw [hs'] at hs
    cases f with
    | elements array depth length index done =>
      exact .pops hs' rfl rfl hin (.inner (.refl hg) (by dsimp only; rw [hc]; trivial)
        (by dsimp only; rw [hc]; exact hs) (by dsimp only; rw [hc]; exact shown_nil P _)
        (.inr (.inl rfl))) (.inr rfl)
    | sending call result held => exact hback _ rest hs' hawaits
    | entry c => exact hback _ rest hs' hawaits
    | _ => cases hs

/-- **What a step that goes on with an operation can do.** -/
theorem proceed_advance (hs : e.Shaped) (hv : e.Sighted P) :
    Advance P e e.proceed.1 e.proceed.2 := by
  have hfits := hs.fits
  have hrefs := hv.control
  unfold Engine.proceed
  split
  · next hc => exact .idle hc
  · next op hc =>
    rw [hc] at hfits
    exact advance_beginStep hc hfits hv.guarded hv.handles
  · next script env hc =>
    rw [hc] at hrefs
    exact .works (by rw [hc]; rfl) ((Grown.refl hv.guarded).evalStep script hrefs)
  · next target key hc =>
    rw [hc] at hrefs
    exact .works (by rw [hc]; rfl) ((Grown.refl hv.guarded).readStep hrefs key)
  · next target key v hc =>
    rw [hc] at hrefs
    exact .works (by rw [hc]; rfl) ((Grown.refl hv.guarded).writeStep
      (shown_append.1 hrefs).1 key (shown_append.1 hrefs).2)
  · next f this args hc =>
    rw [hc] at hrefs
    simp only [Control.refs, shown_append, shown_flatMap] at hrefs
    exact .works (by rw [hc]; rfl)
      ((Grown.refl hv.guarded).callStep hrefs.1.1 hrefs.1.2 hrefs.2)
  · next v depth hc =>
    rw [hc] at hrefs hfits
    exact advance_encodeStep hc hfits hv.guarded hrefs
  · next v hc =>
    rw [hc] at hrefs
    unfold Engine.popWith
    split
    · next hs' => exact .stops hs' (by rw [hc]; rfl)
    · next f rest hs' =>
      have hm : f ∈ e.stack := by simp [hs']
      have hsettled := hs.settled
      rw [hs'] at hsettled
      exact advance_ret hc hs' hsettled.1 hv.guarded hrefs (hv.frames f hm) hv.handles
  · next v hc =>
    rw [hc] at hrefs
    unfold Engine.popWith
    split
    · next hs' => exact .stops hs' (by rw [hc]; rfl)
    · next f rest hs' =>
      exact advance_throw hc hs' hv.guarded hrefs (hv.frames f (by simp [hs']))
  · next r hc =>
    rw [hc] at hfits
    exact advance_encoded hc hfits hv
  · next text hc =>
    rw [hc] at hfits
    exact advance_refuse hc hfits hv.guarded
  · next r hc => exact .asks hc
  · next r hc =>
    rw [hc] at hfits
    obtain ⟨result, held, rest, hs'⟩ := hfits
    rw [Engine.popWith, hs']
    exact .replies hs' hc
  · next r hc => exact advance_arriveStep hc hv.guarded hv.handles

end Engine

end ScriptBridge
