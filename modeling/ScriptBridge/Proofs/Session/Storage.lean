/-
# What the host stores comes back

The host stores a value of scalars, host objects and arrays in script, under the name of a global
or in a member of a script object.  Each host object in it gets a slot of its own.  As long as
nothing but letting go happens in the engine, the value comes back when the host reads it: the
same scalars and the very same objects, but numbers that are whole come back as integers.
-/
import ScriptBridge.Proofs.Bridge.RoundTrip
import ScriptBridge.Proofs.Engine.Assign
import ScriptBridge.Proofs.Session.Identity
import ScriptBridge.Proofs.Session.Passage
import ScriptBridge.Proofs.Session.Resolution

namespace ScriptBridge

open ScriptBridge.Bridge ScriptBridge.Host ScriptBridge.Script ScriptBridge.Table ScriptBridge.Wire

namespace Session

variable {s s' s'' : Session} {b : Nat} {x y : Side} {e e' : Engine} {a a' : Arena Entry}
  {f : ForeignObject} {v : HostValue} {r : Record} {g n : Ref} {slots : List Slot}
  {types : List HostType} {setups : List Setup} {hist older : List Session}

/-! ### Where values are stored -/

/-- Where a host stores a value: under the name of a global, or in a member of a script object. -/
inductive Spot where
  /-- Under the name of a global. -/
  | global (name : String)
  /-- In a member of a script object. -/
  | member (target : ForeignObject) (name : String)

namespace Spot

/-- The name. -/
def name : Spot → String
  | global name => name
  | member _ name => name

/-- The key of the property. -/
def key (spot : Spot) : Key := .ofName spot.name

/-- The operation that stores a value. -/
def assign : Spot → HostValue → Operation
  | global name, v => .setVariable name v
  | member target name, v => .member target name (.set v)

/-- The operation that reads what is stored. -/
def read : Spot → Operation
  | global name => .getVariable name
  | member target name => .member target name .get

/-- The script object that has the property. -/
def owner? (s : Session) (b : Nat) : Spot → Option Ref
  | global _ => some Intrinsic.global
  | member target _ => if target.bridge = b then s.pinned? b target.handle else none

end Spot

/-! ### Operations and their outcomes -/

/-- An operation of a bridge that starts in one state has come to its end in another one, within
its scope: there is an outcome for what waits for it, and frames keep what it was given. -/
structure Results (s : Session) (b : Nat) (r : Outcome) (s' : Session) : Prop where
  proceeds : Proceeds s s'
  control : s'.control = .done r
  frames : ∃ vs : List (List HostValue), s'.frames = .scope b :: (vs.map Frame.held ++ s.frames)

/-- A bridge has handed out slots for some objects, one for each in their order, and its other
slots are as they were. -/
structure Entered (s s' : Session) (b : Nat) (slots : List Slot) (objects : List HostObject) :
    Prop where
  nodup : slots.Nodup
  fresh : ∀ slot ∈ slots, s.entryOf? b slot = none
  entries : slots.map (s'.entryOf? b) = objects.map fun o => some (.object o)
  others : ∀ slot, slot ∉ slots → s'.entryOf? b slot = s.entryOf? b slot

/-- The slots do not run out when a value becomes a record. -/
def HasRoom (s : Session) (b : Nat) (v : HostValue) : Prop :=
  ∀ br, s.bridge? b = some br → (encode b br.arena v).1 ≠ .error (.interop .arenaExhausted)

/-! ### While the engine is at rest -/

/-- Something happens while the engine of a bridge is at rest. -/
def Calmly (b : Nat) (s s' : Session) : Prop :=
  Goes s s' ∧ ∀ e, s.engine? b = some e → e.control.IsResting

/-- Whatever happens, the engine of a bridge is at rest until then: nothing is asked of it but to
give up handles. -/
abbrev Quietly (b : Nat) : Session → Session → Prop := Relation.ReflTransGen (Calmly b)

/-- A program goes on from what it has come to. -/
lemma History.reaches (h : History types setups (s :: older))
    (hr : Relation.ReflTransGen Goes s s') :
    ∃ older', History types setups (s' :: older') := by
  induction hr with
  | refl => exact ⟨older, h⟩
  | tail _ hgo ih =>
    obtain ⟨older', h'⟩ := ih
    exact ⟨_, h'.goes hgo⟩

lemma goes_of_proceeds (h : Proceeds s s') : Relation.ReflTransGen Goes s s' :=
  h.lift id fun _ _ hstep => .steps hstep

lemma goes_of_quietly (h : Quietly b s s') : Relation.ReflTransGen Goes s s' :=
  h.lift id fun _ _ hcalm => hcalm.1

/-- While the engine is at rest, only what cannot be reached goes away. -/
lemma Calmly.spares (hq : Calmly b s s') (h : History types setups (s :: older))
    (hy : s'.side? b = some y) : ∃ x, s.side? b = some x ∧ x.engine.Spares y.engine.heap ∧
      y.engine.maxLength = x.engine.maxLength ∧ y.engine.maxDepth = x.engine.maxDepth := by
  obtain ⟨hgo, hrest⟩ := hq
  obtain ⟨k, x, z, hx, hmove, hlast⟩ := hgo.moves hy
  have hacc := h.accounted (List.mem_cons_self ..) hx
  have hengine : y.engine = z.engine := by
    rcases hlast with ⟨rfl, -⟩ | ⟨-, -, hengine, -⟩
    · rfl
    · exact hengine
  refine ⟨x, hx, ?_⟩
  rw [hengine]
  rcases hmove.engine hacc with heq | ⟨-, heq⟩ | ⟨-, -, ⟨w, heq⟩ | ⟨-, -, r, heq⟩⟩ <;> rw [heq]
  · exact ⟨.of_eq hacc.sound rfl, rfl, rfl⟩
  · exact Engine.spares_step (hrest _ (engine?_of_side? hx)) hacc.sound
  · exact ⟨.of_eq hacc.sound rfl, rfl, rfl⟩
  · exact ⟨.of_eq hacc.sound rfl, rfl, rfl⟩

/-! ### Script objects that are kept -/

lemma Goes.kept_of_lt (h : Goes s s') (hf : f ∈ s'.kept b) (hlt : f.lease < s.nextLease) :
    f ∈ s.kept b := by
  rcases h.mem_kept hf with hold | ⟨k, r, -, -, hnew⟩
  · exact hold
  · have hle := ((numbered_decode b k.arena s.nextLease r).bounds f hnew).1
    exact absurd hlt (Nat.not_lt.2 hle)

/-- A lease that is kept keeps its script object. -/
lemma Goes.pinned?_eq (hgo : Goes s s') (h : History types setups (s :: older))
    (hy : s'.side? b = some y) (hf : f ∈ s'.kept b) (hlt : f.lease < s.nextLease) :
    s'.pinned? b f.handle = s.pinned? b f.handle := by
  obtain ⟨-, x, hx, hfollows⟩ := hgo.follows (fun x hx => h.accounted (List.mem_cons_self ..) hx)
    (fun x hx => h.owns (List.mem_cons_self ..) hx) hy
  rw [pinned?_of_side? hy, pinned?_of_side? hx]
  rcases hfollows f.handle (List.mem_append_right _ (List.mem_map_of_mem hf)) with
    ⟨-, hsame⟩ | ⟨r, -, hnone, -⟩
  · exact hsame
  · -- It was answered for before.
    have howned : f.handle ∈ x.owned (s.kept b) :=
      List.mem_append_right _ (List.mem_map_of_mem (hgo.kept_of_lt hf hlt))
    have hlive := (h.owns (List.mem_cons_self ..) hx).live _ howned
    rw [hnone] at hlive
    cases hlive

/-! ### What is stored stays -/

/-- A script object of a bridge has a property that mirrors a record, and the slots of the record
hold what they held in an arena. -/
structure Stores (n : Ref) (b : Nat) (spot : Spot) (g : Ref) (r : Record) (a : Arena Entry)
    (x : Side) (s : Session) : Prop where
  owner : spot.owner? s b = some g
  holds : Engine.Holds n x.engine.heap x.engine.handles g spot.key r
  entries : ∀ slot ∈ r.slots, x.arena.get? slot = a.get? slot

lemma Spot.reached {spot : Spot} (hx : s.side? b = some x) (hg : spot.owner? s b = some g) :
    x.engine.Reached g := by
  cases spot with
  | global name =>
    cases hg
    exact Engine.reached_global _
  | member target name =>
    rw [Spot.owner?] at hg
    split at hg
    · rw [pinned?_of_side? hx] at hg
      exact Engine.reached_of_handle hg
    · cases hg

/-- The script object of a spot whose lease is kept stays the same. -/
lemma Spot.owner?_eq {spot : Spot} (hgo : Goes s s') (h : History types setups (s :: older))
    (hy : s'.side? b = some y)
    (hkept : ∀ f name, spot = .member f name → f ∈ s'.kept b ∧ f.lease < s.nextLease) :
    spot.owner? s' b = spot.owner? s b := by
  cases spot with
  | global name => rfl
  | member target name =>
    obtain ⟨hf, hlt⟩ := hkept target name rfl
    rw [Spot.owner?, Spot.owner?, hgo.pinned?_eq h hy hf hlt]

/-- **What is stored stays** while the engine is at rest. -/
lemma Calmly.stores {spot : Spot} (hq : Calmly b s s') (h : History types setups (s :: older))
    (hx : s.side? b = some x) (hy : s'.side? b = some y) (hhandles : r.handles = [])
    (hkept : ∀ f name, spot = .member f name → f ∈ s'.kept b ∧ f.lease < s.nextLease)
    (hs : Stores n b spot g r a x s) : Stores n b spot g r a y s' := by
  obtain ⟨x', hx', hspares, -⟩ := hq.spares h hy
  obtain rfl : x = x' := Option.some.inj (hx.symm.trans hx')
  have hholds : Engine.Holds n y.engine.heap y.engine.handles g spot.key r := by
    refine Engine.Holds.of_handles ?_ (t := x.engine.handles) (by rw [hhandles]; nofun)
    exact hspares.retains.holds hs.holds (Spot.reached hx hs.owner)
  refine ⟨(Spot.owner?_eq hq.1 h hy hkept).trans hs.owner, hholds, fun slot hslot => ?_⟩
  -- Its slots are kept by tokens, and so they keep their entries.
  have hacc := h.accounted (List.mem_cons_self ..) hx
  have hacc' := (h.goes hq.1).accounted (List.mem_cons_self ..) hy
  have hheld : ∀ {z : Side}, z.Accounted →
      Engine.Holds n z.engine.heap z.engine.handles g spot.key r → slot ∈ z.holders := by
    intro z hz hh
    refine List.mem_append_left _ (List.mem_append_left _ (List.mem_append_left _ ?_))
    exact List.mem_append_left _ (List.mem_append_left _ (hh.mem_held hz.sound hslot))
  obtain ⟨entry, hentry⟩ := hacc.exists_get? (hheld hacc hs.holds)
  rw [← hs.entries slot hslot, hentry]
  exact hq.1.get?_eq_some (fun z hz => h.accounted (List.mem_cons_self ..) hz) hy
    (hheld hacc' hholds) ((entryOf?_of_side? hx slot).trans hentry)

lemma nextLease_le_of_goes (h : Relation.ReflTransGen Goes s s') : s.nextLease ≤ s'.nextLease := by
  induction h with
  | refl => exact Nat.le_refl _
  | tail _ hgo ih => exact Nat.le_trans ih hgo.nextLease_le

/-- What is stored stays as long as the engine is at rest. -/
lemma Quietly.stores {spot : Spot} (hq : Quietly b s s') (h : History types setups (s :: older))
    (hx : s.side? b = some x) (hy : s'.side? b = some y) (hhandles : r.handles = [])
    (hkept : ∀ f name, spot = .member f name → f ∈ s'.kept b ∧ f.lease < s.nextLease)
    (hs : Stores n b spot g r a x s) : Stores n b spot g r a y s' ∧
      y.engine.maxLength = x.engine.maxLength ∧ y.engine.maxDepth = x.engine.maxDepth := by
  induction hq generalizing y with
  | refl =>
    obtain rfl : x = y := Option.some.inj (hx.symm.trans hy)
    exact ⟨hs, rfl, rfl⟩
  | @tail u w hbefore hcalm ih =>
    have hgoes := goes_of_quietly hbefore
    obtain ⟨older', hu⟩ := h.reaches hgoes
    obtain ⟨z, hz, -, hlength, hdepth⟩ := hcalm.spares hu hy
    have hkept' : ∀ f name, spot = .member f name → f ∈ w.kept b ∧ f.lease < u.nextLease :=
      fun f name hf => (hkept f name hf).imp_right
        fun hlt => Nat.lt_of_lt_of_le hlt (nextLease_le_of_goes hgoes)
    obtain ⟨hstores, hlength', hdepth'⟩ := ih hz fun f name hf =>
      ⟨hcalm.1.kept_of_lt (hkept' f name hf).1 (hkept' f name hf).2, (hkept f name hf).2⟩
    exact ⟨hcalm.stores hu hz hy hhandles hkept' hstores, hlength.trans hlength',
      hdepth.trans hdepth'⟩

/-! ### Storing and reading -/

lemma pinned?_of_core? {q : List Slot} (h : s.core? b = some ⟨some e, a, q⟩) (handle : Handle) :
    s.pinned? b handle = e.handles.get? handle := by
  rw [pinned?, engine?_eq, h]
  rfl

/-- The operation that stores a value starts. -/
lemma Spot.launched_assign {spot : Spot} {q : List Slot}
    (hc : s.control = .operate b (spot.assign v))
    (ht : s.tidy? = none) (hname : spot.name ≠ "") (hcore : s.core? b = some ⟨some e, a, q⟩)
    (hregular : a.IsRegular) (hencode : encode b a v = (.ok r, a'))
    (hg : spot.owner? s b = some g) :
    ∃ (w : Engine.Operation) (fr : Engine.Frame) (vs : List (List HostValue)) (s' : Session),
      Launched s b e a' w (vs.map .held) s' ∧ Engine.Assigns e.handles w fr r g spot.key := by
  cases spot with
  | global name =>
    cases hg
    obtain ⟨s', hl⟩ := launched_exchange (l := [.held [v]]) (f := .setGlobal name) hc ht hcore
      (by simp [Spot.assign, Operation.values, Frame.values]) hregular hencode
      (by rw [Spot.assign, operateStep]; exact if_neg hname)
    exact ⟨_, _, [[v]], s', hl, .global name r⟩
  | member target name =>
    rw [Spot.owner?] at hg
    split at hg
    · next hbridge =>
      have hhandle : handleOf b target = .ok target.handle := if_pos hbridge
      obtain ⟨s', hl⟩ := launched_exchange (l := [.held [v, .foreign target]])
        (f := .setMember target.handle name) hc ht hcore
        (by simp [Spot.assign, Operation.values, Frame.values, Access.values]) hregular hencode
        (by
          rw [Spot.assign, operateStep, if_neg (show name ≠ "" from hname), hhandle]
          rfl)
      rw [pinned?_of_core? hcore] at hg
      exact ⟨_, _, [[v, .foreign target]], s', hl, .member name r hg⟩
    · cases hg

/-- The operation that reads what is stored starts. -/
lemma Spot.launched_read {spot : Spot} {q : List Slot} (hc : s.control = .operate b spot.read)
    (ht : s.tidy? = none) (hname : spot.name ≠ "") (hcore : s.core? b = some ⟨some e, a, q⟩)
    (hg : spot.owner? s b = some g) :
    ∃ (w : Engine.Operation) (vs : List (List HostValue)) (s' : Session),
      Launched s b e a w (vs.map .held) s' ∧ Engine.Reads e.handles w g spot.key := by
  cases spot with
  | global name =>
    cases hg
    obtain ⟨s', hl⟩ := launched_call (l := []) (w := .getGlobal name) hc ht hcore nofun
      (by rw [Spot.read, operateStep]; exact if_neg hname)
    exact ⟨_, [], s', hl, .global name⟩
  | member target name =>
    rw [Spot.owner?] at hg
    split at hg
    · next hbridge =>
      have hhandle : handleOf b target = .ok target.handle := if_pos hbridge
      obtain ⟨s', hl⟩ := launched_call (l := [.held [.foreign target]])
        (w := .getMember target.handle name) hc ht hcore
        (by simp [Spot.read, Operation.values, Frame.values, Access.values])
        (by
          rw [Spot.read, operateStep, if_neg (show name ≠ "" from hname), hhandle]
          rfl)
      rw [pinned?_of_core? hcore] at hg
      exact ⟨_, [[.foreign target]], s', hl, .member name hg⟩
    · cases hg

/-- **A value is stored.** -/
lemma Spot.exists_stored {spot : Spot} {q : List Slot}
    (hc : s.control = .operate b (spot.assign v))
    (ht : s.tidy? = none) (hname : spot.name ≠ "") (hcore : s.core? b = some ⟨some e, a, q⟩)
    (hregular : a.IsRegular) (hsound : e.heap.Sound) (hencode : encode b a v = (.ok r, a'))
    (hg : spot.owner? s b = some g) (hreceives : ∀ w f, (e.enter w).Receives f r)
    (hopen : e.heap.Assignable g spot.key) :
    ∃ s' h q', Results s b (.ok .null) s' ∧
      s'.core? b = some ⟨some { e with heap := h, released := [] }, a', q'⟩ ∧
      Engine.Holds e.heap.next h e.handles g spot.key r := by
  obtain ⟨w, fr, vs, s₁, hl, ha⟩ := launched_assign hc ht hname hcore hregular hencode hg
  obtain ⟨h, hruns, -, hholds, hclean⟩ := Engine.Assigns.runs (e := e.enter w) ha rfl hsound
    (hreceives w fr) hopen
  obtain ⟨s₂, hsteps, -, hc₂, hf₂, q', hcore₂⟩ := hl.exists_concluded
    (by rw [outcome?, hc]) ht hruns hclean rfl rfl (decode_of_isScalar Record.view_null rfl)
    (by rintro v ⟨⟩; rfl)
  exact ⟨s₂, h, q', ⟨hsteps.proceeds, hc₂, vs, hf₂⟩, hcore₂, hholds⟩

/-- **What is stored is read.** -/
lemma Spot.exists_fetched {spot : Spot} {q : List Slot} {out : Record} {m : Nat}
    {result : Except Fault HostValue} (hc : s.control = .operate b spot.read)
    (ht : s.tidy? = none) (hname : spot.name ≠ "") (hcore : s.core? b = some ⟨some e, a, q⟩)
    (hsound : e.heap.Sound) (hg : spot.owner? s b = some g)
    (hholds : Engine.Holds n e.heap e.handles g spot.key r)
    (hreturns : ∀ w, (e.enter w).Returns n r out)
    (hdecode : decode b a s.nextLease out = ⟨result, [], m⟩)
    (hforeigns : ∀ v, result = .ok v → v.foreigns = []) :
    ∃ s' e' q', Results s b (outcomeOf result) s' ∧ s'.core? b = some ⟨some e', a, q'⟩ := by
  obtain ⟨w, vs, s₁, hl, ha⟩ := launched_read hc ht hname hcore hg
  obtain ⟨h, hruns, hclean⟩ := Engine.Reads.runs (e := e.enter w) ha rfl hsound hholds (hreturns w)
  obtain ⟨s₂, hsteps, -, hc₂, hf₂, q', hcore₂⟩ := hl.exists_concluded
    (by rw [outcome?, hc]) ht hruns hclean rfl rfl hdecode hforeigns
  exact ⟨s₂, _, q', ⟨hsteps.proceeds, hc₂, vs, hf₂⟩, hcore₂⟩

/-- The class of stand-ins is found where script has not put anything in its place. -/
lemma exists_proxy (hh : e.Honest) (hi : e.isIntact .proxy = true) :
    ∃ o, e.heap.get? Intrinsic.global = some o ∧ (∀ s k, o.kind ≠ .proxy s k) ∧
      o.own? (.name (Intrinsic.className .proxy)) =
        some (.data (.object (Intrinsic.classRef .proxy))) := by
  unfold Engine.isIntact at hi
  obtain ⟨o, ho⟩ : ∃ o, e.heap.get? Intrinsic.global = some o := by
    rw [← Option.isSome_iff_exists]
    by_contra hnone
    rw [Option.not_isSome_iff_eq_none] at hnone
    rw [hnone] at hi
    cases hi
  rw [ho, Option.bind_some] at hi
  refine ⟨o, ho, hh.guarded.solid trivial _ Intrinsic.global_lt o ho, ?_⟩
  split at hi
  · next w hw => rw [hw, of_decide_eq_true hi]
  · cases hi

/-- The script object of a member that is about to be used is kept, and was before. -/
lemma Spot.kept_of_operate {spot : Spot} {op : Operation}
    (h : History types setups (s :: older)) (hc : s.control = .operate b op)
    (hop : ∀ f name, spot = .member f name → .foreign f ∈ op.values)
    (hg : spot.owner? s' b = some g) {f : ForeignObject} {name : String}
    (hf : spot = .member f name) : f ∈ s.kept b := by
  subst hf
  have hbridge : f.bridge = b := by
    rw [Spot.owner?] at hg
    split at hg
    · assumption
    · cases hg
  refine h.mem_kept_of_live (List.mem_cons_self ..) ⟨hbridge, .inr ?_⟩
  rw [HostValue.foreignsOf_eq_flatMap, List.mem_flatMap]
  refine ⟨.foreign f, ?_, List.mem_singleton_self f⟩
  simp only [Session.values, hc, Control.values, List.mem_append]
  exact .inl (.inl (.inl (.inl (hop f name rfl))))

/-- What is stored is still there when it is read, if the engine has been at rest until then. -/
lemma Spot.still_stores {spot : Spot} {o : Outcome} {q q₁ : List Slot}
    (h : History types setups (s :: older)) (hc : s.control = .operate b (spot.assign v))
    (hcore : s.core? b = some ⟨some e, a, q⟩) (hg : spot.owner? s b = some g)
    (hresults : Results s b o s') (hcore' : s'.core? b = some ⟨some e', a', q₁⟩)
    (hsame : e'.handles = e.handles)
    (hholds : Engine.Holds n e'.heap e'.handles g spot.key r) (hhandles : r.handles = [])
    (hquiet : Quietly b s' s'') (hc' : s''.control = .operate b spot.read)
    (hy : s''.side? b = some y) : Stores n b spot g r a' y s'' ∧
      y.engine.maxLength = e'.maxLength ∧ y.engine.maxDepth = e'.maxDepth := by
  have hgoes := goes_of_proceeds hresults.proceeds
  obtain ⟨older', h'⟩ := h.reaches hgoes
  obtain ⟨older'', h''⟩ := h'.reaches (goes_of_quietly hquiet)
  have hkept : ∀ f name, spot = .member f name → f ∈ s''.kept b ∧ f.lease < s'.nextLease := by
    intro f name hf
    have hnow : f ∈ s.kept b := Spot.kept_of_operate h hc
      (by rintro f name rfl; exact List.mem_cons_self ..) hg hf
    refine ⟨Spot.kept_of_operate h'' hc' (by rintro f name rfl; exact List.mem_cons_self ..) hg hf,
      Nat.lt_of_lt_of_le ?_ (nextLease_le_of_goes hgoes)⟩
    exact ((h.numbered (List.mem_cons_self ..) b).bounds f hnow).2
  -- The handles of the engine are as they were.
  have howner : spot.owner? s' b = some g := by
    cases spot with
    | global name => exact hg
    | member target name =>
      rw [Spot.owner?, pinned?_of_core? hcore', hsame]
      rw [Spot.owner?, pinned?_of_core? hcore] at hg
      exact hg
  exact hquiet.stores h' (side?_of_core? hcore') hy hhandles hkept ⟨howner, hholds, fun _ _ => rfl⟩

/-- **What the host stores comes back.**  A value of scalars, host objects and arrays within the
limits of a bridge is stored in a global or in a member of a script object, unless something stands
in the way: each host object in it gets a slot of its own, and no other slot changes.  If the
engine stays at rest until the host reads the same global or member, all of these slots still have
their objects, and the value comes back, but for numbers that are whole. -/
theorem stored_comes_back {spot : Spot} (h : History types setups (s :: older))
    (hi : Intact b (s :: older)) (he : s.engine? b = some e)
    (hc : s.control = .operate b (spot.assign v)) (ht : s.tidy? = none) (hname : spot.name ≠ "")
    (hv : v.Fits e.maxLength e.maxDepth) (hroom : s.HasRoom b v)
    (hg : spot.owner? s b = some g) (hopen : e.heap.Assignable g spot.key)
    (helements : (∃ vs, v = .array vs) →
      ∀ i, e.heap.Yields Intrinsic.arrayParent (.index i)) :
    ∃ s₁ slots, Results s b (.ok .null) s₁ ∧ Entered s s₁ b slots v.objects ∧
      ∀ s₂, Quietly b s₁ s₂ → s₂.control = .operate b spot.read → s₂.tidy? = none →
        (s₂.engine? b).isSome →
        (slots.map (s₂.entryOf? b) = v.objects.map fun o => some (.object o)) ∧
        ∃ s₃, Results s₂ b (.ok v.rounded) s₃ ∧
          ∀ slot, s₃.entryOf? b slot = s₂.entryOf? b slot := by
  obtain ⟨x, hx, rfl⟩ := side?_isSome_of_engine? he
  have hfaithful := h.faithful hi (List.mem_cons_self ..) hx
  have hcore : s.core? b = some ⟨some x.engine, x.arena, x.deferred⟩ := (side?_eq_some.1 hx).1
  obtain ⟨br, hbr, hcores⟩ := bridge?_of_core? hcore
  have harena : br.arena = x.arena := congrArg Core.arena hcores
  -- The value becomes a record, and its host objects get new slots.
  obtain ⟨r, a, hencode⟩ := encode_of_fits b x.arena v hv (harena ▸ hroom br hbr)
  have hrenders := renders_encode b hencode
  have hhandles := hrenders.handles_eq_nil hv
  have hadmits : x.engine.Admits r :=
    ⟨exists_proxy hfaithful.honest (hi s (List.mem_cons_self ..) _ he), fun ⟨items, hitems⟩ =>
      helements (by
        by_contra hleaf
        exact (hrenders.leaf fun vs heq => hleaf ⟨vs, heq⟩).1 items hitems)⟩
  -- The engine takes the record for a value and stores that.
  obtain ⟨s₁, heap, q₁, hresults, hcore₁, hholds⟩ := Spot.exists_stored hc ht hname hcore
    hfaithful.regular hfaithful.sound hencode hg (fun w => Engine.receives_of_isCalm (e :=
      x.engine.enter w) hfaithful.sound rfl ⟨hadmits.proxy, hadmits.elements⟩ hrenders.isReadable
      (hrenders.fits hv).isCalm (by rw [hhandles]; nofun)) hopen
  have hmints := mints_encode b x.arena v
  rw [hencode] at hmints
  have hslots : slotsOfResult (Except.ok r : Except BridgeError Record) = r.slots := rfl
  rw [hslots] at hmints
  refine ⟨s₁, r.slots, hresults, ⟨hmints.nodup, fun slot hslot => ?_, ?_, fun slot hslot => ?_⟩, ?_⟩
  · rw [entryOf?_of_core? hcore]
    exact (hmints.fresh slot hslot).1
  · rw [← hrenders.entries]
    exact List.map_congr_left fun slot _ => entryOf?_of_core? hcore₁ slot
  · rw [entryOf?_of_core? hcore₁, entryOf?_of_core? hcore]
    exact hmints.kept slot hslot
  · intro s₂ hquiet hc₂ ht₂ he₂
    obtain ⟨e₂, he₂⟩ := Option.isSome_iff_exists.1 he₂
    obtain ⟨y, hy, rfl⟩ := side?_isSome_of_engine? he₂
    -- As long as the engine rests, what it has stored stays, and so do the entries.
    obtain ⟨hstores, hlength, hdepth⟩ := Spot.still_stores h hc hcore hg hresults hcore₁ rfl hholds
      hhandles hquiet hc₂ hy
    obtain ⟨older₂, h₂⟩ := h.reaches
      ((goes_of_proceeds hresults.proceeds).trans (goes_of_quietly hquiet))
    have hrenders₂ : Renders y.arena v r := hrenders.mono hstores.entries
    have hcore₂ := (side?_eq_some.1 hy).1
    have hv₂ : v.Fits y.engine.maxLength y.engine.maxDepth := by
      rw [hlength, hdepth]
      exact hv
    -- What is read becomes the same record, which is decoded over the same entries.
    obtain ⟨s₃, e₃, q₃, hresults₃, hcore₃⟩ := Spot.exists_fetched hc₂ ht₂ hname hcore₂
      (h₂.accounted (List.mem_cons_self ..) hy).sound hstores.owner hstores.holds
      (fun w => Engine.returns_echo (e := y.engine.enter w) (hrenders₂.fits hv₂))
      (hrenders₂.decode_echo hv₂ s₂.nextLease) (by rintro v' ⟨⟩; exact foreigns_rounded hv₂)
    refine ⟨?_, s₃, hresults₃, fun slot => ?_⟩
    · rw [← hrenders₂.entries]
      exact List.map_congr_left fun slot _ => entryOf?_of_core? hcore₂ slot
    · exact (entryOf?_of_core? hcore₃ slot).trans (entryOf?_of_core? hcore₂ slot).symm

/-! ### A value that comes back -/

lemma mem_follow_of_mem {fuel : Nat} (hs : s ∈ hist) : s ∈ follow fuel hist := by
  induction fuel generalizing hist with
  | zero =>
    rw [Session.follow]
    · exact hs
    · simp
  | succ fuel ih =>
    cases hist with
    | nil => cases hs
    | cons t older =>
      rw [Session.follow]
      split
      · exact ih (List.mem_cons_of_mem _ hs)
      · exact hs

lemma mem_settleDown_of_mem {save : Option String} (hs : s ∈ hist) : s ∈ settleDown save hist := by
  cases hist with
  | nil => cases hs
  | cons t older =>
    rw [Session.settleDown]
    split
    · exact List.mem_cons_of_mem _ hs
    · exact hs

lemma mem_tell_of_mem {c : Command} (hs : s ∈ hist) : s ∈ tell b c hist := by
  cases hist with
  | nil => cases hs
  | cons t older =>
    rw [Session.tell]
    split
    · split
      · exact List.mem_cons_of_mem _ hs
      · exact hs
    · exact hs

/-- All that a program comes to by itself is among the states that it is followed through, if those
go on until nothing is left to do. -/
lemma mem_follow {fuel : Nat} (hp : Proceeds s s')
    (hend : (follow fuel (s :: older)).head?.all (·.step?.isNone) = true) :
    s' ∈ follow fuel (s :: older) := by
  induction fuel generalizing s older with
  | zero =>
    rw [Session.follow] at hend ⊢
    · rcases hp.cases_head with rfl | ⟨u, hstep, -⟩
      · exact List.mem_cons_self ..
      · rw [List.head?_cons, Option.all_some, hstep] at hend
        cases hend
    all_goals simp
  | succ fuel ih =>
    rw [Session.follow] at hend ⊢
    rcases hp.cases_head with rfl | ⟨u, hstep, hrest⟩
    · split
      · exact mem_follow_of_mem (List.mem_cons_of_mem _ (List.mem_cons_self ..))
      · exact List.mem_cons_self ..
    · rw [hstep] at hend ⊢
      exact ih hrest hend

/-- Whether the engine of a bridge is idle, if it is there. -/
def isIdle (b : Nat) (s : Session) : Bool :=
  (s.engine? b).all fun e => match e.control with | .idle => true | _ => false

/-- Whether an engine has been idle in all states but the last one since something was so. -/
def idleSince (b : Nat) (p : Session → Bool) : List Session → Bool
  | s :: t :: older => p s || (isIdle b t && idleSince b p (t :: older))
  | [s] => p s
  | [] => false

lemma exists_quietly {p : Session → Bool} (h : History types setups (s :: older))
    (hr : idleSince b p (s :: older) = true) :
    ∃ u ∈ s :: older, p u = true ∧ Quietly b u s := by
  generalize heq : s :: older = hist at h
  induction h generalizing s older with
  | starts hcreate =>
    cases heq
    exact ⟨_, List.mem_cons_self .., hr, .refl⟩
  | @goes t s' rest h hgo ih =>
    cases heq
    rw [idleSince, Bool.or_eq_true, Bool.and_eq_true] at hr
    rcases hr with hr | ⟨hidle, hr⟩
    · exact ⟨_, List.mem_cons_self .., hr, .refl⟩
    · obtain ⟨u, hu, hp, hq⟩ := ih hr rfl
      refine ⟨u, List.mem_cons_of_mem _ hu, hp, hq.tail ⟨hgo, fun e he => ?_⟩⟩
      rw [isIdle, he, Option.all_some] at hidle
      split at hidle
      · next hc =>
        rw [hc]
        trivial
      · cases hidle

/-- Where something was so only once, all has been quiet since then. -/
lemma quietly_of_unique {p : Session → Bool} (h : History types setups (s :: older))
    (hidle : idleSince b p (s :: older) = true) (hone : ((s :: older).filter p).length = 1)
    (hs' : s' ∈ s :: older) (hp : p s' = true) : Quietly b s' s := by
  obtain ⟨u, hu, hpu, hquiet⟩ := exists_quietly h hidle
  obtain ⟨w, hw⟩ := List.length_eq_one_iff.1 hone
  have hsame : ∀ t ∈ s :: older, p t = true → t = w := fun t ht hp =>
    List.mem_singleton.1 (hw ▸ List.mem_filter.2 ⟨ht, hp⟩)
  exact ((hsame u hu hpu).trans (hsame s' hs' hp).symm) ▸ hquiet

/-- The number one. -/
def one : Number.Binary64 := ⟨0x3FF0000000000000⟩

/-- The object of an array of an object and the number one that is about to be stored in a
global. -/
def stowing? : Control → Option HostObject
  | .operate 0 (.setVariable name (.array [.object o, .number x])) =>
    if name = "x" ∧ x = one then some o else none
  | _ => none

/-- Whether the outcome of an operation is there. -/
def isOver (s : Session) : Bool :=
  match s.control, s.frames with
  | .done _, .scope _ :: _ => true
  | _, _ => false

lemma Results.isOver {o : Outcome} (h : Results s b o s') : isOver s' = true := by
  obtain ⟨vs, hframes⟩ := h.frames
  rw [Session.isOver, h.control, hframes]

/-- A program that is about to store an array of an object and a number in a global. -/
def stowing : List Session :=
  tell 0 (.setVariable "x" (.array [.fresh 0 "x" [], .plain (.number one)])) (made [bareType] [{}])

/-- The same program, when it is about to read the global. -/
def fetching : List Session :=
  tell 0 (.getVariable "x") (follow 40 (settleDown none (follow 40 stowing)))

lemma history_stowing : History [bareType] [{}] stowing :=
  (history_made (by decide +kernel)).tell ..

lemma history_fetching : History [bareType] [{}] fetching :=
  (((history_stowing.follow _).settleDown _).follow _).tell ..

lemma control_of_stowing? {c : Control} {o : HostObject} (h : stowing? c = some o) :
    c = .operate 0 ((Spot.global "x").assign (.array [.object o, .number one])) := by
  unfold stowing? at h
  split at h
  · split at h
    · next hx =>
      obtain ⟨rfl, rfl⟩ := hx
      cases h
      rfl
    · cases h
  · cases h

/-- Whether an array of an object and a number can be stored in a global. -/
def isStowable (s : Session) : Bool :=
  s.tidy?.isNone &&
    match stowing? s.control, s.bridge? 0, s.engine? 0 with
    | some o, some br, some e =>
      (encode 0 br.arena (.array [.object o, .number one])).1.toOption.isSome &&
        decide (2 ≤ e.maxLength ∧ 1 ≤ e.maxDepth) &&
        e.heap.ascend (Heap.isOpenAt (.ofName "x")) 5 Intrinsic.global &&
        e.heap.ascend Heap.isBare 5 Intrinsic.arrayParent &&
        (match (e.heap.get? Intrinsic.global).map Object.kind with
          | some (.array _) => false
          | _ => true)
    | _, _, _ => false

lemma fits_stowed (o : HostObject) {length depth : Nat} (hl : 2 ≤ length) (hd : 1 ≤ depth) :
    (HostValue.array [.object o, .number one]).Fits length depth := by
  obtain ⟨depth, rfl⟩ := Nat.exists_eq_add_of_le' hd
  have hmax : 2 ≤ Record.maxLength := by decide
  refine ⟨hl, hmax, ?_, ?_, trivial⟩ <;> cases depth <;> trivial

lemma rounded_stowed (o : HostObject) :
    (HostValue.array [.object o, .number one]).rounded = .array [.object o, .int 1] := by
  have hone : one.toInt32? = some 1 := by decide +kernel
  have hsign : one.isNegativeZero = false := by decide +kernel
  simp [HostValue.rounded, HostValue.roundedItems, hone, hsign]

/-- Whether a global is about to be read. -/
def isFetchable (s : Session) : Bool :=
  s.tidy?.isNone && (s.engine? 0).isSome &&
    match s.control with
    | .operate 0 (.getVariable name) => decide (name = "x")
    | _ => false

lemma isFetchable_iff : isFetchable s = true ↔ s.tidy? = none ∧ (s.engine? 0).isSome ∧
    s.control = .operate 0 (Spot.global "x").read := by
  rw [isFetchable, Bool.and_eq_true, Bool.and_eq_true, Option.isNone_iff_eq_none, and_assoc]
  refine and_congr_right' (and_congr_right' ?_)
  split
  · next name hc => rw [hc, decide_eq_true_iff]; simp [Spot.read]
  · next hc => exact ⟨nofun, fun h => absurd h (hc "x")⟩

/-- An array of an object and a number that was stored in a global comes back, with an integer in
place of the number. -/
theorem stored_comes_back_fetching : ∃ s₁ s₂ s₃ o, s₁ ∈ fetching ∧ fetching.head? = some s₂ ∧
    Quietly 0 s₁ s₂ ∧ Results s₂ 0 (.ok (.array [.object o, .int 1])) s₃ := by
  have hstowable : stowing.head?.map isStowable = some true := by decide +kernel
  have hend : (follow 40 stowing).head?.all (·.step?.isNone) = true := by decide +kernel
  have hi : Intact 0 stowing := intact_of_all (by decide +kernel)
  have hmem : ∀ u ∈ follow 40 stowing, u ∈ fetching := fun u hu =>
    mem_tell_of_mem (mem_follow_of_mem (mem_settleDown_of_mem hu))
  have h := history_stowing
  generalize stowing = hist at hstowable hend hi hmem h
  cases hist with
  | nil => cases hstowable
  | cons s older =>
  rw [List.head?_cons, Option.map_some, Option.some_inj, isStowable, Bool.and_eq_true,
    Option.isNone_iff_eq_none] at hstowable
  obtain ⟨ht, hcheck⟩ := hstowable
  split at hcheck
  case h_2 => cases hcheck
  case h_1 o br e ho hbr he =>
  simp only [Bool.and_eq_true, decide_eq_true_iff] at hcheck
  obtain ⟨⟨⟨⟨hroom, hlength, hdepth⟩, hopen⟩, hbare⟩, hkind⟩ := hcheck
  have hassignable : e.heap.Assignable Intrinsic.global (Spot.global "x").key := by
    refine ⟨fun p length hp hk => ?_, Heap.yields_of_ascend hopen fun _ => id⟩
    rw [hp, Option.map_some, hk] at hkind
    cases hkind
  have hname : (Spot.global "x").name ≠ "" := by simp [Spot.name]
  obtain ⟨s₁, slots, hresults, -, hback⟩ := stored_comes_back h hi he
    (control_of_stowing? ho) ht hname (fits_stowed o hlength hdepth)
    (fun br' hbr' herror => by
      obtain rfl : br = br' := Option.some.inj (hbr.symm.trans hbr')
      rw [herror] at hroom
      cases hroom) rfl hassignable
    fun _ i => Heap.yields_of_ascend hbare fun p hp => Heap.isOpenAt_of_isBare hp i
  -- The end of the first operation is the only one before the second operation starts.
  have hs₁ : s₁ ∈ fetching := hmem s₁ (mem_follow hresults.proceeds hend)
  have hfetchable : fetching.head?.map isFetchable = some true := by decide +kernel
  have hidle : idleSince 0 isOver fetching = true := by decide +kernel
  have hunique : (fetching.filter isOver).length = 1 := by decide +kernel
  have h₂ := history_fetching
  generalize fetching = hist at hs₁ hfetchable hidle hunique h₂ ⊢
  cases hist with
  | nil => cases hfetchable
  | cons s₂ older₂ =>
  have hquiet := quietly_of_unique h₂ hidle hunique hs₁ hresults.isOver
  rw [List.head?_cons, Option.map_some, Option.some_inj, isFetchable_iff] at hfetchable
  obtain ⟨ht₂, he₂, hc₂⟩ := hfetchable
  obtain ⟨-, s₃, hresults₃, -⟩ := hback s₂ hquiet hc₂ ht₂ he₂
  rw [rounded_stowed] at hresults₃
  exact ⟨s₁, s₂, s₃, o, hs₁, rfl, hquiet, hresults₃⟩

/-! ### Values that do not come back -/

/-- A program that runs a script, makes a value a global, and reads that. -/
def restoring (script : Expr) (v : Template) : List Session :=
  follow 40 (tell 0 (.getVariable "x") (obey 40 0 (.setVariable "x" v) none
    (obey 60 0 (.evaluate script) none (made [bareType] [{}]))))

lemma history_restoring (script : Expr) (v : Template) :
    History [bareType] [{}] (restoring script v) :=
  ((((history_made (by decide +kernel)).obey ..).obey ..).tell ..).follow _

/-- A script that puts a function in the place of the class of stand-ins. -/
def replaceProxy : Expr := .op (.assign "Proxy") [.function (.op (.object ["k"]) [.int 1])]

/-- A script that gives arrays a setter for their first element. -/
def takeFirst : Expr := .defineSetter (.op (.get "prototype") [.var "Array"]) "0" (.int 7)

/-- A program that tries to make a value a global without a name. -/
def unnamed : List Session :=
  follow 1 (tell 0 (.setVariable "" (.plain (.int 1))) (made [bareType] [{}]))

/-- The error with which an operation has ended. -/
def failure? (s : Session) : Option BridgeError :=
  match s.control with
  | .done (.error (.operation e)) => some e
  | _ => none

/-- Whether an operation has given an empty array. -/
def gaveEmpty (s : Session) : Bool :=
  match s.control with
  | .done (.ok (.array [])) => true
  | _ => false

/-- Not every value comes back: a host object does not where script has put a function in the place
of the class of stand-ins, an array does not where arrays inherit a setter for an element, and
without a name nothing is stored at all. -/
theorem storage_lost :
    (History [bareType] [{}] (restoring replaceProxy (.fresh 0 "x" [])) ∧
      ((restoring replaceProxy (.fresh 0 "x" [])).find? isOver).bind failure? =
        some (.ofHost (.invalidSlot firstSlot))) ∧
    (History [bareType] [{}] (restoring takeFirst (.array [.plain (.int 1)])) ∧
      ((restoring takeFirst (.array [.plain (.int 1)])).find? isOver).any gaveEmpty = true) ∧
    (History [bareType] [{}] unnamed ∧ unnamed.head?.bind failure? = some emptyName) := by
  refine ⟨⟨history_restoring .., by decide +kernel⟩, ⟨history_restoring .., by decide +kernel⟩,
    ?_, by decide +kernel⟩
  exact ((history_made (by decide +kernel)).tell ..).follow _

end Session

end ScriptBridge
