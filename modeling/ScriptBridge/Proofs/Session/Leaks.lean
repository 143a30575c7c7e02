/-
# No slot leaks

Outside all operations an occupied slot either has a stand-in, one for each slot, or it is
still to be given up; and when nothing is left to do, none is still to be given up.  A
collection leaves stand-ins that can be reached only.
-/
import Mathlib.Data.List.Pairwise
import ScriptBridge.Proofs.Engine.Collect
import ScriptBridge.Proofs.Session.Resolution

namespace ScriptBridge

open ScriptBridge.Bridge ScriptBridge.Host ScriptBridge.Script ScriptBridge.Table
open ScriptBridge.Wire

/-! ### Stand-ins and their slots -/

/-- The slot of the host entry that an object stands for, if it is a stand-in. -/
def Script.Object.standInSlot? (o : Object) : Option Slot :=
  match o.kind with
  | .proxy slot _ => some slot
  | _ => none

namespace Engine

variable {e : Engine} {slot : Slot}

/-- The slots of all stand-ins, once for each stand-in. -/
def standInSlots (e : Engine) : List Slot := e.heap.objects.filterMap fun (_, o) => o.standInSlot?

lemma standInSlot?_eq_some {o : Object} :
    o.standInSlot? = some slot ↔ ∃ t, o.kind = .proxy slot t := by
  unfold Script.Object.standInSlot?
  cases o.kind <;> simp

lemma mem_standInSlots (hs : e.heap.Sound) : slot ∈ e.standInSlots ↔ e.HasStandIn slot := by
  simp only [standInSlots, List.mem_filterMap, Prod.exists, hs.mem_iff, standInSlot?_eq_some,
    HasStandIn]
  exact ⟨fun ⟨r, o, ho, t, hk⟩ => ⟨r, o, t, ho, hk⟩, fun ⟨r, o, t, ho, hk⟩ => ⟨r, o, ho, t, hk⟩⟩

/-- What is kept twice is no list without repetitions. -/
lemma eq_of_nodup_slotsOf {objects : List (Ref × Object)} (h : (slotsOf objects).Nodup)
    {r r' : Ref} {o o' : Object} (hr : (r, o) ∈ objects) (hr' : (r', o') ∈ objects)
    (ho : o.slot? = some slot) (ho' : o'.slot? = some slot) : (r, o) = (r', o') := by
  by_contra hne
  have : Std.Symm fun x y : Ref × Object =>
      ∀ s, x.2.slot? = some s → ∀ s', y.2.slot? = some s' → s ≠ s' :=
    ⟨fun x y hxy s hs s' hs' heq => hxy s' hs' s hs heq.symm⟩
  exact (List.pairwise_filterMap.1 h).forall hr hr' hne slot ho slot ho' rfl

/-- No two stand-ins have the same slot. -/
lemma nodup_standInSlots (hh : e.Honest) (hn : e.heldSlots.Nodup) : e.standInSlots.Nodup := by
  have hplaces : e.heap.objects.Pairwise fun x y => x.1 ≠ y.1 :=
    List.pairwise_map.1 hh.sound.nodup
  refine List.pairwise_filterMap.2 (hplaces.imp_of_mem ?_)
  rintro ⟨r, o⟩ ⟨r', o'⟩ hr hr' hne s hs s' hs' rfl
  obtain ⟨t, hk⟩ := standInSlot?_eq_some.1 hs
  obtain ⟨t', hk'⟩ := standInSlot?_eq_some.1 hs'
  have hg := hh.sound.get?_of_mem hr
  have hg' := hh.sound.get?_of_mem hr'
  obtain ⟨p, hp, hslot⟩ := hh.standIns.token trivial r o s t hg hk
  obtain ⟨p', hp', hslot'⟩ := hh.standIns.token trivial r' o' s t' hg' hk'
  -- The two have one token, and so they are one.
  have htoken := eq_of_nodup_slotsOf hn (Heap.mem_of_get? hp) (Heap.mem_of_get? hp') hslot hslot'
  cases htoken
  exact hne (hh.standIns.single trivial r r' o o' s s t hg hk hg' hk')

end Engine

namespace Session

variable {k k' : List ForeignObject} {s : Session} {b : Nat} {x y : Side} {types : List HostType}
  {setups : List Setup}
  {hist older : List Session}

/-! ### Outside all operations -/

/-- Outside all operations, an engine that is not at work has nothing left to do. -/
lemma AtRest.eq_of_quiet {T : List Mark} {c : Engine.Control} {st : List Engine.Frame}
    (h : AtRest T c st) (hs : .scope ∉ T) (hr : ∀ p, .running p ∉ T) : c = .idle ∧ st = [] := by
  have htail : ∀ {m : Mark} {T : List Mark}, (∀ p, .running p ∉ m :: T) → ∀ p, .running p ∉ T :=
    fun h p hm => h p (List.mem_cons_of_mem _ hm)
  induction h with
  | nil => exact ⟨rfl, rfl⟩
  | other h ih => exact ih (fun hm => hs (List.mem_cons_of_mem _ hm)) (htail hr)
  | scope h => exact absurd (List.mem_cons_self ..) hs
  | decode hm h => exact absurd (List.mem_cons_of_mem _ hm) hs
  | perform hm h => exact absurd (List.mem_cons_of_mem _ hm) hs
  | drain hm h ih => exact ih hm (htail hr)
  | awaits hm hs' hb h =>
    exact absurd (List.mem_cons_of_mem _ (List.mem_cons_of_mem _ hs')) hs
  | gives hs' hc h => exact absurd (List.mem_cons_of_mem _ (List.mem_cons_self ..)) (hr .nothing)

/-- Outside all operations an occupied slot has a stand-in or is still to be given up. -/
lemma Side.Faithful.perm_occupied (hx : x.Faithful) (hs : .scope ∉ x.trail)
    (hr : ∀ p, .running p ∉ x.trail) :
    (x.engine.standInSlots ++ x.deferred ++ x.trail.flatMap Mark.slots).Perm
      x.arena.occupied := by
  obtain ⟨e, a, q, T⟩ := x
  -- The engine rests, so that only its heap keeps slots, and there each has its stand-in.
  have hengine : .engine ∉ T := fun hm => by
    obtain ⟨p, hp⟩ := hx.nested.exists_running hm
    exact hr p hp
  have hrests := hx.nested.atRest_of_ne fun hhead => hengine (List.mem_of_head? hhead)
  obtain ⟨hcontrol, hstack⟩ := hrests.eq_of_quiet hs hr
  have hclean := hx.clean hengine
  dsimp only at hcontrol hstack hclean ⊢
  have hholders : Side.holders ⟨e, a, q, T⟩ = e.heldSlots ++ q ++ T.flatMap Mark.slots := by
    simp only [Side.holders, Engine.custody, hclean.released, hcontrol, hstack,
      Engine.Control.inbound, List.flatMap_nil, List.append_nil]
  have hnodup := hx.nodup
  have hoccupied := hx.occupied
  rw [hholders] at hnodup hoccupied
  have hheld : e.heldSlots.Nodup := (List.nodup_append.1 (List.nodup_append.1 hnodup).1).1
  have hperm : e.standInSlots.Perm e.heldSlots := by
    refine (List.perm_ext_iff_of_nodup (Engine.nodup_standInSlots hx.honest hheld) hheld).2 ?_
    intro slot
    rw [Engine.mem_standInSlots hx.sound]
    refine ⟨hx.honest.mem_heldSlots_of_hasStandIn, fun hm => ?_⟩
    refine hx.honest.hasStandIn_of_mem_heldSlots hclean ?_ hm
    rw [hcontrol]
    trivial
  refine ((hperm.append_right q).append_right _).trans ?_
  refine (List.perm_ext_iff_of_nodup hnodup (Arena.nodup_occupied a)).2 fun slot => ?_
  rw [hoccupied, Arena.mem_occupied]

lemma not_scope_of_inCall (h : s.inCall b = false) : .scope ∉ s.trail b := fun hm => by
  rcases List.mem_cons.1 hm with hm | hm
  · generalize s.control = ctl at hm
    cases ctl <;> simp only [Control.mark] at hm <;> first | cases hm | (split at hm <;> cases hm)
  · exact not_scope_of_any h hm

lemma not_running_of_isBusy (h : s.isBusy b = false) (p : Purpose) : .running p ∉ s.trail b :=
  fun hm => by
    rcases List.mem_cons.1 hm with hm | hm
    · generalize s.control = ctl at hm
      cases ctl <;> simp only [Control.mark] at hm <;>
        first | cases hm | (split at hm <;> cases hm)
    · obtain ⟨f, hf, hmark⟩ := List.mem_map.1 hm
      have hbusy : s.isBusy b = true := by
        refine List.any_eq_true.2 ⟨f, hf, ?_⟩
        rw [Frame.eq_running_of_mark hmark]
        exact beq_self_eq_true b
      rw [h] at hbusy
      cases hbusy

/-! ### After a collection -/

/-- The engine of a bridge collects within an operation. -/
structure Side.Collecting (x : Side) : Prop where
  head : x.trail.head? = some .engine
  scope : .scope ∈ x.trail
  stack : ∃ c rest, x.engine.stack = .entry c :: rest
  collects : x.engine.Collects

/-- A collection starts within an operation. -/
lemma Side.Accounted.collecting (hx : x.Accounted) (hhead : x.trail.head? = some .engine)
    (hc : x.engine.control = .begin .collect) : x.Collecting := by
  obtain ⟨e, a, q, T⟩ := x
  obtain ⟨T, rfl⟩ : ∃ T', T = .engine :: T' := by
    cases T with
    | nil => cases hhead
    | cons m T => exact ⟨T, congrArg (· :: T) (Option.some.inj hhead)⟩
  have hfits := hx.shaped.fits
  rw [hc] at hfits
  refine ⟨rfl, ?_, hfits, .starts hc⟩
  obtain ⟨p, T', c, st, rfl, -, -, hscope | ⟨-, hrelease, -⟩⟩ := hx.nested.of_engine
  · exact List.mem_cons_of_mem _ (List.mem_cons_of_mem _ hscope)
  · rw [hc] at hrelease
    exact hrelease.elim

/-- A collection goes on within its operation until it ends. -/
lemma Moves.collecting (h : Moves k k' x y) (hx : x.Accounted) (hc : x.Collecting) :
    y.Collecting ∨ y.trail.head? ≠ some .engine ∧ y.engine.AllReached := by
  obtain ⟨e, a, q, T⟩ := x
  obtain ⟨hhead, hs, ⟨c, rest, hstack⟩, hcollects⟩ := hc
  have hstep := hcollects.step hx.sound hstack
  have hscope : ∀ {T : List Mark}, .scope ∈ Mark.engine :: T → .scope ∈ T := fun hm =>
    (List.mem_cons.1 hm).resolve_left (by simp)
  cases h with
  | @plain _ _ _ os os' T hos hos' hT =>
    cases os with
    | nil => exact absurd hhead (hT rfl)
    | cons m os =>
      rw [(List.forall_mem_cons.1 hos).1] at hhead
      cases hhead
  | works he | defers he hi =>
    rcases hstep with ⟨-, hc', hstack'⟩ | ⟨hfinished, -⟩
    · exact .inl ⟨rfl, hs, ⟨c, rest, hstack'.trans hstack⟩, hc'⟩
    · rw [he] at hfinished
      cases hfinished
  | unpins he hi ht | misses he hi ht => exact absurd (hscope hs) hi
  | refuses he | calls he | takes he hr | pins he hm =>
    rcases hstep with ⟨hturn, -⟩ | ⟨hfinished, -⟩
    · rw [he] at hturn
      cases hturn
    · rw [he] at hfinished
      cases hfinished
  | @finishes _ _ _ r p T he =>
    rcases hstep with ⟨hturn, -⟩ | ⟨-, hreached⟩
    · rw [he] at hturn
      cases hturn
    · refine .inr ⟨?_, hreached⟩
      cases p <;> simp [Purpose.mark]
  | strays h => exact absurd h hx.nested.not_astray
  | releases h hm => exact absurd (Option.some.inj hhead) hm
  | _ => cases hhead

/-- A bridge is on top of what is still to be done exactly if its engine is to go on. -/
lemma control_of_head? (hx : s.side? b = some x) :
    x.trail.head? = some .engine ↔ s.control = .engine b := by
  rw [← (side?_eq_some.1 hx).2, trail, List.head?_cons, Option.some.injEq]
  constructor
  · intro h
    generalize s.control = ctl at h
    cases ctl with
    | engine c =>
      simp only [Control.mark] at h
      split at h
      · next heq => rw [heq]
      · cases h
    | _ =>
      simp only [Control.mark] at h
      first | cases h | (split at h <;> cases h)
  · intro h
    rw [h]
    exact if_pos rfl

/-- The engine of a bridge is about to collect, or it is still at it. -/
inductive AtCollection (b : Nat) : List Session → Prop
  /-- It is about to collect. -/
  | starts {s : Session} {e : Engine} {older : List Session} (hs : s.control = .engine b)
    (he : s.engine? b = some e) (hc : e.control = .begin .collect) : AtCollection b (s :: older)
  /-- It goes on. -/
  | goes {s : Session} {older : List Session} (hs : s.control = .engine b)
    (h : AtCollection b older) : AtCollection b (s :: older)

/-- A collection was the last work of the engine of a bridge. -/
inductive Collected (b : Nat) : List Session → Prop
  /-- It has just ended. -/
  | ends {s : Session} {older : List Session} (hs : s.control ≠ .engine b)
    (h : AtCollection b older) : Collected b (s :: older)
  /-- It ended before. -/
  | rests {s : Session} {older : List Session} (hs : s.control ≠ .engine b)
    (h : Collected b older) : Collected b (s :: older)

/-- A collection goes on as long as the engine is at work. -/
lemma History.collecting (h : History types setups hist) (hc : AtCollection b hist)
    (hs : hist.head? = some s) (hx : s.side? b = some x) : x.Collecting := by
  induction hc generalizing s x with
  | @starts t e older ht he hc =>
    cases hs
    obtain ⟨y, hy, rfl⟩ := side?_isSome_of_engine? he
    cases hx.symm.trans hy
    exact (h.accounted (List.mem_cons_self ..) hx).collecting ((control_of_head? hx).2 ht) hc
  | @goes t older ht hc ih =>
    cases hs
    cases h with
    | starts => cases hc
    | goes h hgo =>
      obtain ⟨k, w, z, hw, hmove, hrest⟩ := hgo.moves hx
      have hnow := (control_of_head? hx).2 ht
      rcases hrest with ⟨rfl, -⟩ | ⟨⟨-, hne⟩, -⟩
      · exact (hmove.collecting (h.accounted (List.mem_cons_self ..) hw)
          (ih h rfl hw)).resolve_right fun hend => hend.1 hnow
      · exact absurd hnow hne

/-- Every object can be reached as long as a collection was the last work of the engine. -/
lemma History.collected (h : History types setups hist) (hc : Collected b hist)
    (hs : hist.head? = some s) (hx : s.side? b = some x) : x.engine.AllReached := by
  -- An engine that is not at work afterwards has only changed if it was at work before.
  have hstep : ∀ {t s : Session} {x : Side}, Goes t s → s.side? b = some x →
      s.control ≠ .engine b → ∃ k w z, t.side? b = some w ∧ Moves (t.kept b) k w z ∧
        z.trail.head? ≠ some .engine ∧ x.engine = z.engine := by
    intro t s x hgo hx hs
    obtain ⟨k, w, z, hw, hmove, hrest⟩ := hgo.moves hx
    rcases hrest with ⟨rfl, -⟩ | ⟨⟨hz, -⟩, -, hengine, -⟩
    · exact ⟨k, w, x, hw, hmove, mt (control_of_head? hx).1 hs, rfl⟩
    · exact ⟨k, w, z, hw, hmove, hz, hengine⟩
  induction hc generalizing s x with
  | @ends t older ht hc =>
    cases hs
    cases h with
    | starts => cases hc
    | goes h hgo =>
      obtain ⟨k, w, z, hw, hmove, hz, hengine⟩ := hstep hgo hx ht
      rw [hengine]
      rcases hmove.collecting (h.accounted (List.mem_cons_self ..) hw) (h.collecting hc rfl hw) with
        hgoes | ⟨-, hreached⟩
      · exact absurd hgoes.head hz
      · exact hreached
  | @rests t older ht hc ih =>
    cases hs
    cases h with
    | starts => cases hc
    | @goes u _ rest h hgo =>
      obtain ⟨k, w, z, hw, hmove, hz, hengine⟩ := hstep hgo hx ht
      have hu : u.control ≠ .engine b := by cases hc <;> assumption
      rw [hengine]
      rcases hmove.engine (h.accounted (List.mem_cons_self ..) hw) with
        heq | ⟨hworks, -⟩ | ⟨-, henters, -⟩
      · rw [heq]
        exact ih h rfl hw
      · exact absurd ((control_of_head? hw).1 hworks) hu
      · exact absurd henters hz

/-! ### No leaks -/

/-- **No slot leaks.**  As long as script does not put anything in the place of the class of
stand-ins, outside all operations each occupied slot has one stand-in or is still to be given
up.  When nothing is left to do for the bridge, none is still to be given up.  If then a
collection was the last work of the engine, all stand-ins can be reached from what is always
there and from what the host refers to. -/
theorem no_leak (h : History types setups hist) (hi : Intact b hist) (hs : hist.head? = some s)
    {br : Bridge} {e : Engine} (hb : s.bridge? b = some br) (he : br.engine = some e)
    (hcall : s.inCall b = false) (hbusy : s.isBusy b = false) :
    (e.standInSlots ++ br.deferred ++ (s.trail b).flatMap Mark.slots).Perm br.arena.occupied ∧
    (Blank (s.trail b) → br.deferred = [] ∧ e.standInSlots.Perm br.arena.occupied ∧
      br.arena.occupancy.used = e.standInSlots.length) ∧
    (Blank (s.trail b) → Collected b hist →
      ∀ r o slot t, e.heap.get? r = some o → o.kind = .proxy slot t →
        e.heap.Reaches (List.range Intrinsic.count ++ e.handles.values) r) := by
  have hx : s.side? b = some ⟨e, br.arena, br.deferred, s.trail b⟩ := by
    refine side?_of_core? ?_
    rw [core?_of_bridge? hb, Bridge.core, he]
  have hfaithful := h.faithful hi (List.mem_of_head? hs) hx
  have hperm := hfaithful.perm_occupied (not_scope_of_inCall hcall) (not_running_of_isBusy hbusy)
  refine ⟨hperm, fun hblank => ?_, fun hblank hc r o slot t hr hk => ?_⟩
  · have hdeferred : br.deferred = [] := by
      by_contra hne
      rcases hfaithful.deferred hne with hm | ⟨slots, hm⟩ <;> cases hblank _ hm
    rw [hdeferred, slots_of_blank hblank, List.append_nil, List.append_nil] at hperm
    refine ⟨hdeferred, hperm, ?_⟩
    rw [← Arena.length_occupied hfaithful.regular]
    exact hperm.length_eq.symm
  · have hhead : (s.trail b).head? ≠ some .engine := fun hhead => by
      cases hblank .engine (List.mem_of_head? hhead)
    obtain ⟨hcontrol, hstack⟩ := (hfaithful.nested.atRest_of_ne hhead).eq_of_blank hblank
    have hroots : e.roots = e.handles.values := by
      dsimp only at hcontrol hstack
      simp only [Engine.roots, hcontrol, hstack]
      rfl
    have hreaches := h.collected hc hs hx r o hr
    rwa [hroots] at hreaches

/-! ### Runs -/

/-- Whether something that is still to be done means anything for a bridge. -/
def Mark.isOther : Mark → Bool
  | .other => true
  | _ => false

lemma blank_of_all {marks : List Mark} (h : marks.all Mark.isOther = true) : Blank marks :=
  fun m hm => by
    have hother := List.all_eq_true.1 h m hm
    cases m <;> first | rfl | cases hother

/-- Whether the engine of a bridge is at work. -/
def isWorking (b : Nat) (s : Session) : Bool :=
  match s.control with
  | .engine c => c == b
  | _ => false

lemma isWorking_iff : s.isWorking b = true ↔ s.control = .engine b := by
  unfold isWorking
  split
  · next c hc => rw [hc, beq_iff_eq, Control.engine.injEq]
  · next hc => exact iff_of_false Bool.false_ne_true (hc b)

/-- Whether an engine is about to collect. -/
def startsCollecting (e : Engine) : Bool :=
  match e.control with
  | .begin .collect => true
  | _ => false

/-- Whether the engine of a bridge is about to collect, or is still at it. -/
def isAtCollection (b : Nat) : List Session → Bool
  | [] => false
  | s :: older =>
    s.isWorking b && ((s.engine? b).any startsCollecting || isAtCollection b older)

/-- Whether a collection was the last work of the engine of a bridge. -/
def hasCollected (b : Nat) : List Session → Bool
  | [] => false
  | s :: older => !s.isWorking b && (isAtCollection b older || hasCollected b older)

lemma atCollection_of_isAtCollection (h : isAtCollection b hist = true) : AtCollection b hist := by
  induction hist with
  | nil => cases h
  | cons s older ih =>
    simp only [isAtCollection, Bool.and_eq_true, Bool.or_eq_true, isWorking_iff] at h
    obtain ⟨hs, hstarts | hgoes⟩ := h
    · cases he : s.engine? b with
      | none =>
        rw [he] at hstarts
        cases hstarts
      | some e =>
        rw [he, Option.any_some] at hstarts
        unfold startsCollecting at hstarts
        split at hstarts
        · next hc => exact .starts hs he hc
        · cases hstarts
    · exact .goes hs (ih hgoes)

lemma collected_of_hasCollected (h : hasCollected b hist = true) : Collected b hist := by
  induction hist with
  | nil => cases h
  | cons s older ih =>
    simp only [hasCollected, Bool.and_eq_true, Bool.or_eq_true, Bool.not_eq_true',
      ← Bool.not_eq_true, isWorking_iff] at h
    obtain ⟨hs, hcollects | hrests⟩ := h
    · exact .ends hs (atCollection_of_isAtCollection hcollects)
    · exact .rests hs (ih hrests)

/-- A program that makes an object a global and lets its engine collect. -/
def flushed : List Session :=
  obey 60 0 .flush none (obey 60 0 (.setVariable "x" (.fresh 0 "x" [])) none
    (made [bareType] [{}]))

lemma history_flushed : History [bareType] [{}] flushed :=
  ((history_made (by decide +kernel)).obey ..).obey ..

/-- What is checked of a bridge and its engine at the end of a history holds of them. -/
lemma exists_of_check (b : Nat) (hist : List Session) (p : Session → Bridge → Engine → Bool)
    (h : (hist.head?.any fun s => (s.bridge? b).any fun br => br.engine.any fun e => p s br e) =
      true) :
    ∃ s br e, hist.head? = some s ∧ s.bridge? b = some br ∧ br.engine = some e ∧
      p s br e = true := by
  cases hs : hist.head? with
  | none =>
    rw [hs] at h
    cases h
  | some s =>
    rw [hs, Option.any_some] at h
    cases hb : s.bridge? b with
    | none =>
      rw [hb] at h
      cases h
    | some br =>
      rw [hb, Option.any_some] at h
      cases he : br.engine with
      | none =>
        rw [he] at h
        cases h
      | some e =>
        rw [he, Option.any_some] at h
        exact ⟨s, br, e, rfl, hb, he, h⟩

/-- After a collection the one slot of a program belongs to the one stand-in of it, which
can be reached. -/
theorem no_leak_flushed : ∃ s br e, flushed.head? = some s ∧ s.bridge? 0 = some br ∧
    br.engine = some e ∧ br.arena.occupancy.used = 1 ∧ br.deferred = [] ∧
      e.standInSlots.Perm br.arena.occupied ∧ e.standInSlots.length = 1 ∧
        ∀ r o slot t, e.heap.get? r = some o → o.kind = .proxy slot t →
          e.heap.Reaches (List.range Intrinsic.count ++ e.handles.values) r := by
  obtain ⟨s, br, e, hs, hb, he, hcheck⟩ := exists_of_check 0 flushed
    (fun s br _ => !s.inCall 0 && !s.isBusy 0 && (s.trail 0).all Mark.isOther &&
      br.arena.occupancy.used == 1) (by decide +kernel)
  simp only [Bool.and_eq_true, Bool.not_eq_true', beq_iff_eq] at hcheck
  obtain ⟨⟨⟨hcall, hbusy⟩, hother⟩, hused⟩ := hcheck
  obtain ⟨-, hrest, hreaches⟩ := no_leak history_flushed
    (intact_of_all (by decide +kernel)) hs hb he
    hcall hbusy
  obtain ⟨hdeferred, hperm, hlength⟩ := hrest (blank_of_all hother)
  exact ⟨s, br, e, hs, hb, he, hused, hdeferred, hperm, hlength.symm.trans hused,
    hreaches (blank_of_all hother) (collected_of_hasCollected (by decide +kernel))⟩

/-- A host type with a method that keeps what it is given. -/
def keeperType : HostType where
  name := "Keeper"
  description := .ofRegistrations "Keeper" [.method "keep" [.any] (.store "f" .any 0)]

/-- A program whose script leaves an object with a keeper and forgets both in cycles, and
that then lets its engine collect.  What the keeper keeps refers to a second object. -/
def keeping : List Session :=
  obey 60 0 .flush none
    (obey 200 0 (.evaluate (.seq [
        .op (.assign "c") [.op (.object ["p"]) [.var "p"]],
        .op (.put "me") [.var "c", .var "c"],
        .callMember (.var "x") "keep" [.var "c"],
        .op (.assign "c") [.null],
        .op (.assign "p") [.null],
        .op (.assign "w") [.op (.object ["x"]) [.var "x"]],
        .op (.put "me") [.var "w", .var "w"],
        .op (.assign "x") [.null],
        .op (.assign "w") [.null]])) none
      (obey 60 0 (.setVariable "p" (.fresh 1 "p" [])) none
        (obey 60 0 (.setVariable "x" (.fresh 0 "x" [])) none
          (made [keeperType, bareType] [{}]))))

/-- A program whose script puts a function in the place of the class of stand-ins, and keeps
what the function is called with. -/
def hoarding : List Session :=
  obey 60 0 (.setVariable "x" (.fresh 0 "x" [])) none
    (obey 60 0 (.evaluate (.op (.assign "Proxy") [.function (.op (.assign "kept") [.arg 1])])) none
      (made [bareType] [{}]))

/-- A slot is left although no stand-in can be reached, where letting go of an entry gives
back a script object; and a slot is left although there is no stand-in at all, where script
has put something in the place of the class of stand-ins. -/
theorem slots_left :
    (History [keeperType, bareType] [{}] keeping ∧ ∃ s br e, keeping.head? = some s ∧
      s.frames.isEmpty = true ∧ s.bridge? 0 = some br ∧ br.engine = some e ∧
        br.arena.occupancy.used = 1 ∧ ∀ r o slot t, e.heap.get? r = some o →
          o.kind = .proxy slot t →
            ¬ e.heap.Reaches (List.range Intrinsic.count ++ e.handles.values) r) ∧
    (History [bareType] [{}] hoarding ∧ ∃ s br e, hoarding.head? = some s ∧
      s.frames.isEmpty = true ∧ s.bridge? 0 = some br ∧ br.engine = some e ∧
        br.arena.occupancy.used = 1 ∧ e.standInSlots = []) := by
  refine ⟨⟨((((history_made (by decide +kernel)).obey ..).obey ..).obey ..).obey .., ?_⟩,
    ⟨((history_made (by decide +kernel)).obey ..).obey .., ?_⟩⟩
  · obtain ⟨s, br, e, hs, hb, he, hcheck⟩ := exists_of_check 0 keeping
      (fun s br e => s.frames.isEmpty && br.arena.occupancy.used == 1 &&
        e.heap.objects.all fun x => x.2.standInSlot?.isNone ||
          !(e.heap.reachable (List.range Intrinsic.count ++ e.handles.values)).contains x.1)
      (by decide +kernel)
    rw [Bool.and_eq_true, Bool.and_eq_true, beq_iff_eq] at hcheck
    obtain ⟨⟨hframes, hused⟩, hnone⟩ := hcheck
    refine ⟨s, br, e, hs, hframes, hb, he, hused, fun r o slot t hr hk hreaches => ?_⟩
    have hm := Heap.mem_reachable_of_reaches hreaches (by rw [hr]; rfl)
    have hthis := List.all_eq_true.1 hnone (r, o) (Heap.mem_of_get? hr)
    rw [Engine.standInSlot?_eq_some.2 ⟨t, hk⟩] at hthis
    simp [hm] at hthis
  · obtain ⟨s, br, e, hs, hb, he, hcheck⟩ := exists_of_check 0 hoarding
      (fun s br e => s.frames.isEmpty && br.arena.occupancy.used == 1 &&
        e.standInSlots.isEmpty) (by decide +kernel)
    rw [Bool.and_eq_true, Bool.and_eq_true, beq_iff_eq] at hcheck
    obtain ⟨⟨hframes, hused⟩, hnone⟩ := hcheck
    exact ⟨s, br, e, hs, hframes, hb, he, hused, List.isEmpty_iff.1 hnone⟩

end Session

end ScriptBridge
