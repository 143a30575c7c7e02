/-
# Records that land in script

Once script may watch how a record becomes a value, that is done in small steps, between which
things may be let go.  None of them calls script, as long as the class of stand-ins is found
under its name and nothing that arrays inherit from takes their elements.  So the value mirrors
the record all the same, and what could be reached before is as it was.
-/
import ScriptBridge.Proofs.Engine.Alone
import ScriptBridge.Proofs.Engine.Mirror

namespace ScriptBridge

open ScriptBridge.Script ScriptBridge.Table ScriptBridge.Wire

/-! ### Properties that nothing stands in the way of -/

/-- Whether a property takes another value in its place. -/
def Script.Property.isOpen : Property → Bool
  | .data _ | .unmade => true
  | _ => false

namespace Script.Heap

variable {h h' : Heap} {g q : Ref} {key : Key}

/-- An object is another one, or the other one inherits from it. -/
inductive Above (h : Heap) (g : Ref) : Ref → Prop
  | self : Above h g g
  | parent {p q : Ref} {o : Object} (hp : Above h g p) (ho : h.get? p = some o)
    (hq : o.parent = some q) : Above h g q

/-- Neither an object nor anything it inherits from is a stand-in or has an accessor or a fixed
value for a key. -/
def Yields (h : Heap) (g : Ref) (key : Key) : Prop :=
  ∀ q, h.Above g q → ∃ o, h.get? q = some o ∧ (∀ s k, o.kind ≠ .proxy s k) ∧
    ∀ p, o.own? key = some p → p.isOpen = true

lemma Yields.searchTaker (hy : h.Yields g key) (fuel : Nat) {parent : Option Ref}
    (hp : ∀ q, parent = some q → h.Above g q) : h.searchTaker key fuel parent = .nothing := by
  induction fuel generalizing parent with
  | zero => rfl
  | succ fuel ih =>
    cases parent with
    | none => rfl
    | some q =>
      obtain ⟨o, hq, hk, hopen⟩ := hy q (hp q rfl)
      have hnext : h.searchTaker key fuel o.parent = .nothing :=
        ih fun q' hq' => .parent (hp q rfl) hq hq'
      rw [Heap.searchTaker, hq]
      dsimp only
      split
      · next hkind => exact absurd hkind (hk _ _)
      · rfl
      · next hown => cases hopen _ hown
      · next hown => cases hopen _ hown
      · exact hnext

lemma Above.keep (hy : h.Yields g key)
    (hkeep : ∀ q p, h.Above g q → h.get? q = some p → h'.get? q = some p)
    (hq : h'.Above g q) : h.Above g q := by
  induction hq with
  | self => exact .self
  | @parent p q o hp ho hparent ih =>
    obtain ⟨o', ho', -⟩ := hy p ih
    have hsame := (hkeep p o' ih ho').symm.trans ho
    exact .parent ih ho' (Option.some.inj hsame ▸ hparent)

lemma Yields.keep (hy : h.Yields g key)
    (hkeep : ∀ q p, h.Above g q → h.get? q = some p → h'.get? q = some p) : h'.Yields g key := by
  intro q hq
  have hq' := hq.keep hy hkeep
  obtain ⟨o, ho, hrest⟩ := hy q hq'
  exact ⟨o, hkeep q o hq' ho, hrest⟩

/-- Whether an object and all that it inherits from pass a test, if they are so many at most. -/
def ascend (h : Heap) (test : Object → Bool) : Nat → Ref → Bool
  | 0, _ => false
  | fuel + 1, q =>
    match h.get? q with
    | none => false
    | some o => test o && o.parent.all (h.ascend test fuel)

lemma exists_of_ascend {test : Object → Bool} {fuel : Nat} (ht : h.ascend test fuel g = true)
    (hq : h.Above g q) : ∃ o, h.get? q = some o ∧ test o = true := by
  -- What an object inherits from passes with less fuel.
  suffices hall : ∃ fuel, h.ascend test fuel q = true by
    obtain ⟨fuel, ht⟩ := hall
    cases fuel with
    | zero => cases ht
    | succ fuel =>
      rw [ascend] at ht
      split at ht
      · cases ht
      · next o ho => exact ⟨o, ho, (Bool.and_eq_true_iff.1 ht).1⟩
  induction hq with
  | self => exact ⟨fuel, ht⟩
  | @parent p q o _ ho hq ih =>
    obtain ⟨fuel, ht⟩ := ih
    cases fuel with
    | zero => cases ht
    | succ fuel =>
      rw [ascend, ho] at ht
      dsimp only at ht
      rw [hq] at ht
      exact ⟨fuel, (Bool.and_eq_true_iff.1 ht).2⟩

/-- Whether an object is no stand-in, and takes another value for a key. -/
def isOpenAt (key : Key) (o : Object) : Bool :=
  (match o.kind with | .proxy .. => false | _ => true) && (o.own? key).all Property.isOpen

/-- Whether an object is no stand-in, and has no elements. -/
def isBare (o : Object) : Bool :=
  (match o.kind with | .proxy .. | .boxed _ => false | _ => true) &&
    o.properties.all fun (key, _) => match key with | .index _ => false | _ => true

lemma isOpenAt_of_isBare {o : Object} (ho : isBare o = true) (i : Nat) :
    isOpenAt (.index i) o = true := by
  rw [isBare, Bool.and_eq_true, List.all_eq_true] at ho
  obtain ⟨hk, hp⟩ := ho
  have hlookup : o.properties.lookup (.index i) = none := by
    rw [List.lookup_eq_none_iff]
    rintro ⟨key, p⟩ hm
    have hkey := hp _ hm
    cases key <;> first | rfl | cases hkey
  rw [isOpenAt, Object.own?, hlookup]
  cases hkind : o.kind <;> rw [hkind] at hk <;> first | rfl | cases hk

/-- Nothing stands in the way of a property if all objects above are open. -/
lemma yields_of_ascend {test : Object → Bool} {fuel : Nat} (ht : h.ascend test fuel g = true)
    (htest : ∀ o, test o = true → isOpenAt key o = true) : h.Yields g key := by
  intro q hq
  obtain ⟨o, ho, hpass⟩ := exists_of_ascend ht hq
  have hopen := htest o hpass
  rw [isOpenAt, Bool.and_eq_true] at hopen
  refine ⟨o, ho, fun s k hk => ?_, fun p hp => ?_⟩
  · rw [hk] at hopen
    cases hopen.1
  · rw [hp] at hopen
    exact hopen.2

end Script.Heap

/-! ### Records whose arrival only the class of stand-ins takes part in -/

/-- Whether a view is neither one of a date nor one of an error that has to be made. -/
def Wire.View.isCalm : View → Bool
  | .date _ | .unknownError _ => false
  | _ => true

namespace Wire.Record

mutual
/-- No part of a record is a date or an error that has to be made. -/
def IsCalm : Record → Prop
  | .plain tag bits length => ∀ v, (Record.plain tag bits length).view = .ok v → v.isCalm = true
  | .text kind bytes => ∀ v, (Record.text kind bytes).view = .ok v → v.isCalm = true
  | .array items => AreCalm items

/-- No part of some records is such. -/
def AreCalm : List Record → Prop
  | [] => True
  | r :: rs => IsCalm r ∧ AreCalm rs
end

lemma IsCalm.isCalm_view {r : Record} {v : View} (hc : r.IsCalm) (hn : ∀ items, r ≠ .array items)
    (hv : r.view = .ok v) : v.isCalm = true := by
  cases r with
  | array items => exact absurd rfl (hn items)
  | _ => exact hc v hv

end Wire.Record

namespace Engine

variable {e e' e'' e₀ : Engine} {h : Heap} {t : Handles Ref} {n q array : Ref} {r : Record}
  {v w : Value} {key : Key} {vs ws : List Value}

/-! ### Steps of one kind -/

lemma find_own {o : Object} {p : Property} (hq : h.get? q = some o)
    (hk : ∀ slot token, o.kind ≠ .proxy slot token) (ho : o.own? key = some p) :
    h.find q key = .property q p := by
  rw [Heap.find, Heap.search, hq]
  dsimp only
  rw [ho]
  cases hkind : o.kind <;> first | rfl | exact absurd hkind (hk _ _)

lemma proceed_ret {f : Frame} {l : List Frame} (hc : e.control = .ret v)
    (hs : e.stack = f :: l) :
    e.proceed = (({ e with stack := l } : Engine).retStep f v, .silent) := by
  simp only [proceed, hc, popWith, hs]

lemma proceed_own {o : Object} (hc : e.control = .read (.object q) key)
    (hq : e.heap.get? q = some o) (hk : ∀ slot token, o.kind ≠ .proxy slot token)
    (ho : o.own? key = some (.data v)) : e.proceed = (e.give v, .silent) := by
  simp only [proceed, hc, readStep, find_own hq hk ho, giveFound]

/-! ### What stays -/

/-- What could be reached is as it was, and can still be reached. -/
structure Retains (e e' : Engine) : Prop where
  roots : e.roots ⊆ e'.roots
  get? : ∀ q o, e.Reached q → e.heap.get? q = some o → e'.heap.get? q = some o
  next_le : e.heap.next ≤ e'.heap.next

namespace Retains

lemma reached (hr : Retains e e') (hq : e.Reached q) : e'.Reached q := by
  induction hq with
  | root hm =>
    refine .root (List.mem_append.2 ?_)
    exact (List.mem_append.1 hm).imp_right fun hm => hr.roots hm
  | step hq ho hl ih => exact .step ih (hr.get? _ _ hq ho) hl

lemma trans (h₁ : Retains e e') (h₂ : Retains e' e'') : Retains e e'' where
  roots := List.Subset.trans h₁.roots h₂.roots
  get? q o hq ho := h₂.get? q o (h₁.reached hq) (h₁.get? q o hq ho)
  next_le := Nat.le_trans h₁.next_le h₂.next_le

/-- The same where frames have gone that were put on the stack meanwhile. -/
lemma of_roots (hr : Retains e e') (hroots : e.roots ⊆ e''.roots)
    (hget : ∀ q o, e.Reached q → e'.heap.get? q = some o → e''.heap.get? q = some o)
    (hnext : e'.heap.next ≤ e''.heap.next) : Retains e e'' where
  roots := hroots
  get? q o hq ho := hget q o hq (hr.get? q o hq ho)
  next_le := Nat.le_trans hr.next_le hnext

lemma yields (hr : Retains e e') (hy : e.heap.Yields q key) (hq : e.Reached q) :
    e'.heap.Yields q key := by
  refine hy.keep fun p o hp ho => hr.get? p o ?_ ho
  clear ho
  induction hp with
  | self => exact hq
  | parent hp ho hparent ih => exact .step ih ho (Object.mem_refs.2 (.inl hparent))

lemma mirrors (hr : Retains e e') (hm : Mirrors n e.heap t r v) (hv : ∀ q ∈ v.refs, e.Reached q) :
    Mirrors n e'.heap t r v :=
  hm.keep (fun _ _ hq ho _ hl => .step hq ho hl) (fun q o hq _ ho => hr.get? q o hq ho) hv

end Retains

lemma Spares.retains (hs : e.Spares h) : Retains e { e with heap := h, released := [] } where
  roots := List.Subset.refl _
  get? q _ hq ho := (hs.get? q hq).trans ho
  next_le := Nat.le_of_eq hs.next.symm

lemma Extends.retains (hx : Extends e e') (hroots : e.roots ⊆ e''.roots)
    (hheap : e''.heap = e'.heap) : Retains e e'' where
  roots := hroots
  get? q o _ ho := by
    rw [hheap]
    exact hx.get? q o ho
  next_le := hheap ▸ hx.next_le

/-- One piece of work, once all has been let go of that nothing refers to. -/
lemma exists_runs (e : Engine) (hs : e.heap.Sound) :
    ∃ h, e.Spares h ∧
      ∀ e', ({ e with heap := h, released := [] } : Engine).proceed = (e', .silent) →
        RunsWhile e.Stays e e' := by
  obtain ⟨h, hruns, hspares, hclean⟩ := exists_cleared e hs
  exact ⟨h, hspares, fun e' hp => hruns.tail ⟨⟨rfl, rfl⟩, hclean.continues hp⟩⟩

/-! ### What arrives without a call -/

/-- The class of stand-ins is found under its name, and nothing that arrays inherit from stands in
the way of elements, if a record has any. -/
structure Admits (e : Engine) (r : Record) : Prop where
  proxy : ∃ o, e.heap.get? Intrinsic.global = some o ∧ (∀ s k, o.kind ≠ .proxy s k) ∧
    o.own? (.name (Intrinsic.className .proxy)) =
      some (.data (.object (Intrinsic.classRef .proxy)))
  elements : (∃ items, r = .array items) → ∀ i, e.heap.Yields Intrinsic.arrayParent (.index i)

lemma Admits.item {items : List Record} (ha : e.Admits (.array items)) : e.Admits r :=
  ⟨ha.proxy, fun _ => ha.elements ⟨items, rfl⟩⟩

lemma reached_of_isIntrinsic (e : Engine) (hq : q < Intrinsic.count) : e.Reached q :=
  .root (List.mem_append_left _ (List.mem_range.2 hq))

lemma reached_of_control (hq : q ∈ e.control.refs) : e.Reached q :=
  .root (List.mem_append_right _ (List.mem_append_left _ (List.mem_append_left _ hq)))

lemma reached_of_frame {f : Frame} (hf : f ∈ e.stack) (hq : q ∈ f.refs) : e.Reached q :=
  .root (List.mem_append_right _ (List.mem_append_left _ (List.mem_append_right _
    (List.mem_flatMap.2 ⟨f, hf, hq⟩))))

lemma Retains.admits (hr : Retains e e') (ha : e.Admits r) : e'.Admits r where
  proxy := by
    obtain ⟨o, ho, hrest⟩ := ha.proxy
    exact ⟨o, hr.get? _ o (reached_of_isIntrinsic e Intrinsic.global_lt) ho, hrest⟩
  elements hitems i := hr.yields (ha.elements hitems i) (reached_of_isIntrinsic e (by decide))

/-- An engine is done with a record: there is a value that mirrors it, and what could be reached
before is as it was. -/
structure Lands (n : Ref) (e : Engine) (r : Record) (e' : Engine) : Prop where
  eq : ∃ w, e' = { e with heap := e'.heap, control := .ret w, released := [] } ∧
    Mirrors n e'.heap e.handles r w
  sound : e'.heap.Sound
  retains : Retains e e'

/-- Frames and handles go on referring to what they did. -/
lemma roots_subset {l : List Frame} (hc : ∀ q ∈ e.control.refs, q ∈ e'.roots)
    (hs : e'.stack = l ++ e.stack) (hh : e'.handles = e.handles) : e.roots ⊆ e'.roots := by
  intro q hq
  rw [roots, List.append_assoc] at hq
  rcases List.mem_append.1 hq with hq | hq
  · exact hc q hq
  · rw [roots, hs, hh, List.append_assoc, List.flatMap_append, List.append_assoc]
    exact List.mem_append_right _ (List.mem_append_right _ hq)

/-- What is made at once has landed. -/
lemma Lands.of_extends (hc : e.control.refs = []) (hr : e.released = []) (hs : e.heap.Sound)
    (hm : Mirrors n e'.heap e'.handles r w) (hx : Extends e e') : Lands n e r (e'.give w) where
  eq := ⟨w, by rw [hx.eq]; simp only [give, goto, hr], by
    rw [← hx.handles]
    exact hm⟩
  sound := hx.sound hs
  retains := by
    refine hx.retains (roots_subset (l := []) (by simp [hc]) ?_ hx.handles) rfl
    rw [hx.eq]
    rfl

/-- What has landed after all has been let go of that nothing refers to. -/
lemma Lands.of_spares (hs : e.Spares h)
    (hl : Lands n { e with heap := h, released := [] } r e') : Lands n e r e' where
  eq := hl.eq
  sound := hl.sound
  retains := hs.retains.trans hl.retains

/-- A record that no script can see lands at once. -/
lemma lands_at_once (hc : e.control = .convert r) (hr : e.released = []) (hs : e.heap.Sound)
    (hu : e.isUnwatched = true) (hn : n ≤ e.heap.next) (hread : r.IsReadable)
    (hpins : ∀ g ∈ r.handles, (e.handles.get? g).isSome) :
    ∃ e', e.proceed = (e', .silent) ∧ Lands n e r e' := by
  obtain ⟨w, e', hmade, hm, hx⟩ := mirrors_convert e hs hn r hread hpins
  refine ⟨e'.give w, ?_, .of_extends (by rw [hc]; rfl) hr hs hm hx⟩
  rw [proceed, hc]
  dsimp only
  unfold arriveStep
  rw [if_pos hu, hmade]
  rfl

/-! ### Stand-ins -/

lemma takeStandInClass_proxy (e : Engine) (slot : Slot) (token : Ref) :
    e.takeStandInClass slot token (.object (Intrinsic.classRef .proxy)) =
      giveNew (e.allocStandIn slot token) := if_pos rfl

/-- A stand-in is made of its token and the class that is found. -/
lemma lands_standIn {s : Slot} {view : View} (hc : e.control = .convert r) (hs : e.heap.Sound)
    (ha : e.Admits r) (hn : n ≤ e.heap.next) (hitems : ∀ items, r ≠ .array items)
    (hview : r.view = .ok view) (hv : view = .managedRef s ∨ view = .managedError s) :
    ∃ e', RunsSmoothly (e.startStandIn s) e' ∧ Lands n e r e' := by
  let f : Frame := .pending (.standInClass s e.heap.next)
  let e₁ : Engine := e.startStandIn s
  have htoken : Extends e (e.allocToken s).2 := .alloc hs _
  have hroots : ∀ e' : Engine, e'.stack = f :: e.stack → e'.handles = e.handles →
      e.roots ⊆ e'.roots := fun e' => roots_subset (l := [f]) (by rw [hc]; nofun)
  have hret₁ : Retains e e₁ := htoken.retains (hroots e₁ rfl rfl) rfl
  -- The class is found under its name.
  obtain ⟨h₁, hspares₁, hruns₁⟩ := exists_runs e₁ (htoken.sound hs)
  have hret₁' := hret₁.trans hspares₁.retains
  obtain ⟨o, ho, hk, hown⟩ := (hret₁'.admits ha).proxy
  let e₂ : Engine :=
    { e₁ with heap := h₁, control := .ret (.object (Intrinsic.classRef .proxy)), released := [] }
  have hruns₁ : RunsSmoothly e₁ e₂ := (hruns₁ e₂ (proceed_own rfl ho hk hown)).smoothly rfl
  have hret₂ : Retains e e₂ :=
    hret₁'.of_roots (hroots e₂ rfl rfl) (fun _ _ _ => id) (Nat.le_refl _)
  -- The stand-in is made.
  obtain ⟨h₂, hspares₂, hruns₂⟩ := exists_runs e₂ hspares₁.sound
  have hret₂' := hret₂.trans hspares₂.retains
  let e₃ : Engine := { e₂ with heap := h₂, stack := e.stack, released := [] }
  have hruns₂ := hruns₂ (giveNew (e₃.allocStandIn s e.heap.next)) (by
    rw [proceed_ret (f := f) (l := e.stack) rfl rfl]
    exact congrArg (·, Event.silent) (takeStandInClass_proxy e₃ s e.heap.next))
  have hmade : Extends e₃ (e₃.allocStandIn s e.heap.next).2 := .alloc hspares₂.sound _
  refine ⟨_, hruns₁.trans (hruns₂.smoothly rfl), ⟨.object h₂.next, ?_, .leaf hitems hview ?_⟩,
    hmade.sound hspares₂.sound, ?_⟩
  · rfl
  · have hkept : ∀ e' : Engine, e'.stack = f :: e.stack → e'.Reached e.heap.next := fun e' he' =>
      reached_of_frame (f := f) (by rw [he']; exact List.mem_cons_self ..)
        (List.mem_singleton_self _)
    have htoken₁ := (hspares₁.get? _ (hkept e₁ rfl)).trans (get?_alloc_self e _)
    have htoken₂ := (hspares₂.get? _ (hkept e₂ rfl)).trans htoken₁
    exact .standIn hv (get?_alloc_self e₃ _) (Nat.le_trans hn hret₂'.next_le) rfl rfl
      (hmade.get? _ _ htoken₂) hn rfl
  · exact hret₂'.of_roots (roots_subset (l := []) (by rw [hc]; nofun) rfl rfl)
      (fun q o _ ho => hmade.get? q o ho) hmade.next_le

/-! ### Records without elements -/

/-- How a record without elements goes on once script may watch. -/
lemma arriveStep_shallow (hu : e.isUnwatched = false) (hitems : ∀ items, r ≠ .array items) :
    e.arriveStep r = e.arriveShallow r := by
  unfold arriveStep
  rw [hu, if_neg Bool.false_ne_true]
  cases r with
  | array items => exact absurd rfl (hitems items)
  | _ => rfl

/-- Only stand-ins are made in several steps. -/
lemma arriveShallow_of_isCalm {view : View} (hview : r.view = .ok view)
    (hcalm : view.isCalm = true) :
    (∃ s, (view = .managedRef s ∨ view = .managedError s) ∧ e.arriveShallow r = e.startStandIn s) ∨
      e.arriveShallow r = withValue (e.convertShallow r) give := by
  rw [arriveShallow, hview]
  cases view with
  | managedRef s => exact .inl ⟨s, .inl rfl, rfl⟩
  | managedError s => exact .inl ⟨s, .inr rfl, rfl⟩
  | date x => cases hcalm
  | unknownError m => cases hcalm
  | _ => exact .inr rfl

/-- A record without elements lands. -/
lemma lands_shallow (hc : e.control = .convert r) (hs : e.heap.Sound) (ha : e.Admits r)
    (hn : n ≤ e.heap.next) (hitems : ∀ items, r ≠ .array items) (hread : r.IsReadable)
    (hcalm : r.IsCalm) (hpins : ∀ g ∈ r.handles, (e.handles.get? g).isSome) :
    ∃ e', RunsSmoothly e e' ∧ Lands n e r e' := by
  have hsmooth : e.control.isThrow = false := by rw [hc]; rfl
  obtain ⟨h, hspares, hruns⟩ := exists_runs e hs
  let e₁ : Engine := { e with heap := h, released := [] }
  have hn₁ : n ≤ h.next := Nat.le_trans hn (Nat.le_of_eq hspares.next.symm)
  cases hu : e₁.isUnwatched with
  | true =>
    obtain ⟨e', hp, hl⟩ := lands_at_once (e := e₁) hc rfl hspares.sound hu hn₁ hread hpins
    exact ⟨e', (hruns e' hp).smoothly hsmooth, hl.of_spares hspares⟩
  | false =>
    have hproceed : e₁.proceed = (e₁.arriveShallow r, .silent) := by
      rw [proceed, show e₁.control = .convert r from hc]
      exact congrArg (·, Event.silent) (arriveStep_shallow hu hitems)
    obtain ⟨view, hview⟩ := hread.exists_view
    rcases arriveShallow_of_isCalm (e := e₁) hview (hcalm.isCalm_view hitems hview) with
      ⟨s, hv, harrive⟩ | harrive <;> rw [harrive] at hproceed
    · obtain ⟨e', hruns', hl⟩ := lands_standIn (e := e₁) hc hspares.sound
        (hspares.retains.admits ha) hn₁ hitems hview hv
      exact ⟨e', ((hruns _ hproceed).smoothly hsmooth).trans hruns', hl.of_spares hspares⟩
    · obtain ⟨w, e', hmade, hm, hx⟩ :=
        mirrors_convertShallow (e := e₁) hspares.sound hn₁ hitems hread hpins
      rw [hmade] at hproceed
      have hl := Lands.of_extends (by rw [show e₁.control = .convert r from hc]; rfl) rfl
        hspares.sound hm hx
      exact ⟨_, (hruns _ hproceed).smoothly hsmooth, hl.of_spares hspares⟩

/-! ### Arrays, element by element -/

/-- The object of an array with given elements. -/
def itemsObject (ws : List Value) : Object :=
  .ofKind (.array ws.length) (some Intrinsic.arrayParent)
    (ws.zipIdx.map fun (v, i) => (.index i, .data v))

lemma lookup_itemsObject_eq_none (ws : List Value) :
    (itemsObject ws).properties.lookup (.index ws.length) = none := by
  rw [List.lookup_eq_none_iff]
  intro x hx
  obtain ⟨⟨v, i⟩, hm, rfl⟩ := List.mem_map.1 hx
  have hlt := List.snd_lt_of_mem_zipIdx hm
  simp only [bne_iff_ne, ne_eq, Key.index.injEq]
  omega

/-- Entering the next element. -/
lemma define_itemsObject (ws : List Value) (w : Value) :
    (itemsObject ws).define (.index ws.length) (.data w) = itemsObject (ws ++ [w]) := by
  unfold Object.define
  rw [lookup_itemsObject_eq_none]
  simp [itemsObject, Object.ofKind, List.zipIdx_append]

/-- An array whose first elements have been entered: they mirror the first ones of some records. -/
structure Filled (h : Heap) (t : Handles Ref) (array : Ref) (items : List Record)
    (ws : List Value) : Prop where
  object : h.get? array = some (itemsObject ws)
  mirrors : ∀ (i : Nat) r v, items[i]? = some r → ws[i]? = some v → Mirrors (array + 1) h t r v

lemma refs_subset_itemsObject {i : Nat} (hv : ws[i]? = some v) :
    v.refs ⊆ (itemsObject ws).refs := refs_subset_of_own? (own?_items hv _)

lemma Filled.retains {items : List Record} (hf : Filled e.heap t array items ws)
    (hr : Retains e e') (ha : e.Reached array) : Filled e'.heap t array items ws where
  object := hr.get? _ _ ha hf.object
  mirrors i r v hi hv := hr.mirrors (hf.mirrors i r v hi hv) fun _ hq =>
    .step ha hf.object (refs_subset_itemsObject hv hq)

/-- The next element has been entered. -/
lemma Filled.define {items : List Record} (hf : Filled h t array items ws)
    (hi : items[ws.length]? = some r) (hm : Mirrors (array + 1) h t r w) :
    Filled (h.update array (·.define (.index ws.length) (.data w))) t array items (ws ++ [w]) where
  object := by
    rw [Heap.get?_update, if_pos rfl, hf.object, Option.map_some, define_itemsObject]
  mirrors i r' v hr' hv := by
    refine Mirrors.mono (h := h) ?_ fun q o hq ho => ?_
    · rcases Nat.lt_trichotomy i ws.length with hlt | rfl | hgt
      · exact hf.mirrors i r' v hr' (by rwa [List.getElem?_append_left hlt] at hv)
      · rw [List.getElem?_concat_length] at hv
        cases hv
        rw [hi] at hr'
        cases hr'
        exact hm
      · rw [List.getElem?_eq_none (by rw [List.length_append, List.length_singleton]; omega)] at hv
        cases hv
    · rw [Heap.get?_update, if_neg (Nat.ne_of_gt hq)]
      exact ho

/-- Nothing stands in the way of the next element. -/
lemma proceed_element (hc : e.control = .write (.object array) (.index ws.length) w)
    (ho : e.heap.get? array = some (itemsObject ws))
    (hy : e.heap.Yields Intrinsic.arrayParent (.index ws.length)) :
    e.proceed = ({ e with
      heap := e.heap.update array (·.define (.index ws.length) (.data w))
      control := .ret w }, .silent) := by
  have hown : (itemsObject ws).own? (.index ws.length) = none := by
    rw [Object.own?, lookup_itemsObject_eq_none]
    rfl
  have htaker : takerOf e.heap array (itemsObject ws) (.index ws.length) = .nothing := by
    unfold takerOf
    rw [hown]
    refine hy.searchTaker _ fun q hq => ?_
    cases hq
    exact .self
  rw [proceed, hc]
  dsimp only
  rw [writeStep, writeObject, ho]
  dsimp only
  rw [htaker]
  rfl

/-- What could be reached is kept while something else is done with new objects. -/
lemma Retains.of_new {l : List Frame} (hr : Retains e e') (hc : e.control.refs = [])
    (hs : e.heap.Sound) (hstack : e''.stack = l ++ e.stack) (hhandles : e''.handles = e.handles)
    (hget : ∀ q o, q < e.heap.next → e'.heap.get? q = some o → e''.heap.get? q = some o)
    (hnext : e'.heap.next ≤ e''.heap.next) : Retains e e'' where
  roots := roots_subset (by rw [hc]; nofun) hstack hhandles
  get? q o hq ho := hget q o (hs.lt_of_get? ho) (hr.get? q o hq ho)
  next_le := Nat.le_trans hr.next_le hnext

/-- **One element.**  Once its record has landed, the element is entered in the array, and the next
one is up. -/
lemma runs_item {items rest : List Record} (hc : e₀.control.refs = []) (hs₀ : e₀.heap.Sound)
    (ha : e₀.Admits (.array items)) (harray : e₀.heap.next ≤ array)
    (hf : Filled h e₀.handles array items ws) (hi : items[ws.length]? = some r)
    (hret : Retains e₀ (({ e₀ with heap := h, released := [] } : Engine).nextItem array ws.length
      (r :: rest)))
    (hl : Lands (array + 1) (({ e₀ with heap := h, released := [] } : Engine).nextItem array
      ws.length (r :: rest)) r e') :
    ∃ h' w, Runs e' (({ e₀ with heap := h', released := [] } : Engine).nextItem array
        (ws.length + 1) rest) ∧ h'.Sound ∧ Filled h' e₀.handles array items (ws ++ [w]) ∧
      Retains e₀ (({ e₀ with heap := h', released := [] } : Engine).nextItem array (ws.length + 1)
        rest) := by
  obtain ⟨⟨w, heq, hm⟩, hs₂, hret₂⟩ := hl
  have hitems : ∀ e' : Engine, e'.stack = .items array ws.length rest :: e₀.stack →
      e'.Reached array := fun e' h => reached_of_frame (f := .items array ws.length rest)
    (by rw [h]; exact List.mem_cons_self ..) (List.mem_singleton_self _)
  have hplaced : ∀ e' : Engine, e'.stack = .placed array ws.length rest :: e₀.stack →
      e'.Reached array := fun e' h => reached_of_frame (f := .placed array ws.length rest)
    (by rw [h]; exact List.mem_cons_self ..) (List.mem_singleton_self _)
  have hf₂ : Filled e'.heap e₀.handles array items ws := Filled.retains hf hret₂ (hitems _ rfl)
  have hret₂ := hret.trans hret₂
  generalize hh : e'.heap = h₂ at heq hm hs₂ hf₂
  subst heq
  -- The element is about to be entered.
  let f : Frame := .placed array ws.length rest
  let e₂ : Engine :=
    { e₀ with
      heap := h₂, stack := .items array ws.length rest :: e₀.stack, control := .ret w
      released := [] }
  obtain ⟨h₃, hspares₃, hruns₃⟩ := exists_runs e₂ hs₂
  let e₃ : Engine :=
    { e₀ with
      heap := h₃, stack := f :: e₀.stack, control := .write (.object array) (.index ws.length) w
      released := [] }
  have hruns₃ := (hruns₃ e₃ (by
    rw [proceed_ret (v := w) (f := .items array ws.length rest) (l := e₀.stack) rfl rfl]
    rfl)).runs
  have hret₃ : Retains e₀ e₃ := (hret₂.trans hspares₃.retains).of_new (l := [f]) hc hs₀ rfl rfl
    (fun _ _ _ => id) (Nat.le_refl _)
  have hf₃ := Filled.retains (e := e₂) hf₂ hspares₃.retains (hitems e₂ rfl)
  have hm₃ := hspares₃.retains.mirrors hm fun q hq => reached_of_control (e := e₂) hq
  -- It is entered.
  obtain ⟨h₄, hspares₄, hruns₄⟩ := exists_runs e₃ hspares₃.sound
  have hf₄ := Filled.retains (e := e₃) hf₃ hspares₄.retains (hplaced e₃ rfl)
  have hm₄ := hspares₄.retains.mirrors hm₃ fun q hq =>
    reached_of_control (List.mem_append_right _ hq)
  have hret₄ := hret₃.trans hspares₄.retains
  let e₄ : Engine :=
    { e₀ with
      heap := h₄.update array (·.define (.index ws.length) (.data w)), stack := f :: e₀.stack
      control := .ret w, released := [] }
  have hruns₄ := (hruns₄ e₄
    (proceed_element rfl hf₄.object ((hret₄.admits ha).elements ⟨items, rfl⟩ _))).runs
  have hf₅ := hf₄.define hi hm₄
  have hret₅ : Retains e₀ e₄ := hret₄.of_new (l := [f]) hc hs₀ rfl rfl
    (fun q o hq ho => by
      change (h₄.update array _).get? q = some o
      rw [Heap.get?_update, if_neg (Nat.ne_of_lt (Nat.lt_of_lt_of_le hq harray))]
      exact ho) (Nat.le_refl _)
  have hs₅ : e₄.heap.Sound := hspares₄.sound.update array (·.define (.index ws.length) (.data w))
  -- The next one is up.
  obtain ⟨h₆, hspares₆, hruns₆⟩ := exists_runs e₄ hs₅
  have hf₆ := Filled.retains (e := e₄) hf₅ hspares₆.retains (hplaced e₄ rfl)
  have hruns₆ := (hruns₆ _ (proceed_ret (v := w) (f := f) (l := e₀.stack) rfl rfl)).runs
  refine ⟨h₆, w, (hruns₃.trans hruns₄).trans hruns₆, hspares₆.sound, hf₆, ?_⟩
  have hret₆ := hret₅.trans hspares₆.retains
  cases rest with
  | nil => exact hret₆.of_new (l := []) hc hs₀ rfl rfl (fun _ _ _ => id) (Nat.le_refl _)
  | cons r' rest =>
    exact hret₆.of_new (l := [.items array (ws.length + 1) rest]) hc hs₀ rfl rfl
      (fun _ _ _ => id) (Nat.le_refl _)

mutual
/-- **A record lands in script.**  Whether script may watch or not, a record that is neither a date
nor an error that has to be made becomes a value that mirrors it, without any call. -/
theorem exists_lands : ∀ (r : Record) (e : Engine) (n : Ref), e.control = .convert r →
    e.heap.Sound → e.Admits r → n ≤ e.heap.next → r.IsReadable → r.IsCalm →
    (∀ g ∈ r.handles, (e.handles.get? g).isSome) → ∃ e', Runs e e' ∧ Lands n e r e'
  | .plain tag bits length, e, n, hc, hs, ha, hn, hread, hcalm, hpins =>
    (lands_shallow hc hs ha hn (by simp) hread hcalm hpins).imp fun _ => .imp_left RunsWhile.runs
  | .text kind bytes, e, n, hc, hs, ha, hn, hread, hcalm, hpins =>
    (lands_shallow hc hs ha hn (by simp) hread hcalm hpins).imp fun _ => .imp_left RunsWhile.runs
  | .array items, e, n, hc, hs, ha, hn, hread, hcalm, hpins => by
    obtain ⟨h, hspares, hruns⟩ := exists_runs e hs
    let e₁ : Engine := { e with heap := h, released := [] }
    have hn₁ : n ≤ h.next := Nat.le_trans hn (Nat.le_of_eq hspares.next.symm)
    cases hu : e₁.isUnwatched with
    | true =>
      obtain ⟨e', hp, hl⟩ := lands_at_once (e := e₁) hc rfl hspares.sound hu hn₁ hread hpins
      exact ⟨e', (hruns e' hp).runs, hl.of_spares hspares⟩
    | false =>
      -- An empty array is made, and the elements are entered one after the other.
      have hproceed : e₁.proceed = ((e₁.allocArray []).2.nextItem h.next 0 items, .silent) := by
        rw [proceed, show e₁.control = .convert (.array items) from hc]
        dsimp only
        unfold arriveStep
        rw [hu, if_neg Bool.false_ne_true]
      have hc₁ : e₁.control.refs = [] := by
        rw [show e₁.control = .convert (.array items) from hc]
        rfl
      have hmade : Extends e₁ (e₁.allocArray []).2 := .alloc hspares.sound _
      have hret : Retains e₁ ((e₁.allocArray []).2.nextItem h.next 0 items) := by
        cases items with
        | nil => exact hmade.retains (roots_subset (l := []) (by rw [hc₁]; nofun) rfl rfl) rfl
        | cons r rest =>
          exact hmade.retains
            (roots_subset (l := [.items h.next 0 rest]) (by rw [hc₁]; nofun) rfl rfl) rfl
      obtain ⟨h', ws, hruns', hs', hf, hlength, hret'⟩ := exists_filled items items e₁
        (e₁.allocArray []).2.heap h.next [] rfl hc₁ hspares.sound (hspares.retains.admits ha)
        (Nat.le_refl _) (hmade.sound hspares.sound) ⟨get?_alloc_self e₁ _, by simp⟩
        (Nat.zero_le _) hread hcalm hpins hret
      refine ⟨_, (hruns _ hproceed).runs.trans hruns',
        Lands.of_spares hspares ⟨⟨_, rfl, ?_⟩, hs', hret'⟩⟩
      refine .array hf.object hn₁ ?_ rfl hlength (fun i v hi => own?_items hi _) fun i r v hr hv =>
        (hf.mirrors i r v hr hv).weaken (Nat.le_trans hn₁ (Nat.le_succ _))
      rw [← hlength]
      rfl

/-- The elements of an array that is being filled land one after the other. -/
theorem exists_filled : ∀ (rest : List Record) (items : List Record) (e₀ : Engine) (h : Heap)
    (array : Ref) (ws : List Value), items.drop ws.length = rest → e₀.control.refs = [] →
    e₀.heap.Sound → e₀.Admits (.array items) → e₀.heap.next ≤ array → h.Sound →
    Filled h e₀.handles array items ws → ws.length ≤ items.length → Record.AreReadable rest →
    Record.AreCalm rest →
    (∀ g ∈ Record.handlesOfItems rest, (e₀.handles.get? g).isSome) →
    Retains e₀ (({ e₀ with heap := h, released := [] } : Engine).nextItem array ws.length rest) →
    ∃ h' ws', Runs (({ e₀ with heap := h, released := [] } : Engine).nextItem array ws.length rest)
        (({ e₀ with heap := h', released := [] } : Engine).give (.object array)) ∧ h'.Sound ∧
      Filled h' e₀.handles array items ws' ∧ ws'.length = items.length ∧
      Retains e₀ (({ e₀ with heap := h', released := [] } : Engine).give (.object array))
  | [], items, e₀, h, array, ws, hrest, hc, hs₀, ha, harray, hs, hf, hlen, hread, hcalm, hpins,
      hret => by
    have hle := List.drop_eq_nil_iff.1 hrest
    exact ⟨h, ws, .refl, hs, hf, Nat.le_antisymm hlen hle, hret⟩
  | r :: rest, items, e₀, h, array, ws, hrest, hc, hs₀, ha, harray, hs, hf, hlen, hread, hcalm,
      hpins, hret => by
    have hi : items[ws.length]? = some r := by
      rw [← Nat.add_zero ws.length, ← List.getElem?_drop, hrest]
      rfl
    rw [Record.handlesOfItems] at hpins
    have hlt : array < h.next := hs.lt_of_get? hf.object
    obtain ⟨e', hruns, hl⟩ := exists_lands r
      (({ e₀ with heap := h, released := [] } : Engine).nextItem array ws.length (r :: rest))
      (array + 1) rfl hs (hret.admits ha.item) hlt hread.1 hcalm.1
      fun g hg => hpins g (List.mem_append_left _ hg)
    obtain ⟨h', w, hruns', hs', hf', hret'⟩ := runs_item hc hs₀ ha harray hf hi hret hl
    have hcount : ws.length + 1 = (ws ++ [w]).length := by
      rw [List.length_append]
      rfl
    have hlen' : ws.length + 1 ≤ items.length := (List.getElem?_eq_some_iff.1 hi).1
    have hrest' : items.drop (ws.length + 1) = rest := by
      rw [← List.drop_drop, hrest]
      rfl
    rw [hcount] at hruns' hret' hlen' hrest'
    obtain ⟨h'', ws', hruns'', hfilled⟩ := exists_filled rest items e₀ h' array
      (ws ++ [w]) hrest' hc
      hs₀ ha harray hs' hf' hlen' hread.2 hcalm.2
      (fun g hg => hpins g (List.mem_append_right _ hg)) hret'
    exact ⟨h'', ws', (hruns.trans hruns').trans hruns'', hfilled⟩
end

end Engine

end ScriptBridge
