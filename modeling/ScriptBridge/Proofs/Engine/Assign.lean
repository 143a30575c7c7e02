/-
# What the host assigns

The host assigns a global, or a member of a script object, by a record.  The record becomes a
value while nothing else goes away.  Then the value is entered in its object, if neither that
nor anything it inherits from stands in the way, and what it takes the place of may go away.  A
value that has been entered can be read again as long as no script runs.
-/
import ScriptBridge.Proofs.Engine.Echo
import ScriptBridge.Proofs.Engine.Rest

namespace ScriptBridge

open ScriptBridge.Number ScriptBridge.Script ScriptBridge.Table ScriptBridge.Wire

/-! ### Properties that can be assigned -/

namespace Script.Heap

variable {h h' : Heap} {g : Ref} {key : Key}

/-- A property can be assigned: its object is no array, and nothing stands in the way. -/
structure Assignable (h : Heap) (g : Ref) (key : Key) : Prop where
  array : ∀ o length, h.get? g = some o → o.kind ≠ .array length
  yields : h.Yields g key

lemma Assignable.exists_get? (ha : h.Assignable g key) :
    ∃ o, h.get? g = some o ∧ (∀ s k, o.kind ≠ .proxy s k) ∧
      ∀ p, o.own? key = some p → p.isOpen = true := ha.yields g .self

/-- Whether a property can be assigned, if there are few enough objects above its own. -/
def isAssignable (h : Heap) (g : Ref) (key : Key) : Bool :=
  h.ascend (isOpenAt key) 5 g &&
    match (h.get? g).map Object.kind with
    | some (.array _) => false
    | _ => true

lemma assignable_of_isAssignable (ha : h.isAssignable g key = true) : h.Assignable g key := by
  rw [isAssignable, Bool.and_eq_true] at ha
  refine ⟨fun o length ho hk => ?_, yields_of_ascend ha.1 fun _ => id⟩
  rw [ho, Option.map_some, hk] at ha
  cases ha.2

end Script.Heap

namespace Engine

variable {e e' : Engine} {h h' : Heap} {t : Handles Ref} {n g q : Ref} {key : Key} {r : Record}
  {v w : Value} {o : Object} {base fs : List Frame}

open Script.Heap

/-- Nothing stands in the way of a property that can be assigned. -/
lemma writeObject_assignable (ha : e.heap.Assignable g key) (v : Value) :
    e.writeObject g key v =
      { e with heap := e.heap.update g (·.define key (.data v)), control := .ret v } := by
  obtain ⟨o, ho, hk, hopen⟩ := ha.exists_get?
  have hfresh : e.writeFound (.object g) key v
      { e with heap := e.heap.update g (·.define key (.data v)), control := .ret v }
      (takerOf e.heap g o key) =
        { e with heap := e.heap.update g (·.define key (.data v)), control := .ret v } := by
    unfold takerOf
    split
    · next hkind => exact absurd hkind (hk _ _)
    · next p hown _ =>
      have hp := hopen p hown
      cases p <;> first | rfl | cases hp
    · rw [Heap.findTaker, ha.yields.searchTaker _ fun q hq => .parent .self ho hq]
      rfl
  rw [writeObject, ho]
  dsimp only
  split
  · next length hkind => exact absurd hkind (ha.array o length ho)
  · exact hfresh

/-! ### Later heaps -/

lemma Retains.assignable (hr : Retains e e') (ha : e.heap.Assignable g key) (hg : e.Reached g) :
    e'.heap.Assignable g key where
  array o length ho := by
    obtain ⟨o', ho', -⟩ := ha.exists_get?
    have hsame := (hr.get? g o' hg ho').symm.trans ho
    exact Option.some.inj hsame ▸ ha.array o' length ho'
  yields := hr.yields ha.yields hg

/-! ### What an object holds -/

/-- A property of an object is a value that mirrors a record. -/
def Holds (n : Ref) (h : Heap) (t : Handles Ref) (g : Ref) (key : Key) (r : Record) : Prop :=
  ∃ o w, h.get? g = some o ∧ (∀ s k, o.kind ≠ .proxy s k) ∧ o.own? key = some (.data w) ∧
    Mirrors n h t r w

lemma Retains.holds (hr : Retains e e') (hh : Holds n e.heap t g key r) (hg : e.Reached g) :
    Holds n e'.heap t g key r := by
  obtain ⟨o, w, ho, hk, hown, hm⟩ := hh
  refine ⟨o, w, hr.get? g o hg ho, hk, hown, hr.mirrors hm fun q hq => ?_⟩
  exact .step hg ho (refs_subset_of_own? hown hq)

lemma lookup_replace {l : List (Key × Property)} (p : Property) (hl : (l.lookup key).isSome) :
    (l.map fun (k, q) => if k = key then (k, p) else (k, q)).lookup key = some p := by
  induction l with
  | nil => cases hl
  | cons x l ih =>
    obtain ⟨k, q⟩ := x
    rw [List.map_cons, List.lookup_cons]
    by_cases hk : k = key
    · subst hk
      simp
    · have hne : (key == k) = false := beq_eq_false_iff_ne.2 (Ne.symm hk)
      rw [List.lookup_cons, hne] at hl
      dsimp only
      rw [if_neg hk, hne]
      exact ih hl

lemma own?_define (o : Object) (key : Key) (p : Property) :
    (o.define key p).own? key = some p := by
  have hlookup : (o.define key p).properties.lookup key = some p := by
    unfold Object.define
    dsimp only
    split
    · next hl => exact lookup_replace p hl
    · next hl =>
      rw [Bool.not_eq_true, Option.isSome_eq_false_iff, Option.isNone_iff_eq_none] at hl
      rw [List.lookup_append, hl, List.lookup_cons, beq_self_eq_true]
      rfl
  rw [Object.own?, hlookup]

/-- A value that is entered is held. -/
lemma holds_define (hm : Mirrors n h t r v) (ha : h.Assignable g key) (hg : g < n) :
    Holds n (h.update g (·.define key (.data v))) t g key r := by
  obtain ⟨o, ho, hk, -⟩ := ha.exists_get?
  refine ⟨o.define key (.data v), v, ?_, fun s k hkind => ?_, own?_define .., ?_⟩
  · rw [Heap.get?_update, if_pos rfl, ho, Option.map_some]
  · exact hk s k ((Object.kind_proxy_congr (Object.sort_define o key (.data v))).1 hkind)
  · refine hm.mono fun q p hq hp => ?_
    rw [Heap.get?_update, if_neg (Nat.ne_of_gt (Nat.lt_of_lt_of_le hg hq))]
    exact hp

/-! ### Assigning -/

/-- What the host assigns, the frame that takes the value for it, its record, and the property that
it is about. -/
inductive Assigns (t : Handles Ref) : Operation → Frame → Record → Ref → Key → Prop
  | global (name : String) (r : Record) :
    Assigns t (.setGlobal name r) (.assignGlobal name) r Intrinsic.global (.ofName name)
  | member {target : Handle} {q : Ref} (name : String) (r : Record) (hq : t.get? target = some q) :
    Assigns t (.setMember target name r) (.assignMember target name) r q (.ofName name)

lemma Assigns.brings {op : Operation} {f : Frame} (ha : Assigns t op f r g key) :
    Brings op f r := by
  cases ha with
  | global name r => exact .global name r
  | member name r => exact .member _ name r

/-- What the host reads, and the property that it is about. -/
inductive Reads (t : Handles Ref) : Operation → Ref → Key → Prop
  | global (name : String) : Reads t (.getGlobal name) Intrinsic.global (.ofName name)
  | member {target : Handle} {q : Ref} (name : String) (hq : t.get? target = some q) :
    Reads t (.getMember target name) q (.ofName name)

lemma reached_global (e : Engine) : e.Reached Intrinsic.global :=
  .root (List.mem_append_left _ (List.mem_range.2 Intrinsic.global_lt))

lemma reached_of_handle {target : Handle} (hq : e.handles.get? target = some q) : e.Reached q :=
  .root (List.mem_append_right _ (List.mem_append_right _ (Handles.mem_values_of_get? hq)))

lemma Assigns.reached {op : Operation} {f : Frame} (ha : Assigns e.handles op f r g key) :
    e.Reached g := by
  cases ha with
  | global => exact reached_global e
  | member name r hq => exact reached_of_handle hq

/-- A record that the host brings becomes a value that mirrors it, whatever goes away before. -/
def Receives (e : Engine) (f : Frame) (r : Record) : Prop :=
  ∀ h, e.Spares h → ∃ e',
    Runs { e with heap := h, stack := f :: e.stack, control := .convert r, released := [] } e' ∧
      Lands e.heap.next
        { e with heap := h, stack := f :: e.stack, control := .convert r, released := [] } r e'

/-- What could be reached is kept until the record is to become a value. -/
lemma Spares.retains_push (hspares : e.Spares h) (hs : e.heap.Sound) (hc : e.control.refs = [])
    (f : Frame) (r : Record) : Retains e
      { e with heap := h, stack := f :: e.stack, control := .convert r, released := [] } :=
  hspares.retains.of_new (l := [f]) hc hs rfl rfl (fun _ _ _ => id) (Nat.le_refl _)

/-- A record that is neither a date nor an error that has to be made is received. -/
lemma receives_of_isCalm (hs : e.heap.Sound) (hc : e.control.refs = []) (ha : e.Admits r)
    (hread : r.IsReadable) (hcalm : r.IsCalm) (hpins : ∀ g ∈ r.handles, (e.handles.get? g).isSome)
    (f : Frame) : e.Receives f r := by
  intro h hspares
  have hret := hspares.retains_push hs hc f r
  exact exists_lands r _ e.heap.next rfl hspares.sound (hret.admits ha) hret.next_le hread hcalm
    hpins

/-- **What the host brings arrives.**  The record of an operation becomes a value that mirrors it,
and what could be reached is as it was. -/
theorem Brings.arrives {op : Operation} {f : Frame} (hb : Brings op f r)
    (hc : e.control = .begin op) (hs : e.heap.Sound) (hreceives : e.Receives f r) :
    ∃ e', Runs e e' ∧ Retains e e' ∧ e'.heap.Sound ∧ ∃ w,
      e' = { e with heap := e'.heap, stack := f :: e.stack, control := .ret w, released := [] } ∧
        Mirrors e.heap.next e'.heap e.handles r w := by
  obtain ⟨h, hspares, hruns⟩ := exists_runs e hs
  have hbegin := RunsWhile.runs (hruns
    { e with heap := h, stack := f :: e.stack, control := .convert r, released := [] } (by
      rw [proceed, show ({ e with heap := h, released := [] } : Engine).control = .begin op from hc]
      cases hb <;> rfl))
  obtain ⟨e₂, hruns₂, ⟨w, heq, hm⟩, hs₂, hret₂⟩ := hreceives h hspares
  exact ⟨e₂, hbegin.trans hruns₂, (hspares.retains_push hs (by rw [hc]; rfl) f r).trans hret₂, hs₂,
    w, heq, hm⟩

/-- The value that is assigned is entered in its object. -/
lemma Assigns.enters {op : Operation} {f : Frame} (ha : Assigns e.handles op f r g key)
    (hc : e.control = .ret w) (hstack : e.stack = f :: base) (hs : e.heap.Sound)
    (hm : Mirrors n e.heap e.handles r w) (hopen : e.heap.Assignable g key) (hg : g < n) :
    ∃ h fs, Runs e { e with heap := h, stack := fs ++ base, control := .ret w, released := [] } ∧
      h.Sound ∧ Holds n h e.handles g key r ∧
      (fs = [.settleUnit] ∨ fs = [.hold [.object g], .settleUnit]) := by
  obtain ⟨h₁, hspares₁, hruns₁⟩ := exists_runs e hs
  -- The object is found, and the value is written.
  obtain ⟨fs, hfs, hfound⟩ : ∃ fs : List Frame,
      (fs = [.settleUnit] ∨ fs = [.hold [.object g], .settleUnit]) ∧
      ({ e with heap := h₁, released := [] } : Engine).proceed =
        ({ e with
            heap := h₁, stack := fs ++ base, control := .write (.object g) key w, released := [] },
          .silent) := by
    cases ha with
    | global name r =>
      refine ⟨_, .inl rfl, ?_⟩
      simp only [proceed, hc, popWith, hstack]
      rfl
    | member name r hq =>
      refine ⟨_, .inr rfl, ?_⟩
      simp only [proceed, hc, popWith, hstack, retStep, restore, hq]
      rfl
  have hruns₁ := (hruns₁ _ hfound).runs
  let e₂ : Engine :=
    { e with heap := h₁, stack := fs ++ base, control := .write (.object g) key w, released := [] }
  obtain ⟨h₂, hspares₂, hruns₂⟩ := exists_runs e₂ hspares₁.sound
  have hm₁ := hspares₁.retains.mirrors hm fun q hq => reached_of_control (by rw [hc]; exact hq)
  have hm₂ := hspares₂.retains.mirrors (e := e₂) hm₁ fun q hq =>
    reached_of_control (List.mem_append_right _ hq)
  have hopen₁ := hspares₁.retains.assignable hopen ha.reached
  have hopen₂ := hspares₂.retains.assignable (e := e₂) hopen₁ (Assigns.reached (e := e₂) ha)
  refine ⟨_, fs, hruns₁.trans (hruns₂ _ (congrArg (·, Event.silent) ?_)).runs,
    hspares₂.sound.update .., holds_define hm₂ hopen₂ hg, hfs⟩
  exact writeObject_assignable (e := { e₂ with heap := h₂, released := [] }) hopen₂ w

/-- Once the value has been entered, the host is told that all went well. -/
lemma settles (hc : e.control = .ret w) (hstack : e.stack = .settleUnit :: base)
    (hs : e.heap.Sound) (hh : Holds n e.heap e.handles g key r)
    (hg : ∀ e' : Engine, e'.handles = e.handles → e'.Reached g) :
    ∃ h, Runs e { e with heap := h, stack := base, control := .encoded .null, released := [] } ∧
      h.Sound ∧ Holds n h e.handles g key r ∧
      ({ e with heap := h, stack := base, control := .encoded .null, released := [] } :
        Engine).Clean := by
  obtain ⟨h₁, hspares₁, hruns₁⟩ := exists_runs e hs
  let e₂ : Engine := { e with heap := h₁, stack := base, control := .encoded .null, released := [] }
  have hpop : Runs e e₂ := RunsWhile.runs (hruns₁ e₂ (by
    simp only [proceed, hc, popWith, hstack]
    rfl))
  obtain ⟨h₂, hruns₂, hspares₂, hclean⟩ := exists_cleared e₂ hspares₁.sound
  have hh₁ := hspares₁.retains.holds hh (hg e rfl)
  exact ⟨h₂, hpop.trans hruns₂.runs, hspares₂.sound,
    hspares₂.retains.holds (e := e₂) hh₁ (hg e₂ rfl), hclean⟩

/-- **What the host assigns is held.**  An operation that assigns a record comes to its end, and
then the property that it is about is a value that mirrors the record. -/
theorem Assigns.runs {op : Operation} {f : Frame} (ha : Assigns e.handles op f r g key)
    (hc : e.control = .begin op) (hs : e.heap.Sound) (hreceives : e.Receives f r)
    (hopen : e.heap.Assignable g key) :
    ∃ h, Runs e { e with heap := h, control := .encoded .null, released := [] } ∧ h.Sound ∧
      Holds e.heap.next h e.handles g key r ∧
      ({ e with heap := h, control := .encoded .null, released := [] } : Engine).Clean := by
  have hg : g < e.heap.next := by
    obtain ⟨o, ho, -⟩ := hopen.exists_get?
    exact hs.lt_of_get? ho
  obtain ⟨e₁, hruns₁, hret, hs₁, w, heq, hm⟩ := ha.brings.arrives hc hs hreceives
  have hopen₁ := hret.assignable hopen ha.reached
  generalize e₁.heap = h₁ at heq hs₁ hm hopen₁
  subst heq
  have hreached : ∀ e' : Engine, e'.handles = e.handles → e'.Reached g := fun e' heq =>
    Assigns.reached (by rw [heq]; exact ha)
  let e₁ : Engine :=
    { e with heap := h₁, stack := f :: e.stack, control := .ret w, released := [] }
  obtain ⟨h₂, fs, hruns₂, hs₂, hh, hfs⟩ :=
    Assigns.enters (e := e₁) ha rfl rfl hs₁ hm hopen₁ hg
  have hentered := hruns₁.trans hruns₂
  -- Where the object was kept by a frame, that goes first.
  obtain ⟨h₃, hruns₃, hs₃, hh₃⟩ : ∃ h, Runs e
      { e with heap := h, stack := .settleUnit :: e.stack, control := .ret w, released := [] } ∧
      h.Sound ∧ Holds e.heap.next h e.handles g key r := by
    rcases hfs with rfl | rfl
    · exact ⟨h₂, hentered, hs₂, hh⟩
    · let e₂ : Engine :=
        { e with
          heap := h₂, stack := .hold [.object g] :: .settleUnit :: e.stack, control := .ret w
          released := [] }
      obtain ⟨h₃, hspares₃, hruns₃⟩ := exists_runs e₂ hs₂
      exact ⟨h₃, hentered.trans (hruns₃ _ rfl).runs, hspares₃.sound,
        hspares₃.retains.holds (e := e₂) hh (hreached e₂ rfl)⟩
  let e₃ : Engine :=
    { e with heap := h₃, stack := .settleUnit :: e.stack, control := .ret w, released := [] }
  obtain ⟨h₄, hruns₄, hs₄, hh₄, hclean⟩ := settles (e := e₃) rfl rfl hs₃ hh₃ hreached
  exact ⟨h₄, hruns₃.trans hruns₄, hs₄, hh₄, hclean⟩

lemma Reads.reached {op : Operation} (hr : Reads e.handles op g key) : e.Reached g := by
  cases hr with
  | global => exact reached_global e
  | member name hq => exact reached_of_handle hq

/-- What an object holds is read, where there is nothing to let go of. -/
lemma Reads.runs_of_lasting {op : Operation} (ha : Reads e.handles op g key)
    (hc : e.control = .begin op) (hl : Lasting e.heap e.handles e.stack) (hr : e.released = [])
    (hh : Holds n e.heap e.handles g key r) :
    ∃ w, Mirrors n e.heap e.handles r w ∧ Runs e (e.posed e.stack (.encode w 0)) := by
  obtain ⟨o, w, ho, hk, hown, hm⟩ := hh
  have hbegin : Runs e (e.posed (.settle :: e.stack) (.read (.object g) key)) := by
    refine (Lasting.clean (l := []) hl hr rfl).runs ?_
    rw [proceed, hc]
    cases ha with
    | global name => rfl
    | member name hq =>
      simp only [beginStep, restore, hq]
      rfl
  have hread : Runs (e.posed (.settle :: e.stack) (.read (.object g) key))
      (e.posed (.settle :: e.stack) (.ret w)) := by
    refine runs_posed (l := [.settle]) hl hr ?_
    change ((e.posed (.settle :: e.stack) (.read (.object g) key)).giveFound (.object g) key
      (e.heap.find g key), Event.silent) = _
    rw [find_own ho hk hown]
    rfl
  have hsettle : Runs (e.posed (.settle :: e.stack) (.ret w)) (e.posed e.stack (.encode w 0)) :=
    runs_posed (l := [.settle]) hl hr rfl
  exact ⟨w, hm, (hbegin.trans hread).trans hsettle⟩

/-- A value that mirrors a record becomes another record, whatever goes away before. -/
def Returns (e : Engine) (n : Ref) (r out : Record) : Prop :=
  ∀ h w, e.Spares h → Lasting h e.handles e.stack → Mirrors n h e.handles r w →
    Runs (({ e with heap := h, released := [] } : Engine).posed e.stack (.encode w 0))
      { e with heap := h, control := .encoded out, released := [] }

/-- What comes back for a record of scalars, slots and arrays within the limits. -/
lemma returns_echo (hf : r.Fits e.maxLength e.maxDepth) : e.Returns n r r.echo := by
  intro h w hspares hl hm
  exact Mirrors.encodes (e := { e with heap := h, released := [] }) hm hl rfl e.maxDepth 0
    (Nat.le_of_eq (Nat.zero_add _)) hf []

/-- **What an object holds comes back.**  An operation that reads a property comes to its end with
what comes back for the record that the property mirrors. -/
theorem Reads.runs {op : Operation} {out : Record} (ha : Reads e.handles op g key)
    (hc : e.control = .begin op) (hs : e.heap.Sound) (hh : Holds n e.heap e.handles g key r)
    (hreturns : e.Returns n r out) :
    ∃ h, Runs e { e with heap := h, control := .encoded out, released := [] } ∧
      ({ e with heap := h, control := .encoded out, released := [] } : Engine).Clean := by
  obtain ⟨h, hruns, hspares, hclean⟩ := exists_cleared e hs
  have hl : Lasting h e.handles e.stack := hclean.lasting (by rw [hc]; rfl)
  obtain ⟨w, hm, hread⟩ := Reads.runs_of_lasting (e := { e with heap := h, released := [] }) ha hc
    hl rfl (hspares.retains.holds hh ha.reached)
  exact ⟨h, (hruns.runs.trans hread).trans (hreturns h w hspares hl hm), hl.clean (l := []) rfl rfl⟩

/-! ### Engines at rest -/

lemma Spares.of_eq (hs : e.heap.Sound) (hh : h = e.heap) : e.Spares h := by
  subst hh
  exact ⟨fun _ _ => rfl, fun _ _ => id, rfl, hs⟩

/-- What an engine at rest does by itself has nothing to do with its objects. -/
lemma proceed_of_isResting (hc : e.control.IsResting) :
    e.proceed.1.heap = e.heap ∧ e.proceed.1.maxLength = e.maxLength ∧
      e.proceed.1.maxDepth = e.maxDepth := by
  unfold proceed
  cases hcon : e.control with
  | idle => exact ⟨rfl, rfl, rfl⟩
  | begin op =>
    rw [hcon] at hc
    cases op with
    | release g =>
      dsimp only [beginStep]
      split <;> exact ⟨rfl, rfl, rfl⟩
    | _ => exact hc.elim
  | encoded r =>
    dsimp only [popWith]
    split
    · exact ⟨rfl, rfl, rfl⟩
    · next f rest hstack =>
      unfold encodedStep
      split
      · dsimp only [nextElement]
        split <;> exact ⟨rfl, rfl, rfl⟩
      all_goals exact ⟨rfl, rfl, rfl⟩
  | _ =>
    rw [hcon] at hc
    exact hc.elim

/-- **An engine at rest only lets go of what cannot be reached.** -/
theorem spares_step (hc : e.control.IsResting) (hs : e.heap.Sound) :
    e.Spares e.step.1.heap ∧ e.step.1.maxLength = e.maxLength ∧
      e.step.1.maxDepth = e.maxDepth := by
  unfold step
  split
  · exact ⟨.of_eq hs rfl, rfl, rfl⟩
  · split
    · next q o hu =>
      have hsound : (e.heap.erase q).Sound := by
        rw [Heap.erase_eq_restrict]
        exact hs.restrict _
      exact ⟨.of_erase hu (.of_eq hsound rfl), rfl, rfl⟩
    · obtain ⟨hheap, hlength, hdepth⟩ := proceed_of_isResting hc
      exact ⟨.of_eq hs hheap, hlength, hdepth⟩

lemma Holds.of_handles {t' : Handles Ref} (hh : Holds n h t g key r)
    (ht : ∀ g ∈ r.handles, t'.get? g = t.get? g) : Holds n h t' g key r := by
  obtain ⟨o, w, ho, hk, hown, hm⟩ := hh
  exact ⟨o, w, ho, hk, hown, hm.of_handles ht⟩

/-- The slots of a record that an object holds are held by the engine. -/
lemma Holds.mem_held (hh : Holds n e.heap t g key r) (hs : e.heap.Sound) {s : Slot}
    (hm : s ∈ r.slots) : s ∈ e.heldSlots := by
  obtain ⟨o, w, -, -, -, hmirrors⟩ := hh
  exact (mem_heldSlots hs).2 (hmirrors.exists_token hm)

end Engine

end ScriptBridge
