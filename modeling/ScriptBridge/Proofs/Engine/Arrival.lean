/-
# Records that become values

Turning a record into a value takes over every slot in it: each one is kept by a token
afterwards, or has been released.  What is on the heap already stays as it is, and each new
stand-in has a new token of its own.
-/
import ScriptBridge.Proofs.Engine.Advance
import ScriptBridge.Proofs.Script.StandIns

namespace ScriptBridge.Engine

open ScriptBridge.Number ScriptBridge.Script ScriptBridge.Table ScriptBridge.Wire

variable {P : Prop} {e e' e'' : Engine} {a b : List Slot}

/-- An engine has taken over some slots and changed nothing else that was there. -/
structure Takes (P : Prop) (e e' : Engine) (slots : List Slot) : Prop where
  keeps : e.heap.Keeps e'.heap
  sound : e.heap.Sound → e'.heap.Sound
  custody : (e'.heldSlots ++ e'.released).Perm (slots ++ (e.heldSlots ++ e.released))
  tokens : ∀ r o s t, e.heap.next ≤ r → e.heap.Sound → e'.heap.get? r = some o →
    o.kind = .proxy s t → e.heap.next ≤ t
  guarded : e.heap.Guarded P → e'.heap.Guarded P
  standIns : e.heap.Sound → e.heap.StandIns P → e'.heap.StandIns P
  stack : e'.stack = e.stack
  handles : e'.handles = e.handles
  control : e'.control = e.control
  connected : e'.connected = e.connected
  maxDepth : e'.maxDepth = e.maxDepth
  maxLength : e'.maxLength = e.maxLength

namespace Takes

lemma refl (P : Prop) (e : Engine) : Takes P e e [] where
  keeps := .refl _
  sound := id
  custody := .refl _
  tokens := fun r o s t hle hs hr _ => by
    rw [hs.get?_eq_none hle] at hr
    cases hr
  guarded := id
  standIns := fun _ => id
  stack := rfl
  handles := rfl
  control := rfl
  connected := rfl
  maxDepth := rfl
  maxLength := rfl

lemma trans (h₁ : Takes P e e' a) (h₂ : Takes P e' e'' b) : Takes P e e'' (a ++ b) where
  keeps := h₁.keeps.trans h₂.keeps
  sound := h₂.sound ∘ h₁.sound
  custody := by
    refine h₂.custody.trans ((h₁.custody.append_left b).trans ?_)
    rw [List.append_assoc]
    exact List.perm_append_comm_assoc b a _
  tokens := fun r o s t hle hs hr hk => by
    by_cases hlt : r < e'.heap.next
    · obtain ⟨p, hp, -, hkp⟩ := h₂.keeps.proxy hlt hr hk
      exact h₁.tokens r p s t hle hs hp hkp
    · exact Nat.le_trans h₁.keeps.next_le
        (h₂.tokens r o s t (Nat.not_lt.1 hlt) (h₁.sound hs) hr hk)
  guarded := h₂.guarded ∘ h₁.guarded
  standIns := fun hs hi => h₂.standIns (h₁.sound hs) (h₁.standIns hs hi)
  stack := h₂.stack.trans h₁.stack
  handles := h₂.handles.trans h₁.handles
  control := h₂.control.trans h₁.control
  connected := h₂.connected.trans h₁.connected
  maxDepth := h₂.maxDepth.trans h₁.maxDepth
  maxLength := h₂.maxLength.trans h₁.maxLength

/-- A new object that has nothing to do with a host entry takes over nothing. -/
lemma alloc {o : Object} (ho : o.IsPlain)
    (hlinks : e.heap.Guarded P → (e.alloc o).2.Shown P o.links) :
    Takes P e (e.alloc o).2 [] where
  keeps := .alloc _ _
  sound := fun hs => hs.alloc o
  custody := by
    rw [heldSlots, heldSlots, show slotsOf (e.alloc o).2.heap.objects = slotsOf e.heap.objects
      from (Heap.Grows.alloc e.heap ho.isInert).slots]
    rfl
  tokens := fun r p s t hle hs hr hk =>
    absurd ((Heap.Grows.alloc e.heap ho.isInert).lt_of_proxy hs hr hk) (Nat.not_lt.2 hle)
  guarded := fun hg => hg.alloc (fun _ => Heap.isTrap_of_isPlain ho) (hlinks hg)
  standIns := fun hs hi => hi.grows hs (.alloc e.heap ho.isInert)
  stack := rfl
  handles := rfl
  control := rfl
  connected := rfl
  maxDepth := rfl
  maxLength := rfl

/-- Slots that did not get to a value are released. -/
lemma release (P : Prop) (e : Engine) (slots : List Slot) :
    Takes P e { e with released := e.released ++ slots } slots :=
  { refl P e with
    custody := by
      rw [← List.append_assoc]
      exact List.perm_append_comm }

end Takes

/-! ### Stand-ins -/

/-- The places that a function which scripts find refers to. -/
lemma links_functionObject {b : Builtin} {name : String} {parameters : Nat} {l : Ref}
    (hl : l ∈ (Intrinsic.functionObject b name parameters).links) :
    l = Intrinsic.functionParent := by
  rcases Object.mem_links.1 hl with hl | hl | ⟨p, hp, hl⟩
  · exact (Option.some.inj hl).symm
  · cases hl
  · simp only [Intrinsic.functionObject, Object.ofKind, Intrinsic.signature, List.mem_cons,
      List.not_mem_nil, or_false] at hp
    rcases hp with rfl | rfl
    · rw [Property.refs, Value.refs_ofCount] at hl
      cases hl
    · cases hl

lemma takes_allocToken (P : Prop) (e : Engine) (slot : Slot) :
    Takes P e (e.allocToken slot).2 [slot] where
  keeps := .alloc _ _
  sound := fun hs => hs.alloc _
  custody := .refl _
  tokens := fun r o s t hle hs hr hk => by
    change (e.heap.alloc _).2.get? r = some o at hr
    rw [Heap.get?_alloc] at hr
    split at hr
    · cases hr
      cases hk
    · rw [hs.get?_eq_none hle] at hr
      cases hr
  guarded := fun hg => hg.alloc (fun _ => rfl) fun l hl => by
    rw [links_functionObject hl]
    exact (hg.intrinsic _ Intrinsic.functionParent_lt).keeps (.alloc _ _)
  standIns := fun hs hi => hi.allocToken hs rfl (by intro s t hk; cases hk)
  stack := rfl
  handles := rfl
  control := rfl
  connected := rfl
  maxDepth := rfl
  maxLength := rfl

lemma spare_allocToken (hs : e.heap.Sound) (hi : e.heap.StandIns P) (slot : Slot) :
    (e.allocToken slot).2.heap.Spare P slot (e.allocToken slot).1 :=
  Heap.spare_alloc hi hs rfl (by intro s t hk; cases hk)

/-- A stand-in with its token. -/
lemma takes_allocProxy (P : Prop) (e : Engine) (slot : Slot) :
    Takes P e (e.allocProxy slot).2 [slot] where
  keeps := (Heap.Keeps.alloc _ _).trans (.alloc _ _)
  sound := fun hs => (hs.alloc _).alloc _
  custody := .refl _
  tokens := fun r o s t hle hs hr hk => by
    change ((e.heap.alloc _).2.alloc _).2.get? r = some o at hr
    rw [Heap.get?_alloc, Heap.get?_alloc] at hr
    split at hr
    · cases hr
      cases hk
      exact Nat.le_refl _
    · split at hr
      · cases hr
        cases hk
      · rw [hs.get?_eq_none hle] at hr
        cases hr
  guarded := fun hg => by
    have hg' := (takes_allocToken P e slot).guarded hg
    exact hg'.alloc (fun _ => rfl) (by intro l hl; cases hl)
  standIns := fun hs hi =>
    ((takes_allocToken P e slot).standIns hs hi).allocStandIn (hs.alloc _)
      (spare_allocToken hs hi slot) rfl rfl
  stack := rfl
  handles := rfl
  control := rfl
  connected := rfl
  maxDepth := rfl
  maxLength := rfl

lemma shown_allocProxy (slot : Slot) :
    (e.allocProxy slot).2.Shown P (e.allocProxy slot).1.refs :=
  shown_cons.2 ⟨Heap.shows_alloc _ rfl, shown_nil P _⟩

/-! ### Records -/

/-- The outcome of making a value is shown. -/
def ShownOutcome (P : Prop) (e : Engine) : Outcome → Prop
  | .ok v => e.Shown P v.refs
  | .error v => e.Shown P v.refs

/-- What is referred to may still be referred to later. -/
lemma Takes.shown {refs : List Ref} (ht : Takes P e e' a) (hr : e.Shown P refs) :
    e'.Shown P refs := fun r hm => (hr r hm).keeps ht.keeps

lemma takes_allocOfKind (e : Engine) {kind : ObjectKind} (hk : kind.isPlain = true)
    {parent : Ref} (hparent : parent < Intrinsic.count) (hlinks : kind.links = [])
    {properties : List (Key × Property)} (hp : ∀ p ∈ properties, e.Shown P p.2.refs) :
    Takes P e (e.alloc (.ofKind kind (some parent) properties)).2 [] := by
  have ho := Object.isPlain_ofKind hk (some parent) properties
  refine .alloc ho fun hg l hl => ?_
  rcases Object.mem_links.1 hl with hl | hl | ⟨p, hm, hl⟩
  · cases hl
    exact (hg.intrinsic _ hparent).keeps (.alloc _ _)
  · rw [show (Object.ofKind kind (some parent) properties).kind.links = [] from hlinks] at hl
    cases hl
  · exact (hp p hm l hl).keeps (.alloc _ _)

lemma takes_newError (e : Engine) (className message : String) :
    Takes P e (e.newError className message).2 [] := by
  refine takes_allocOfKind e rfl (Intrinsic.errorParentOf_lt _) rfl fun p hp => ?_
  rcases List.mem_append.1 hp with hp | hp
  · cases List.mem_singleton.1 hp
    exact shown_nil P e
  · cases List.mem_singleton.1 hp
    exact shown_nil P e

lemma takes_restore (hh : e.Shown P e.handles.values) (h : Handle) :
    Takes P e (e.restore h).2 [] ∧ ShownOutcome P (e.restore h).2 (e.restore h).1 := by
  unfold Engine.restore
  split
  · next r hr =>
    exact ⟨.refl P e, shown_cons.2 ⟨hh r (Handles.mem_values_of_get? hr), shown_nil P e⟩⟩
  · exact ⟨takes_newError e _ _, Grown.shown_newErrorOf _ _⟩

lemma takes_convertLeaf (hh : e.Shown P e.handles.values) {v : View}
    (hv : ∀ items, v = .array items → items = []) :
    Takes P e (e.convertLeaf v).2 v.slots ∧
      ShownOutcome P (e.convertLeaf v).2 (e.convertLeaf v).1 := by
  cases v with
  | null => exact ⟨.refl P e, shown_nil P e⟩
  | boolean b => exact ⟨.refl P e, shown_nil P e⟩
  | integer n => exact ⟨.refl P e, shown_nil P e⟩
  | number x => exact ⟨.refl P e, .of_refs_nil (Value.refs_ofWhole x)⟩
  | string s => exact ⟨.refl P e, shown_nil P e⟩
  | date x =>
    exact ⟨takes_allocOfKind e rfl Intrinsic.dateParent_lt rfl (by simp),
      shown_alloc (Object.isPlain_ofKind rfl _ _)⟩
  | array items =>
    obtain rfl := hv items rfl
    exact ⟨takes_allocOfKind e rfl Intrinsic.arrayParent_lt rfl (by simp),
      shown_alloc (Grown.isPlain_array [])⟩
  | managedRef slot => exact ⟨takes_allocProxy P e slot, shown_allocProxy slot⟩
  | managedError slot => exact ⟨takes_allocProxy P e slot, shown_allocProxy slot⟩
  | foreignRef handle =>
    cases handle with
    | none => exact ⟨.refl P e, shown_nil P e⟩
    | some h => exact takes_restore hh h
  | foreignError handle =>
    cases handle with
    | none => exact ⟨.refl P e, shown_nil P e⟩
    | some h => exact takes_restore hh h
  | unknownError m =>
    refine ⟨takes_allocOfKind e rfl Intrinsic.errorParent_lt rfl fun p hp => ?_,
      shown_newHostError _⟩
    cases List.mem_singleton.1 hp
    exact shown_nil P e

lemma takes_convertShallow (hh : e.Shown P e.handles.values) {r : Record}
    (hr : ∀ items, r ≠ .array items) :
    Takes P e (e.convertShallow r).2 r.slots ∧
      ShownOutcome P (e.convertShallow r).2 (e.convertShallow r).1 := by
  unfold Engine.convertShallow
  split
  · next v hview =>
    rw [Record.slots_of_view hview]
    refine takes_convertLeaf hh fun items heq => ?_
    subst heq
    cases r with
    | plain tag bits length => exact Record.view_plain_ne_array hview
    | text kind bytes => rcases Record.view_text_isString hview with ⟨s, h⟩ | ⟨s, h⟩ <;> cases h
    | array items => exact absurd rfl (hr items)
  · next err hview =>
    rw [Record.slots_of_view_error hview]
    exact ⟨takes_newError e _ _, Grown.shown_newErrorOf _ _⟩

/-- The outcome of making some values is shown. -/
def ShownItems (P : Prop) (e : Engine) : Except Value (List Value) → Prop
  | .ok vs => ∀ v ∈ vs, e.Shown P v.refs
  | .error v => e.Shown P v.refs

mutual
/-- **Turning a record into a value takes over its slots.** -/
theorem takes_convert (e : Engine) (hh : e.Shown P e.handles.values) :
    ∀ r : Record, Takes P e (e.convert r).2 r.slots ∧
      ShownOutcome P (e.convert r).2 (e.convert r).1
  | .plain tag bits length => by
    rw [Engine.convert]
    exact takes_convertShallow hh (by intro items h; cases h)
  | .text kind bytes => by
    rw [Engine.convert]
    exact takes_convertShallow hh (by intro items h; cases h)
  | .array items => by
    have hitems := takes_convertItems e hh items
    rw [Engine.convert]
    cases hmade : e.convertItems items with
    | mk outcome e' =>
      rw [hmade] at hitems
      cases outcome with
      | error v => exact hitems
      | ok vs =>
        have hshown : ∀ v ∈ vs, e'.Shown P v.refs := hitems.2
        refine ⟨?_, shown_alloc (Grown.isPlain_array vs)⟩
        rw [← List.append_nil (Record.slots _)]
        refine hitems.1.trans (takes_allocOfKind e' rfl Intrinsic.arrayParent_lt rfl
          fun p hp => ?_)
        obtain ⟨v, hm, hp⟩ := Grown.mem_items hp
        rw [hp]
        exact hshown v hm

/-- Turning records into values takes over their slots, also where one fails. -/
theorem takes_convertItems (e : Engine) (hh : e.Shown P e.handles.values) :
    ∀ rs : List Record, Takes P e (e.convertItems rs).2 (Record.slotsOfItems rs) ∧
      ShownItems P (e.convertItems rs).2 (e.convertItems rs).1
  | [] => by
    rw [Engine.convertItems]
    exact ⟨.refl P e, by simp [ShownItems]⟩
  | r :: rs => by
    have hfirst := takes_convert e hh r
    rw [Engine.convertItems]
    cases hmade : e.convert r with
    | mk outcome e' =>
      rw [hmade] at hfirst
      cases outcome with
      | error v =>
        exact ⟨hfirst.1.trans (.release P e' _), hfirst.2⟩
      | ok v =>
        have hh' : e'.Shown P e'.handles.values := by
          rw [hfirst.1.handles]
          exact hfirst.1.shown hh
        have hrest := takes_convertItems e' hh' rs
        dsimp only
        cases hothers : e'.convertItems rs with
        | mk outcome e'' =>
          rw [hothers] at hrest
          cases outcome with
          | error w => exact ⟨hfirst.1.trans hrest.1, hrest.2⟩
          | ok vs =>
            have hvalues : ∀ w ∈ v :: vs, e''.Shown P w.refs :=
              List.forall_mem_cons.2 ⟨hrest.1.shown hfirst.2, hrest.2⟩
            exact ⟨hfirst.1.trans hrest.1, hvalues⟩
end

end ScriptBridge.Engine
