/-
# Calls and evaluation as work of script

Calling functions, making instances and evaluating expressions are work of script, too.
A function that gives access to a host entry without its stand-in exists only where tokens
are not hidden.
-/
import ScriptBridge.Proofs.Engine.Access

namespace ScriptBridge.Engine

open ScriptBridge.Number ScriptBridge.Script ScriptBridge.Table ScriptBridge.Text ScriptBridge.Wire

variable {P : Prop} {e₀ e : Engine} {v w t f this object : Value} {r : Ref} {key : Key}
  {args : List Value}

lemma shown_getD {vs : List Value} (hvs : ∀ v ∈ vs, e.Shown P v.refs) (i : Nat) :
    e.Shown P (vs[i]?.getD .undefined).refs := by
  cases hi : vs[i]? with
  | none => exact shown_nil P e
  | some v => exact hvs v (List.mem_of_getElem? hi)

lemma shown_head?_getD {vs : List Value} (hvs : ∀ v ∈ vs, e.Shown P v.refs) {w : Value}
    (hw : e.Shown P w.refs) : e.Shown P (vs.head?.getD w).refs := by
  cases vs with
  | nil => exact hw
  | cons v vs => exact hvs v (List.mem_cons_self ..)

lemma shown_call (hf : e.Shown P f.refs) (hthis : e.Shown P this.refs)
    (hargs : ∀ v ∈ args, e.Shown P v.refs) : e.Shown P (Control.call f this args).refs := by
  simp only [Control.refs, shown_append, shown_flatMap]
  exact ⟨⟨hf, hthis⟩, hargs⟩

lemma shown_reverse {vs : List Value} (hvs : ∀ v ∈ vs, e.Shown P v.refs) :
    ∀ v ∈ vs.reverse, e.Shown P v.refs := fun v hv => hvs v (List.mem_reverse.1 hv)

lemma object_of_kind {kind : ObjectKind} (h : (e.object? f).map Object.kind = some kind) :
    ∃ r o, f = .object r ∧ e.heap.get? r = some o ∧ o.kind = kind := by
  obtain ⟨o, ho, hk⟩ := Option.map_eq_some_iff.1 h
  cases f with
  | object r => exact ⟨r, o, rfl, ho, hk⟩
  | _ => cases ho

lemma Shown.markThrown {refs : List Ref} (h : e.Shown P refs) (v : Value) :
    (e.markThrown v).Shown P refs := by
  unfold Engine.markThrown
  split
  · exact h.withHeap (.update _ _ fun o => by split <;> rfl) _
  · exact h

namespace Grown

/-! ### Arguments -/

lemma nextArgument (h : Grown P e₀ e) (hf : e.Shown P f.refs) (hthis : e.Shown P this.refs)
    (ho : e.Shown P object.refs) {done : List Value} (hd : ∀ v ∈ done, e.Shown P v.refs)
    (count index : Nat) : ScriptWork P e₀ (e.nextArgument f this object count index done) := by
  unfold Engine.nextArgument
  split
  · refine (h.await (p := .argument f this object count index done) rfl ?_).works rfl ho
    simp only [Pending.refs, shown_append, shown_flatMap]
    exact ⟨⟨⟨hf, hthis⟩, ho⟩, hd⟩
  · exact h.works rfl (shown_call hf hthis (shown_reverse hd))

lemma takeArgumentCount (h : Grown P e₀ e) (hf : e.Shown P f.refs)
    (hthis : e.Shown P this.refs) (ho : e.Shown P object.refs) (v : Value) :
    ScriptWork P e₀ (e.takeArgumentCount f this object v) := by
  unfold Engine.takeArgumentCount
  dsimp only
  split
  · exact h.throwNew _ _
  · exact h.nextArgument hf hthis ho (by simp) _ 0

lemma applyTo (h : Grown P e₀ e) (hf : e.Shown P f.refs) (hthis : e.Shown P this.refs)
    (ho : e.Shown P object.refs) : ScriptWork P e₀ (e.applyTo f this object) := by
  unfold Engine.applyTo
  split
  · exact h.throwType _
  · split
    · exact h.works rfl (shown_call hf hthis (by simp))
    · exact h.works rfl (shown_call hf hthis (by simp))
    · refine ((h.await (p := .argumentCount f this _) rfl ?_).await (p := .number) rfl
        (shown_nil P e)).works rfl ho
      simp only [Pending.refs, shown_append]
      exact ⟨⟨hf, hthis⟩, ho⟩
    · exact h.throwType _

/-! ### Instances -/

lemma allocHeir (h : Grown P e₀ e) {parent : Option Ref}
    (hp : ∀ p, parent = some p → e.heap.Shows P p) : Grown P e₀ (e.allocHeir parent).2 := by
  refine h.allocOfKind rfl ?_ (shown_nil P e) (by simp)
  rintro p ⟨⟩
  cases parent with
  | none => exact h.shown_intrinsic Intrinsic.objectParent_lt
  | some p => exact hp p rfl

lemma shown_allocHeir (parent : Option Ref) :
    (e.allocHeir parent).2.Shown P (e.allocHeir parent).1.refs :=
  shown_alloc (Object.isPlain_ofKind rfl _ _)

lemma giveHeir (h : Grown P e₀ e) {parent : Option Ref}
    (hp : ∀ p, parent = some p → e.heap.Shows P p) :
    ScriptWork P e₀ (Engine.giveNew (e.allocHeir parent)) :=
  (h.allocHeir hp).give (shown_allocHeir parent)

/-- A new object of a kind is given. -/
lemma giveOfKind (h : Grown P e₀ e) {kind : ObjectKind} (hk : kind.isPlain = true)
    {parent : Ref} (hparent : parent < Intrinsic.count) (hlinks : e.Shown P kind.links) :
    ScriptWork P e₀ (Engine.giveNew (e.alloc (.ofKind kind (some parent)))) :=
  (h.allocOfKind hk (h.shown_parent hparent) hlinks (by simp)).give
    (shown_alloc (Object.isPlain_ofKind hk _ _))

lemma giveObject (h : Grown P e₀ e) (hv : e.Shown P v.refs) : ScriptWork P e₀ (e.giveObject v) := by
  unfold Engine.giveObject
  split
  · exact h.give hv
  · next hp => exact h.giveOfKind rfl (Intrinsic.parentOfPlain?_lt hp) (shown_nil P e)
  · exact h.giveHeir (by simp)

lemma isPlain_array (items : List Value) : (Object.ofKind (.array items.length)
    (some Intrinsic.arrayParent) (items.zipIdx.map fun (v, i) => (Key.index i, .data v))).IsPlain :=
  Object.isPlain_ofKind rfl _ _

lemma mem_items {items : List Value} {p : Key × Property}
    (hp : p ∈ items.zipIdx.map fun (v, i) => (Key.index i, Property.data v)) :
    ∃ v ∈ items, p.2 = .data v := by
  obtain ⟨⟨v, i⟩, hm, rfl⟩ := List.mem_map.1 hp
  exact ⟨v, (List.mem_zipIdx' hm).2 ▸ List.getElem_mem _, rfl⟩

lemma allocArray (h : Grown P e₀ e) {items : List Value} (hv : ∀ v ∈ items, e.Shown P v.refs) :
    Grown P e₀ (e.allocArray items).2 := by
  refine h.allocOfKind rfl (h.shown_parent Intrinsic.arrayParent_lt) (shown_nil P e)
    fun p hp => ?_
  obtain ⟨v, hm, hp⟩ := mem_items hp
  rw [hp]
  exact hv v hm

lemma shown_allocArray (items : List Value) :
    (e.allocArray items).2.Shown P (e.allocArray items).1.refs :=
  shown_alloc (isPlain_array items)

lemma giveArray (h : Grown P e₀ e) {items : List Value} (hv : ∀ v ∈ items, e.Shown P v.refs) :
    ScriptWork P e₀ (Engine.giveNew (e.allocArray items)) :=
  (h.allocArray hv).give (shown_allocArray items)

lemma makeArray (h : Grown P e₀ e) (hargs : ∀ v ∈ args, e.Shown P v.refs) :
    ScriptWork P e₀ (e.makeArray args) := by
  have hlength : ∀ n : Nat,
      ScriptWork P e₀
        (Engine.giveNew (e.alloc (.ofKind (.array n) (some Intrinsic.arrayParent)))) :=
    fun _ => h.giveOfKind rfl Intrinsic.arrayParent_lt (shown_nil P e)
  unfold Engine.makeArray
  dsimp only
  split
  · split
    · exact hlength _
    · exact h.throwNew _ _
  · split
    · exact hlength _
    · exact h.throwNew _ _
  · exact h.giveArray hargs

lemma makeError (h : Grown P e₀ e) (className : String) (hv : e.Shown P v.refs) :
    ScriptWork P e₀ (e.makeError className v) := by
  unfold Engine.makeError
  split
  · exact (h.newErrorOf className (by simp)).give (shown_newErrorOf className none)
  · exact (h.await (p := .errorOf className) rfl (shown_nil P e)).giveText hv none

lemma makeInstance (h : Grown P e₀ e) (c : ObjectClass)
    (hargs : ∀ v ∈ args, e.Shown P v.refs) : ScriptWork P e₀ (e.makeInstance c args) := by
  have hfirst := shown_head?_getD hargs (w := .undefined) (shown_nil P e)
  unfold Engine.makeInstance
  dsimp only
  split
  · exact h.giveObject hfirst
  · exact h.giveOfKind rfl Intrinsic.functionParent_lt (shown_nil P e)
  · exact h.makeArray hargs
  · exact h.giveOfKind rfl Intrinsic.dateParent_lt (shown_nil P e)
  · exact h.makeError _ hfirst
  · exact (h.await (p := .boxed) rfl (shown_nil P e)).giveText
      (shown_head?_getD hargs (w := .text "") (shown_nil P e)) none
  · exact (h.await (p := .boxed) rfl (shown_nil P e)).giveNearest
      (shown_head?_getD hargs (w := .int 0) (shown_nil P e))
  · exact h.giveObject (shown_nil P e)
  · exact h.throwType _
  · exact h.throwType _
  · exact h.throwType _

lemma construct (h : Grown P e₀ e) (hf : e.Shown P f.refs)
    (hargs : ∀ v ∈ args, e.Shown P v.refs) : ScriptWork P e₀ (e.construct f args) := by
  have hparent : ScriptWork P e₀
      ((e.await (.instanceParent f args)).goto (.read f (.name "prototype"))) := by
    refine (h.await (p := .instanceParent f args) rfl ?_).works rfl hf
    simp only [Pending.refs, shown_append, shown_flatMap]
    exact ⟨hf, hargs⟩
  unfold Engine.construct
  split
  · exact h.makeInstance _ hargs
  · exact hparent
  · exact hparent
  · exact h.throwType _
  · exact h.throwType _

lemma constructFrom (h : Grown P e₀ e) (hf : e.Shown P f.refs)
    (hargs : ∀ v ∈ args, e.Shown P v.refs) (hv : e.Shown P v.refs) :
    ScriptWork P e₀ (e.constructFrom f args v) := by
  have hheir : ∀ p, v.refs.head? = some p → e.heap.Shows P p := fun p hp =>
    hv p (List.mem_of_head? hp)
  have hplain : ∀ q, (Object.ofKind .ordinary q []).IsPlain := fun q =>
    Object.isPlain_ofKind rfl _ _
  have hgrown := h.allocHeir hheir
  have hmade := shown_allocHeir (P := P) (e := e) v.refs.head?
  unfold Engine.constructFrom
  dsimp only
  split
  · exact (hgrown.await (p := .instanceMade (.object e.heap.next)) rfl hmade).works rfl
      (shown_call (hf.alloc (hplain _)) hmade fun w hw => (hargs w hw).alloc (hplain _))
  · exact hgrown.give hmade

lemma instantiate (h : Grown P e₀ e) (c : ObjectClass)
    (hargs : ∀ v ∈ args, e.Shown P v.refs) : ScriptWork P e₀ (e.instantiate c args) :=
  (h.await (p := .instanceClass args) rfl (shown_flatMap.2 hargs)).works rfl h.shown_global

/-! ### Functions that scripts find -/

lemma withReceiver (h : Grown P e₀ e) {next : Engine → Value → Engine}
    (hnext : ScriptWork P e₀ (next e this)) : ScriptWork P e₀ (e.withReceiver this next) := by
  unfold Engine.withReceiver
  split
  · exact h.throwType _
  · exact h.throwType _
  · exact hnext

lemma withTime (h : Grown P e₀ e) {next : Binary64 → Value} (hnext : ∀ x, (next x).refs = []) :
    ScriptWork P e₀ (e.withTime this next) := by
  unfold Engine.withTime
  split
  · exact h.give (.of_refs_nil (hnext _))
  · exact h.throwType _

lemma adopt (h : Grown P e₀ e) {parent : Option Ref}
    (hp : ∀ p, parent = some p → e.heap.Shows P p) : ScriptWork P e₀
      { e with
        heap := e.heap.update r fun o => { o with parent := parent }
        control := .ret .undefined } := by
  refine .inner (h.update (g := fun o => { o with parent := parent }) (fun o => rfl)
    (fun o ho l hl => ?_) _) trivial trivial (shown_nil P _) (.inl trivial)
  rcases Object.mem_links.1 hl with hl | hl
  · exact hp l hl
  · exact h.guarded.linked r o ho l (Object.mem_links.2 (.inr hl))

lemma setParent (h : Grown P e₀ e) (hv : e.Shown P v.refs) :
    ScriptWork P e₀ (e.setParent this v) := by
  unfold Engine.setParent
  dsimp only
  split
  · exact h.adopt (by simp)
  · split
    · exact h.throwType _
    · refine h.adopt ?_
      rintro p ⟨⟩
      exact (shown_cons.1 hv).1
  · exact h.give (shown_nil P e)

lemma shown_parentOf (h : Grown P e₀ e) (v : Value) : e.Shown P (e.parentOf v).refs := by
  have hshown : ∀ parent : Option Ref, (∀ p, parent = some p → e.heap.Shows P p) →
      e.Shown P (parent.elim Value.null Value.object).refs := by
    intro parent hp
    cases parent with
    | none => exact shown_nil P e
    | some p => exact shown_cons.2 ⟨hp p rfl, shown_nil P e⟩
  unfold Engine.parentOf
  refine hshown _ fun p hp => ?_
  split at hp
  · obtain ⟨o, ho, hp⟩ := Option.bind_eq_some_iff.1 hp
    exact h.guarded.linked.parent ho hp
  · exact h.shown_intrinsic (Intrinsic.parentOfPlain?_lt hp)

lemma refs_of_plainClass? {c : ObjectClass} (h : Intrinsic.plainClass? v = some c) :
    v.refs = [] := by
  cases v <;> first | rfl | cases h

lemma withPlain (h : Grown P e₀ e) (c : ObjectClass) {next : Value → Engine}
    (hnext : ∀ v : Value, v.refs = [] → ScriptWork P e₀ (next v)) :
    ScriptWork P e₀ (e.withPlain c this next) := by
  unfold Engine.withPlain
  dsimp only
  split
  · next hv =>
      exact hnext _ (refs_of_plainClass? (by simpa using (Option.filter_eq_some_iff.1 hv).2))
  · exact h.throwType _

lemma givePlainText (h : Grown P e₀ e) (hv : e.Shown P v.refs) :
    ScriptWork P e₀ (e.givePlainText v) := by
  unfold Engine.givePlainText
  split
  · exact h.give (shown_nil P e)
  · exact h.giveText hv none

lemma giveSymbol (h : Grown P e₀ e) (description : Option Units) :
    ScriptWork P e₀ (e.giveSymbol description) :=
  .inner (h.withHeap (.symbol _) h.guarded.symbol _) trivial trivial (shown_nil P _) (.inl trivial)

lemma callClass (h : Grown P e₀ e) (c : ObjectClass) (hargs : ∀ v ∈ args, e.Shown P v.refs) :
    ScriptWork P e₀ (e.callClass c args) := by
  have hfirst := shown_head?_getD hargs (w := .undefined) (shown_nil P e)
  unfold Engine.callClass
  dsimp only
  split
  · exact h.givePlainText (shown_head?_getD hargs (shown_nil P e))
  · exact h.giveNearest (shown_head?_getD hargs (shown_nil P e))
  · exact h.give (shown_nil P e)
  · split
    · exact h.giveSymbol none
    · exact (h.await (p := .symbol) rfl (shown_nil P e)).giveText hfirst none
  · exact h.giveBigint hfirst
  · exact h.throwType _
  · exact h.makeInstance _ hargs

/-! ### Entries of the host -/

lemma withEntryName (h : Grown P e₀ e) {next : String → Engine}
    (hnext : ∀ name, ScriptWork P e₀ (next name)) : ScriptWork P e₀ (e.withEntryName v next) := by
  unfold Engine.withEntryName
  split
  · split
    · exact hnext _
    · exact h.throwType _
  · exact h.throwType _

lemma callReader (h : Grown P e₀ e) (hP : ¬P) (slot : Slot) (v : Value) :
    ScriptWork P e₀ (e.callReader slot v) := by
  unfold Engine.callReader
  split
  · exact h.give (shown_nil P e)
  · exact h.withEntryName fun name =>
      h.askEntry slot name (shown_nil P e) fun hp => absurd hp hP

lemma callWriter (h : Grown P e₀ e) (hP : ¬P) (slot : Slot) (v : Value)
    (hw : e.Shown P w.refs) : ScriptWork P e₀ (e.callWriter slot v w) := by
  unfold Engine.callWriter
  split
  · exact h.give (shown_nil P e)
  · exact h.withEntryName fun name =>
      h.assignEntry slot name hw (shown_nil P e) (shown_nil P e) fun hp => absurd hp hP

lemma callEntry (h : Grown P e₀ e) (hP : ¬P) (slot : Slot) (hv : e.Shown P v.refs) :
    ScriptWork P e₀ (e.callEntry slot v) := by
  unfold Engine.callEntry
  split
  · exact h.invokeEntry slot hv (shown_nil P e) fun hp => absurd hp hP
  · exact h.throwType _

/-! ### Calls -/

lemma callBuiltin (h : Grown P e₀ e) {b : Builtin}
    (hb : (ObjectKind.builtin b).isTrap = true → ¬P) (hthis : e.Shown P this.refs)
    (hargs : ∀ v ∈ args, e.Shown P v.refs) : ScriptWork P e₀ (e.callBuiltin b this args) := by
  have harg := shown_getD hargs
  unfold Engine.callBuiltin
  dsimp only
  split
  · exact h.give (shown_nil P e)
  · exact h.works rfl (shown_call hthis (harg 0) fun v hv => hargs v (List.mem_of_mem_tail hv))
  · exact h.applyTo hthis (harg 0) (harg 1)
  · exact h.describeFunction hthis
  · exact h.withTime fun _ => rfl
  · exact h.withTime fun _ => rfl
  · exact h.withTime fun _ => rfl
  · exact h.withReceiver (h.giveObject hthis)
  · exact h.give (shown_nil P e)
  · exact h.withReceiver (h.give (h.shown_parentOf this))
  · exact h.withReceiver (h.setParent (harg 0))
  · exact h.withReceiver (h.join hthis (harg 0))
  · exact h.withReceiver ((h.await (p := .joinMember this) rfl hthis).works rfl hthis)
  · exact h.withReceiver (h.giveHeir (by simp))
  · split
    · exact h.throwType _
    · exact h.throwType _
    · exact h.giveHeir (by simp)
  · split
    · exact h.describeError hthis
    · exact h.throwType _
  · exact h.withPlain _ fun v hv => h.give (.of_refs_nil hv)
  · exact h.withPlain _ fun v hv => h.givePlainText (.of_refs_nil hv)
  · refine h.withPlain _ fun v hv => h.give (.of_refs_nil ?_)
    unfold descriptionOf
    split <;> rfl
  · exact h.callClass _ hargs
  · exact h.give (shown_nil P e)
  · exact h.callReader (hb rfl) _ _
  · exact h.callWriter (hb rfl) _ _ (harg 2)
  · exact h.callEntry (hb rfl) _ (harg 2)

lemma enterCall (h : Grown P e₀ e) (hf : e.Shown P f.refs) (hthis : e.Shown P this.refs)
    (hargs : ∀ v ∈ args, e.Shown P v.refs) : Grown P e₀ (e.enterCall f this args) := by
  refine h.push (f := .call (f :: this :: args)) rfl ?_
  simp only [Frame.refs, List.flatMap_cons, shown_append, shown_flatMap]
  exact ⟨hf, hthis, hargs⟩

lemma callStep (h : Grown P e₀ e) (hf : e.Shown P f.refs) (hthis : e.Shown P this.refs)
    (hargs : ∀ v ∈ args, e.Shown P v.refs) : ScriptWork P e₀ (e.callStep f this args) := by
  have hcall := h.enterCall hf hthis hargs
  unfold Engine.callStep
  split
  · next body caught kept hk =>
    split
    · exact h.throwFull
    · refine hcall.works rfl ?_
      obtain ⟨r, o, rfl, ho, hkind⟩ := object_of_kind hk
      have hlinks : e.Shown P o.kind.links := fun l hl =>
        h.guarded.linked r o ho l (Object.mem_links.2 (.inr (.inl hl)))
      rw [hkind] at hlinks
      simp only [ObjectKind.links, ObjectKind.refs, shown_append, shown_flatMap] at hlinks
      simp only [Control.refs, Env.refs, shown_append, shown_flatMap]
      refine ⟨⟨hthis, fun v hv => ?_⟩, hlinks.1⟩
      cases kept with
      | none => exact hargs v hv
      | some vs => exact hlinks.2 v hv
  · next b hk =>
    split
    · exact h.throwFull
    · refine hcall.callBuiltin (fun htrap hP => ?_) hthis hargs
      obtain ⟨r, o, rfl, ho, hkind⟩ := object_of_kind hk
      have hnone := h.guarded.traps hP r o ho
      rw [hkind, htrap] at hnone
      cases hnone
  · next slot token hk =>
    obtain ⟨r, o, rfl, ho, hkind⟩ := object_of_kind hk
    have hplain := isPlain_array args
    refine (h.allocArray hargs).invokeEntry slot (shown_allocArray args) ?_ fun hP => ?_
    · simp only [List.flatMap_cons, shown_append, shown_flatMap]
      exact ⟨hf.alloc hplain, hthis.alloc hplain, fun v hv => (hargs v hv).alloc hplain⟩
    · have hold : r ≠ e.heap.next := Nat.ne_of_lt ((shown_cons.1 hf).1 hP).1
      refine ⟨r, List.mem_append_left _ (List.mem_singleton_self r), o, token, ?_, hkind⟩
      rw [← ho]
      exact (Heap.get?_alloc _ _ r).trans (if_neg hold)
  · exact h.throwType _

/-! ### Operators -/

lemma allocNest (h : Grown P e₀ e) (depth : Nat) : Grown P e₀ (e.allocNest depth).2 ∧
    (e.allocNest depth).2.Shown P (e.allocNest depth).1.refs := by
  fun_induction Engine.allocNest e depth with
  | case1 => exact ⟨h.allocArray (by simp), shown_allocArray []⟩
  | case2 => exact ⟨h.allocArray (by simp), shown_allocArray []⟩
  | case3 depth hne v e' hv ih =>
    rw [hv] at ih
    refine ⟨ih.1.allocArray fun w hw => ?_, shown_allocArray _⟩
    rw [List.mem_singleton] at hw
    exact hw ▸ ih.2

lemma giveLoop (h : Grown P e₀ e) : ScriptWork P e₀ (Engine.giveNew e.allocLoop) := by
  have hplain := isPlain_array [.object e.heap.next]
  refine h.giveNew hplain fun l hl => ?_
  rcases Object.mem_links.1 hl with hl | hl | ⟨p, hp, hl⟩
  · cases hl
    exact (h.shown_intrinsic Intrinsic.arrayParent_lt).keeps (.alloc _ _)
  · cases hl
  · obtain ⟨v, hm, hp⟩ := mem_items hp
    rw [List.mem_singleton] at hm
    subst hm
    rw [hp] at hl
    rw [List.mem_singleton.1 hl]
    exact Heap.shows_alloc _ hplain.isInert.slot

lemma giveRecord (h : Grown P e₀ e) {properties : List (String × Value)}
    (hv : ∀ p ∈ properties, e.Shown P p.2.refs) :
    ScriptWork P e₀ (Engine.giveNew (e.allocObject properties)) := by
  have key : ∀ (properties : List (String × Value)) (o : Object), o.IsPlain →
      e.Shown P o.links → (∀ p ∈ properties, e.Shown P p.2.refs) →
      let o' := properties.foldl (fun o p => o.define (.ofName p.1) (.data p.2)) o
      o'.IsPlain ∧ e.Shown P o'.links := by
    intro properties
    induction properties with
    | nil => exact fun o ho hl _ => ⟨ho, hl⟩
    | cons p properties ih =>
      intro o ho hl hv
      refine ih _ (Object.isPlain_congr (o.sort_define _ _) ho) (fun l hm => ?_)
        fun q hq => hv q (List.mem_cons_of_mem _ hq)
      rcases Object.links_define hm with hm | hm
      · exact hl l hm
      · exact hv p (List.mem_cons_self ..) l hm
  obtain ⟨hplain, hlinks⟩ := key properties (.ofKind .ordinary (some Intrinsic.objectParent))
    (Object.isPlain_ofKind rfl _ _) (fun l hl => by
      rcases Object.mem_links.1 hl with hl | hl | ⟨p, hp, -⟩
      · cases hl
        exact h.shown_intrinsic Intrinsic.objectParent_lt
      · cases hl
      · cases hp) hv
  exact h.giveNew hplain (Shown.alloc hlinks hplain)

lemma allocFunction (h : Grown P e₀ e) (body : Expr) (isGetter : Bool) {env : Env}
    (henv : e.Shown P env.refs) : Grown P e₀ (e.allocFunction body isGetter env).2 := by
  simp only [Env.refs, shown_append, shown_flatMap] at henv
  refine h.allocOfKind rfl (h.shown_parent Intrinsic.functionParent_lt) ?_ (by simp)
  simp only [ObjectKind.links, ObjectKind.refs, shown_append, shown_flatMap]
  constructor
  · intro v hv
    split at hv
    · exact henv.2 v hv
    · cases hv
  · intro v hv
    split at hv
    · exact henv.1.2 v hv
    · cases hv

lemma shown_allocFunction (body : Expr) (isGetter : Bool) (env : Env) :
    (e.allocFunction body isGetter env).2.Shown P (e.allocFunction body isGetter env).1.refs :=
  shown_alloc (Object.isPlain_ofKind rfl _ _)

lemma apply (h : Grown P e₀ e) (op : Op) {operands : List Value}
    (hv : ∀ v ∈ operands, e.Shown P v.refs) : ScriptWork P e₀ (e.apply op operands) := by
  unfold Engine.apply
  split
  · exact h.giveSymbol _
  · exact h.instantiate _ (by simp [Value.refs])
  · exact h.giveHeir (h.shown_parent Intrinsic.dateParent_lt)
  · exact (h.allocNest _).1.give (h.allocNest _).2
  · exact h.giveLoop
  · exact h.instantiate _ (by simp)
  · exact h.giveArray hv
  · refine h.giveArray fun w hw => ?_
    rw [List.eq_of_mem_replicate hw]
    exact hv _ (List.mem_cons_self ..)
  · exact h.giveRecord fun p hp => hv _ (List.of_mem_zip hp).2
  · exact h.works rfl (shown_append.2 ⟨h.shown_global, (List.forall_mem_cons.1 hv).1⟩)
  · exact h.works rfl (List.forall_mem_cons.1 hv).1
  · simp only [List.forall_mem_cons] at hv
    exact h.works rfl (shown_append.2 ⟨hv.1, hv.2.1⟩)
  · exact h.works rfl (List.forall_mem_cons.1 hv).1
  · simp only [List.forall_mem_cons] at hv
    exact h.works rfl (shown_append.2 ⟨hv.1, hv.2.1⟩)
  · simp only [List.forall_mem_cons] at hv
    exact h.works rfl (shown_call hv.1 (shown_nil P e) hv.2)
  · simp only [List.forall_mem_cons] at hv
    exact h.works rfl (shown_call hv.2.1 hv.1 hv.2.2)
  · simp only [List.forall_mem_cons] at hv
    exact h.giveSum hv.1 hv.2.1
  · exact h.give (shown_nil P e)
  · exact h.give (shown_nil P e)
  · exact (h.markThrown _).works rfl ((List.forall_mem_cons.1 hv).1.markThrown _)
  · exact h.give (shown_nil P e)

lemma nextOperand (h : Grown P e₀ e) (op : Op) {done : List Value}
    (hd : ∀ v ∈ done, e.Shown P v.refs) (rest : List Expr) {env : Env}
    (henv : e.Shown P env.refs) : ScriptWork P e₀ (e.nextOperand op done rest env) := by
  unfold Engine.nextOperand
  split
  · exact h.apply op (shown_reverse hd)
  · refine (h.push (f := .operands op done _ env) rfl ?_).works rfl henv
    simp only [Frame.refs, shown_append, shown_flatMap]
    exact ⟨hd, henv⟩

lemma nextPart (h : Grown P e₀ e) (rest : List Expr) {env : Env} (henv : e.Shown P env.refs) :
    ScriptWork P e₀ (e.nextPart rest env) := by
  unfold Engine.nextPart
  split
  · exact h.give (shown_nil P e)
  · exact h.works rfl henv
  · exact (h.push (f := .parts _ env) rfl henv).works rfl henv

lemma evalStep (h : Grown P e₀ e) (script : Expr) {env : Env} (henv : e.Shown P env.refs) :
    ScriptWork P e₀ (e.evalStep script env) := by
  have hparts := henv
  simp only [Env.refs, shown_append, shown_flatMap] at hparts
  unfold Engine.evalStep
  split
  · exact h.give (shown_nil P e)
  · exact h.give (shown_nil P e)
  · exact h.give (shown_nil P e)
  · exact h.give (shown_nil P e)
  · exact h.give (.of_refs_nil (Value.refs_ofLiteral _))
  · exact h.give (shown_nil P e)
  · exact h.give (shown_nil P e)
  · exact h.give hparts.1.1
  · exact h.give h.shown_global
  · split
    · next v hv => exact h.give (hparts.2 v (Option.mem_toList.2 hv))
    · exact h.throwNew _ _
  · exact h.give (shown_getD hparts.1.2 _)
  · exact h.works rfl h.shown_global
  · exact (h.allocFunction _ false henv).give (shown_allocFunction _ false env)
  · exact h.nextPart _ henv
  · exact (h.push (f := .branch _ _ env) rfl henv).works rfl henv
  · exact (h.push (f := .guard _ env) rfl henv).works rfl henv
  · exact (h.push (f := .member _ _ env) rfl henv).works rfl henv
  · exact (h.push (f := .define _ _ false env) rfl henv).works rfl henv
  · exact (h.push (f := .define _ _ true env) rfl henv).works rfl henv
  · exact h.nextOperand _ (by simp) _ henv

lemma defineAccessor (h : Grown P e₀ e) (hv : e.Shown P v.refs) (key : Key) (body : Expr)
    (isSetter : Bool) {env : Env} (henv : e.Shown P env.refs) :
    ScriptWork P e₀ (e.defineAccessor v key body isSetter env) := by
  unfold Engine.defineAccessor
  split
  · next r o ho =>
    split
    · exact h.throwType _
    · have hnew : (e.allocFunction body (!isSetter) env).2.Shown P [e.heap.next] :=
        shown_allocFunction body (!isSetter) env
      have hgrown := h.allocFunction body (!isSetter) henv
      have hmono : ∀ refs, e.Shown P refs →
          (e.allocFunction body (!isSetter) env).2.Shown P refs := fun refs hr =>
        hr.alloc (Object.isPlain_ofKind rfl _ _)
      have hhalves : ∀ getter setter, o.own? key = some (.accessor getter setter) →
          e.Shown P (getter.toList ++ setter.toList) := fun getter setter hp =>
        h.shown_own? (r := r) ho hp
      refine .inner (hgrown.define ?_ _) trivial trivial
        ((hmono _ hv).withHeap (.update _ _ fun o => o.sort_define _ _) _) (.inl trivial)
      split
      · refine shown_append.2 ⟨?_, hnew⟩
        split
        · next hp => exact hmono _ (shown_append.1 (hhalves _ _ hp)).1
        · exact shown_nil P _
      · refine shown_append.2 ⟨hnew, ?_⟩
        split
        · next hp => exact hmono _ (shown_append.1 (hhalves _ _ hp)).2
        · exact shown_nil P _
  · exact h.throwType _

end Grown

end ScriptBridge.Engine
