/-
# Conversions and properties as work of script

Turning objects into plain values, showing them as texts, reading and writing properties:
each of these is work of script.  Where a search comes to a stand-in, the frame that waits
for the host keeps it.
-/
import ScriptBridge.Proofs.Engine.Work

namespace ScriptBridge

open ScriptBridge.Number ScriptBridge.Script ScriptBridge.Text ScriptBridge.Wire

namespace Script.Intrinsic

lemma errorParentOf_lt (className : String) : errorParentOf className < count := by
  have hcount : errorParent + 1 + errorClasses.length < count := by decide
  unfold errorParentOf
  split
  · next i hi =>
    obtain ⟨hlt, -⟩ := List.findIdx?_eq_some_iff_getElem.1 hi
    exact Nat.lt_trans (Nat.add_lt_add_left hlt _) hcount
  · decide

lemma parentOf?_lt {c : ObjectClass} {r : Ref} (h : parentOf? c = some r) : r < count := by
  cases c <;> cases h <;> first | decide | exact errorParentOf_lt _

lemma parentOfPlain?_lt {v : Value} {r : Ref} (h : parentOfPlain? v = some r) : r < count := by
  obtain ⟨c, -, hc⟩ := Option.bind_eq_some_iff.1 h
  exact parentOf?_lt hc

lemma global_lt : global < count := by decide

lemma objectParent_lt : objectParent < count := by decide

lemma functionParent_lt : functionParent < count := by decide

lemma arrayParent_lt : arrayParent < count := by decide

lemma dateParent_lt : dateParent < count := by decide

lemma errorParent_lt : errorParent < count := by decide

end Script.Intrinsic

namespace Engine

variable {P : Prop} {e₀ e : Engine} {v w t f this : Value} {r : Ref} {key : Key}

namespace Grown

lemma shown_global (h : Grown P e₀ e) : e.Shown P globalObject.refs :=
  shown_cons.2 ⟨h.shown_intrinsic Intrinsic.global_lt, shown_nil P e⟩

/-! ### New objects -/

/-- A new object without links but to what is shown. -/
lemma allocOfKind (h : Grown P e₀ e) {kind : ObjectKind} (hk : kind.isPlain = true)
    {parent : Option Ref} {properties : List (Key × Property)}
    (hparent : ∀ p, parent = some p → e.heap.Shows P p) (hlinks : e.Shown P kind.links)
    (hproperties : ∀ p ∈ properties, e.Shown P p.2.refs) :
    Grown P e₀ (e.alloc (.ofKind kind parent properties)).2 := by
  have ho := Object.isPlain_ofKind hk parent properties
  refine h.alloc ho (Shown.alloc (fun l hl => ?_) ho)
  rcases Object.mem_links.1 hl with hl | hl | ⟨p, hp, hl⟩
  · exact hparent l hl
  · exact hlinks l hl
  · exact hproperties p hp l hl

lemma shown_parent (h : Grown P e₀ e) (hr : r < Intrinsic.count) :
    ∀ p, some r = some p → e.heap.Shows P p := by
  rintro p ⟨⟩
  exact h.shown_intrinsic hr

lemma newErrorOf (h : Grown P e₀ e) (className : String) {message : Option Value}
    (hm : ∀ v, message = some v → e.Shown P v.refs) :
    Grown P e₀ (e.newErrorOf className message).2 := by
  refine h.allocOfKind rfl (h.shown_parent (Intrinsic.errorParentOf_lt _)) (shown_nil P e)
    fun p hp => ?_
  rcases List.mem_append.1 hp with hp | hp
  · obtain ⟨v, hv, rfl⟩ := List.mem_map.1 hp
    exact hm v (Option.mem_toList.1 hv)
  · rw [List.mem_singleton] at hp
    subst hp
    exact shown_nil P e

lemma shown_newErrorOf (className : String) (message : Option Value) :
    (e.newErrorOf className message).2.Shown P (e.newErrorOf className message).1.refs :=
  shown_alloc (Object.isPlain_ofKind rfl _ _)

lemma newError (h : Grown P e₀ e) (className message : String) :
    Grown P e₀ (e.newError className message).2 :=
  h.newErrorOf className (by rintro v ⟨⟩; exact shown_nil P e)

lemma throwNew (h : Grown P e₀ e) (className message : String) :
    ScriptWork P e₀ (e.throwNew className message) :=
  (h.newError className message).works rfl (shown_newErrorOf className _)

lemma throwType (h : Grown P e₀ e) (message : String) : ScriptWork P e₀ (e.throwType message) :=
  h.throwNew _ message

lemma markThrown (h : Grown P e₀ e) (v : Value) : Grown P e₀ (e.markThrown v) := by
  unfold Engine.markThrown
  split
  · refine h.update (fun o => ?_) (fun o ho l hl => ?_) _
    · split <;> rfl
    · split at hl
      · next hk _ =>
        rcases Object.mem_links.1 hl with hl | hl | ⟨p, hp, hl⟩
        · exact h.guarded.linked _ o ho l (Object.mem_links.2 (.inl hl))
        · exact h.guarded.linked _ o ho l (Object.mem_links.2 (.inr (.inl hl)))
        · rcases List.mem_append.1 hp with hp | hp
          · exact h.guarded.linked _ o ho l (Object.mem_links.2 (.inr (.inr ⟨p, hp, hl⟩)))
          · rw [List.mem_singleton] at hp
            subst hp
            cases hl
      · exact h.guarded.linked _ o ho l hl
  · exact h

/-! ### Plain values -/

lemma startConversion (h : Grown P e₀ e) (hv : e.Shown P v.refs) (asText last : Bool) :
    ScriptWork P e₀ (e.startConversion v asText last) :=
  (h.await (p := .conversion v asText last) rfl hv).works rfl hv

lemma nextConversion (h : Grown P e₀ e) (hv : e.Shown P v.refs) (asText last : Bool) :
    ScriptWork P e₀ (e.nextConversion v asText last) := by
  unfold Engine.nextConversion
  split
  · exact h.throwType _
  · exact h.startConversion hv asText true

lemma callConversion (h : Grown P e₀ e) (hv : e.Shown P v.refs) (hf : e.Shown P f.refs)
    (asText last : Bool) : ScriptWork P e₀ (e.callConversion v asText last f) := by
  unfold Engine.callConversion
  split
  · refine (h.await (p := .converted v asText last) rfl hv).works rfl ?_
    simp only [Control.refs, List.flatMap_nil, List.append_nil, shown_append]
    exact ⟨hf, hv⟩
  · exact h.nextConversion hv asText last

lemma acceptConversion (h : Grown P e₀ e) (hv : e.Shown P v.refs) (hw : e.Shown P w.refs)
    (asText last : Bool) : ScriptWork P e₀ (e.acceptConversion v asText last w) := by
  unfold Engine.acceptConversion
  split
  · exact h.nextConversion hv asText last
  · exact h.give hw

lemma giveOr (h : Grown P e₀ e) {α : Type} {r : Except String α} {value : α → Value}
    (hv : ∀ a, r = .ok a → (value a).refs = []) : ScriptWork P e₀ (e.giveOr r value) := by
  unfold Engine.giveOr
  split
  · exact h.give (.of_refs_nil (hv _ rfl))
  · exact h.throwType _

lemma giveText (h : Grown P e₀ e) (hv : e.Shown P v.refs) (missing : Option String) :
    ScriptWork P e₀ (e.giveText v missing) := by
  unfold Engine.giveText
  split
  · exact (h.await (p := .text none) rfl (shown_nil P e)).startConversion hv true false
  · exact h.give (shown_nil P e)
  · exact h.giveOr fun _ _ => rfl

lemma giveNumber (h : Grown P e₀ e) (hv : e.Shown P v.refs) : ScriptWork P e₀ (e.giveNumber v) := by
  unfold Engine.giveNumber
  split
  · exact (h.await (p := .number) rfl (shown_nil P e)).startConversion hv false false
  · exact h.giveOr fun _ => Value.refs_toNumber

lemma giveNearest (h : Grown P e₀ e) (hv : e.Shown P v.refs) :
    ScriptWork P e₀ (e.giveNearest v) := by
  unfold Engine.giveNearest
  split
  · exact (h.await (p := .nearest) rfl (shown_nil P e)).startConversion hv false false
  · exact h.giveOr fun _ hn => Value.refs_nearest (Value.refs_toNumeric hn)

lemma giveBigint (h : Grown P e₀ e) (hv : e.Shown P v.refs) : ScriptWork P e₀ (e.giveBigint v) := by
  unfold Engine.giveBigint
  split
  · exact (h.await (p := .bigint) rfl (shown_nil P e)).startConversion hv false false
  · exact h.give (shown_nil P e)
  · exact h.give (shown_nil P e)
  · exact h.give (shown_nil P e)
  · split
    · exact h.throwNew _ _
    · split
      · exact h.give (shown_nil P e)
      · exact h.throwNew _ _
  · split
    · exact h.give (shown_nil P e)
    · exact h.throwNew _ _
  all_goals exact h.throwType _

lemma giveSum (h : Grown P e₀ e) (hv : e.Shown P v.refs) (hw : e.Shown P w.refs) :
    ScriptWork P e₀ (e.giveSum v w) := by
  unfold Engine.giveSum
  split
  · exact (h.await (p := .addRight w) rfl hw).startConversion hv _ false
  · exact (h.await (p := .addLeft v) rfl hv).startConversion hw _ false
  · exact h.giveOr fun _ => Value.refs_add

/-! ### Texts -/

lemma describeFunction (h : Grown P e₀ e) (hf : e.Shown P f.refs) :
    ScriptWork P e₀ (e.describeFunction f) := by
  have hname : ScriptWork P e₀
      (((e.await .functionName).await (.text (some ""))).goto (.read f (.name "name"))) :=
    ((h.await (p := .functionName) rfl (shown_nil P e)).await (p := .text (some ""))
      rfl (shown_nil P e)).works rfl hf
  unfold Engine.describeFunction
  split
  · exact h.give (shown_nil P e)
  · exact hname
  · exact hname
  · exact h.throwType _

lemma nextJoined (h : Grown P e₀ e) (hv : e.Shown P v.refs) (separator : Units)
    (length index : Nat) (done : List Units) :
    ScriptWork P e₀ (e.nextJoined v separator length index done) := by
  unfold Engine.nextJoined
  split
  · exact (h.await (p := .joinElement v separator length index done) rfl hv).works rfl hv
  · exact h.give (shown_nil P e)

lemma takeJoined (h : Grown P e₀ e) (hv : e.Shown P v.refs) (hw : e.Shown P w.refs)
    (separator : Units) (length index : Nat) (done : List Units) :
    ScriptWork P e₀ (e.takeJoined v separator length index done w) := by
  unfold Engine.takeJoined
  split
  · exact h.nextJoined hv separator length _ _
  · exact h.nextJoined hv separator length _ _
  · exact (h.await (p := .joinText v separator length index done) rfl hv).giveText hw none

lemma startJoin (h : Grown P e₀ e) (hv : e.Shown P v.refs) (hw : e.Shown P w.refs)
    (length : Nat) : ScriptWork P e₀ (e.startJoin v w length) :=
  (h.await (p := .joinSeparator v length) rfl hv).giveText hw _

lemma join (h : Grown P e₀ e) (hv : e.Shown P v.refs) (hw : e.Shown P w.refs) :
    ScriptWork P e₀ (e.join v w) :=
  ((h.await (p := .joinLength v w) rfl (shown_append.2 ⟨hv, hw⟩)).await (p := .number)
    rfl (shown_nil P e)).works rfl hv

lemma arrayText (h : Grown P e₀ e) (hv : e.Shown P v.refs) (hf : e.Shown P f.refs) :
    ScriptWork P e₀ (e.arrayText v f) := by
  unfold Engine.arrayText
  split
  · refine h.works rfl ?_
    simp only [Control.refs, List.flatMap_nil, List.append_nil, shown_append]
    exact ⟨hf, hv⟩
  · exact h.give (shown_nil P e)

lemma describeError (h : Grown P e₀ e) (hv : e.Shown P v.refs) :
    ScriptWork P e₀ (e.describeError v) :=
  ((h.await (p := .errorName v) rfl hv).await (p := .text (some "Error")) rfl
    (shown_nil P e)).works rfl hv

lemma describeMessage (h : Grown P e₀ e) (hv : e.Shown P v.refs) (name : Units) :
    ScriptWork P e₀ (e.describeMessage v name) :=
  ((h.await (p := .errorMessage name) rfl (shown_nil P e)).await (p := .text (some ""))
    rfl (shown_nil P e)).works rfl hv

/-! ### Requests to the host -/

lemma throwFull (h : Grown P e₀ e) : ScriptWork P e₀ e.throwFull := h.throwNew _ _

lemma throwDisconnected (h : Grown P e₀ e) : ScriptWork P e₀ e.throwDisconnected := h.throwNew _ _

lemma askEntry (h : Grown P e₀ e) (slot : Slot) (name : String) {held : List Value}
    (hr : e.Shown P (held.flatMap Value.refs))
    (hb : Backed P e.heap slot (held.flatMap Value.refs)) :
    ScriptWork P e₀ (e.askEntry slot name held) := by
  unfold Engine.askEntry
  split
  · exact h.throwFull
  · split
    · exact .asks h name hr hb
    · exact h.throwDisconnected

lemma assignEntry (h : Grown P e₀ e) (slot : Slot) (name : String) {held : List Value}
    (hv : e.Shown P v.refs) (hw : e.Shown P w.refs) (hr : e.Shown P (held.flatMap Value.refs))
    (hb : Backed P e.heap slot (held.flatMap Value.refs)) :
    ScriptWork P e₀ (e.assignEntry slot name v w held) := by
  unfold Engine.assignEntry
  split
  · refine .sends h (shown_append.2 ⟨?_, hr⟩) hv hb
    simpa using hw
  · exact h.throwDisconnected

lemma invokeEntry (h : Grown P e₀ e) (slot : Slot) {held : List Value}
    (hv : e.Shown P v.refs) (hr : e.Shown P (held.flatMap Value.refs))
    (hb : Backed P e.heap slot (held.flatMap Value.refs)) :
    ScriptWork P e₀ (e.invokeEntry slot v held) := by
  unfold Engine.invokeEntry
  split
  · exact h.throwFull
  · split
    · exact .sends h (shown_append.2 ⟨shown_nil P e, hr⟩) hv hb
    · exact h.throwDisconnected

/-! ### Reading -/

lemma giveInstanceParent (h : Grown P e₀ e) (hr : e.heap.Shows P r) :
    ScriptWork P e₀ (e.giveInstanceParent r) := by
  have ho : (Object.ofKind .ordinary (some Intrinsic.objectParent)
      [(.name "constructor", .data (.object r))]).IsPlain := Object.isPlain_ofKind rfl _ _
  have hproperties : ∀ p ∈ [(Key.name "constructor", Property.data (.object r))],
      e.Shown P p.2.refs := by
    rintro p hp
    rw [List.mem_singleton] at hp
    subst hp
    exact shown_cons.2 ⟨hr, shown_nil P e⟩
  have hgrown : Grown P e₀ (e.alloc (.ofKind .ordinary (some Intrinsic.objectParent)
      [(.name "constructor", .data (.object r))])).2 :=
    h.allocOfKind rfl (h.shown_parent Intrinsic.objectParent_lt) (shown_nil P e) hproperties
  have hv := shown_alloc (P := P) (e := e) ho
  exact .inner (hgrown.define (p := .data (.object e.heap.next)) hv _) trivial trivial
    (hv.withHeap (.update _ _ fun o => o.sort_define _ _) _) (.inl trivial)

/-- What stands at a place that a search came to keeps its entry from then on. -/
lemma backed_standIn {held : List Value} {slot : Slot}
    (hf : e.heap.FoundIn P (.standIn r slot)) (hr : r ∈ held.flatMap Value.refs) :
    Backed P e.heap slot (held.flatMap Value.refs) := fun _ => by
  obtain ⟨o, t, ho, hk⟩ := hf.2 r slot rfl
  exact ⟨r, hr, o, t, ho, hk⟩

lemma shown_receiver (hv : e.Shown P v.refs) (hr : e.heap.Shows P r) :
    e.Shown P ([v, .object r].flatMap Value.refs) := by
  simp only [List.flatMap_cons, List.flatMap_nil, List.append_nil, shown_append]
  exact ⟨hv, shown_cons.2 ⟨hr, shown_nil P e⟩⟩

lemma mem_receiver : r ∈ [v, .object r].flatMap Value.refs := by
  simp [Value.refs]

lemma giveFound (h : Grown P e₀ e) (hv : e.Shown P v.refs) (key : Key) {found : Found}
    (hf : e.heap.FoundIn P found) : ScriptWork P e₀ (e.giveFound v key found) := by
  have hrefs : e.Shown P found.refs := hf.1
  unfold Engine.giveFound
  split
  · exact h.give (shown_cons.1 hrefs).2
  · exact h.give (shown_cons.1 hrefs).2
  · next getter _ =>
    have hgetter := (shown_append.1 (shown_cons.1 hrefs).2).1
    refine h.works rfl ?_
    simp only [Control.refs, List.flatMap_nil, List.append_nil, shown_append]
    exact ⟨hgetter, hv⟩
  · exact h.give (shown_nil P e)
  · exact h.giveInstanceParent (shown_cons.1 hrefs).1
  · next r slot =>
    split
    · exact h.askEntry slot _ (shown_receiver hv (shown_cons.1 hrefs).1)
        (backed_standIn hf mem_receiver)
    · exact h.give (shown_nil P e)
  · exact h.give (shown_nil P e)

lemma readPlain (h : Grown P e₀ e) (hv : e.Shown P v.refs) (key : Key) :
    ScriptWork P e₀ (e.readPlain v key) := by
  unfold Engine.readPlain
  split
  · next hw => exact h.give (.of_refs_nil (Object.refs_implied? hw))
  · next hr _ =>
    exact h.giveFound hv key
      (h.guarded.linked.find (h.shown_intrinsic (Intrinsic.parentOfPlain?_lt hr)))
  · exact h.give (shown_nil P e)

lemma readStep (h : Grown P e₀ e) (hv : e.Shown P v.refs) (key : Key) :
    ScriptWork P e₀ (e.readStep v key) := by
  unfold Engine.readStep
  split
  · exact h.giveFound hv key (h.guarded.linked.find (shown_cons.1 hv).1)
  · split
    · exact h.throwType _
    · exact h.readPlain hv key

/-! ### Lengths of arrays -/

lemma resize (h : Grown P e₀ e) (hv : e.Shown P v.refs) (length : Option Nat) :
    ScriptWork P e₀ (e.resize r v length) := by
  unfold Engine.resize
  split
  · next n =>
    have hsort : ∀ o : Object, (o.resize n).sort = o.sort := fun o => o.sort_resize n
    refine .inner (h.update hsort (fun o ho l hl => ?_) _) trivial trivial
      (hv.withHeap (.update _ _ hsort) _) (.inl trivial)
    exact h.guarded.linked r o ho l (Object.links_resize hl)
  · exact h.throwNew _ _

lemma writeLength (h : Grown P e₀ e) (hr : e.heap.Shows P r) (hv : e.Shown P v.refs) :
    ScriptWork P e₀ (e.writeLength r v) := by
  unfold Engine.writeLength
  split
  · exact h.resize hv _
  · exact h.resize hv _
  · split
    · exact h.resize hv _
    · exact (h.await (p := .length r v) rfl (shown_cons.2 ⟨hr, hv⟩)).giveNumber hv

lemma takeLength (h : Grown P e₀ e) (hr : e.heap.Shows P r) (hv : e.Shown P v.refs)
    (w : Value) : ScriptWork P e₀ (e.takeLength r v w) :=
  (h.await (p := .lengthAgain r v (wordOf w)) rfl (shown_cons.2 ⟨hr, hv⟩)).giveNumber hv

lemma takeLengthAgain (h : Grown P e₀ e) (hv : e.Shown P v.refs) (w : Value) (length : Nat) :
    ScriptWork P e₀ (e.takeLengthAgain r v w length) :=
  h.resize hv _

/-! ### Writing -/

lemma writeFound (h : Grown P e₀ e) (hv : e.Shown P v.refs) (hw : e.Shown P w.refs)
    (key : Key) {fresh : Engine} (hfresh : ScriptWork P e₀ fresh) {found : Found}
    (hf : e.heap.FoundIn P found) : ScriptWork P e₀ (e.writeFound v key w fresh found) := by
  have hrefs : e.Shown P found.refs := hf.1
  unfold Engine.writeFound
  split
  · next setter =>
    have hsetter := (shown_append.1 (shown_cons.1 hrefs).2).2
    refine (h.push (f := .assigned w) rfl hw).works rfl ?_
    simp only [Control.refs, List.flatMap_cons, List.flatMap_nil, List.append_nil,
      shown_append]
    exact ⟨⟨hsetter, hv⟩, hw⟩
  · exact h.throwType _
  · exact h.throwType _
  · next r slot =>
    split
    · exact h.assignEntry slot _ hw hw (shown_receiver hv (shown_cons.1 hrefs).1)
        (backed_standIn hf mem_receiver)
    · exact h.throwType _
  · exact hfresh

lemma takerOf (h : Grown P e₀ e) {o : Object} (hr : e.heap.Shows P r)
    (ho : e.heap.get? r = some o) : e.heap.FoundIn P (takerOf e.heap r o key) := by
  unfold Engine.takerOf
  split
  · next hk => exact Heap.foundIn_standIn hr ho hk
  · next hp _ => exact Heap.foundIn_property hr (h.guarded.linked.own? ho hp)
  · exact h.guarded.linked.findTaker fun p hp => h.guarded.linked.parent ho hp

lemma writeObject (h : Grown P e₀ e) (hr : e.heap.Shows P r) (key : Key)
    (hv : e.Shown P v.refs) : ScriptWork P e₀ (e.writeObject r key v) := by
  have hentered : ScriptWork P e₀
      { e with heap := e.heap.update r (·.define key (.data v)), control := .ret v } :=
    .inner (h.define (p := .data v) hv _) trivial trivial
      (hv.withHeap (.update _ _ fun o => o.sort_define _ _) _) (.inl trivial)
  unfold Engine.writeObject
  dsimp only
  split
  · exact hentered
  · next o ho =>
    split
    · exact h.writeLength hr hv
    · exact h.writeFound (v := .object r) (shown_cons.2 ⟨hr, shown_nil P e⟩) hv _ hentered
        (h.takerOf hr ho)

lemma writePlain (h : Grown P e₀ e) (hv : e.Shown P v.refs) (key : Key)
    (hw : e.Shown P w.refs) : ScriptWork P e₀ (e.writePlain v key w) :=
  h.writeFound hv hw key (h.throwType _) (h.guarded.linked.findTaker fun _ hp =>
    h.shown_intrinsic (Intrinsic.parentOfPlain?_lt hp))

lemma writeStep (h : Grown P e₀ e) (hv : e.Shown P v.refs) (key : Key)
    (hw : e.Shown P w.refs) : ScriptWork P e₀ (e.writeStep v key w) := by
  unfold Engine.writeStep
  split
  · exact h.writeObject (shown_cons.1 hv).1 key hw
  · split
    · exact h.throwType _
    · exact h.writePlain hv key hw

end Grown

end Engine

end ScriptBridge
