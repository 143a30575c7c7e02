/-
# Values and properties, with other slots

Making objects, converting values, describing them, and reading and writing properties come to
the same in an engine with other slots: an engine hands slots on, but nothing of this depends on
which slots they are.
-/
import ScriptBridge.Proofs.Engine.Renaming

namespace ScriptBridge

open ScriptBridge.Number ScriptBridge.Script ScriptBridge.Table ScriptBridge.Text ScriptBridge.Wire

namespace Engine

variable {f : Slot → Slot} {e : Engine}

/-! ### Making objects -/

/-- What was made, in an engine with other slots. -/
def renameMade {α : Type} (f : Slot → Slot) (made : α × Engine) : α × Engine :=
  (made.1, made.2.rename f)

@[simp] lemma rename_giveNew (f : Slot → Slot) (made : Value × Engine) :
    (giveNew made).rename f = giveNew (renameMade f made) := rfl

lemma renameMade_alloc (f : Slot → Slot) (e : Engine) (o : Object) :
    renameMade f (e.alloc o) = (e.rename f).alloc (o.rename f) := rfl

@[simp] lemma renameMade_allocOfKind (f : Slot → Slot) (e : Engine) {kind : ObjectKind}
    {parent : Option Ref} {properties : List (Key × Property)} (hk : kind.rename f = kind) :
    renameMade f (e.alloc (.ofKind kind parent properties)) =
      (e.rename f).alloc (.ofKind kind parent properties) := by
  rw [renameMade_alloc]
  congr 1
  change Object.mk (kind.rename f) _ _ _ = _
  rw [hk]
  rfl

@[simp] lemma renameMade_newErrorOf (f : Slot → Slot) (e : Engine) (className : String)
    (message : Option Value) :
    renameMade f (e.newErrorOf className message) = (e.rename f).newErrorOf className message :=
  rfl

@[simp] lemma renameMade_newError (f : Slot → Slot) (e : Engine) (className message : String) :
    renameMade f (e.newError className message) = (e.rename f).newError className message := rfl

@[simp] lemma rename_throwNew (f : Slot → Slot) (e : Engine) (className message : String) :
    (e.throwNew className message).rename f = (e.rename f).throwNew className message := rfl

@[simp] lemma rename_throwType (f : Slot → Slot) (e : Engine) (message : String) :
    (e.throwType message).rename f = (e.rename f).throwType message := rfl

@[simp] lemma rename_throwFull (f : Slot → Slot) (e : Engine) :
    e.throwFull.rename f = (e.rename f).throwFull := rfl

@[simp] lemma rename_throwDisconnected (f : Slot → Slot) (e : Engine) :
    e.throwDisconnected.rename f = (e.rename f).throwDisconnected := rfl

@[simp] lemma rename_markThrown (f : Slot → Slot) (e : Engine) (v : Value) :
    (e.markThrown v).rename f = (e.rename f).markThrown v := by
  cases v with
  | object r =>
    simp only [markThrown, rename]
    rw [Heap.update_rename]
    rintro ⟨kind, parent, properties, entry⟩
    cases kind <;> cases hm : properties.lookup blankStack.1 <;>
      simp [Object.rename, ObjectKind.rename, hm]
  | _ => rfl

/-! ### Plain values -/

@[simp] lemma prefersText_rename (f : Slot → Slot) (e : Engine) (v : Value) :
    (e.rename f).prefersText v = e.prefersText v := by
  cases v with
  | object r =>
    simp only [prefersText, heap_rename, Heap.inherits_rename, Heap.length_objects_rename]
  | _ => rfl

@[simp] lemma rename_startConversion (f : Slot → Slot) (e : Engine) (v : Value)
    (asText last : Bool) :
    (e.startConversion v asText last).rename f = (e.rename f).startConversion v asText last := rfl

@[simp] lemma rename_nextConversion (f : Slot → Slot) (e : Engine) (v : Value)
    (asText last : Bool) :
    (e.nextConversion v asText last).rename f = (e.rename f).nextConversion v asText last := by
  cases last <;> rfl

@[simp] lemma rename_callConversion (f : Slot → Slot) (e : Engine) (object : Value)
    (asText last : Bool) (g : Value) :
    (e.callConversion object asText last g).rename f =
      (e.rename f).callConversion object asText last g := by
  simp only [callConversion, isCallable_rename]
  split
  · rfl
  · exact rename_nextConversion ..

@[simp] lemma rename_acceptConversion (f : Slot → Slot) (e : Engine) (object : Value)
    (asText last : Bool) (v : Value) :
    (e.acceptConversion object asText last v).rename f =
      (e.rename f).acceptConversion object asText last v := by
  cases v with
  | object r => exact rename_nextConversion ..
  | _ => rfl

@[simp] lemma rename_giveOr (f : Slot → Slot) (e : Engine) {α : Type} (r : Except String α)
    (value : α → Value) : (e.giveOr r value).rename f = (e.rename f).giveOr r value := by
  cases r <;> rfl

@[simp] lemma rename_giveText (f : Slot → Slot) (e : Engine) (v : Value)
    (missing : Option String) : (e.giveText v missing).rename f =
      (e.rename f).giveText v missing := by
  cases v <;> cases missing <;> rfl

@[simp] lemma rename_giveNumber (f : Slot → Slot) (e : Engine) (v : Value) :
    (e.giveNumber v).rename f = (e.rename f).giveNumber v := by
  cases v <;> first | rfl | exact rename_giveOr ..

@[simp] lemma rename_giveNearest (f : Slot → Slot) (e : Engine) (v : Value) :
    (e.giveNearest v).rename f = (e.rename f).giveNearest v := by
  cases v <;> rfl

@[simp] lemma rename_giveBigint (f : Slot → Slot) (e : Engine) (v : Value) :
    (e.giveBigint v).rename f = (e.rename f).giveBigint v := by
  unfold giveBigint
  split <;> first | rfl | (split <;> first | rfl | (split <;> rfl))

@[simp] lemma rename_giveSum (f : Slot → Slot) (e : Engine) (a b : Value) :
    (e.giveSum a b).rename f = (e.rename f).giveSum a b := by
  unfold giveSum
  split <;> simp [Pending.rename]

/-! ### Objects as texts -/

@[simp] lemma objectWord_rename (f : Slot → Slot) (o : Object) :
    objectWord (o.rename f) = objectWord o := by
  obtain ⟨kind, parent, properties, entry⟩ := o
  cases kind <;> rfl

@[simp] lemma kindWord_rename (f : Slot → Slot) (e : Engine) (v : Value) :
    (e.rename f).kindWord v = e.kindWord v := by
  cases v with
  | object r =>
    simp only [kindWord, heap_rename, Heap.get?_rename]
    cases e.heap.get? r <;> simp
  | _ => rfl

@[simp] lemma kindText_rename (f : Slot → Slot) (e : Engine) (v : Value) :
    (e.rename f).kindText v = e.kindText v := by
  rw [kindText, kindText, kindWord_rename]

@[simp] lemma rename_describeFunction (f : Slot → Slot) (e : Engine) (g : Value) :
    (e.describeFunction g).rename f = (e.rename f).describeFunction g := by
  simp only [describeFunction, object?_rename]
  cases e.object? g with
  | none => rfl
  | some o => obtain ⟨kind, -, -, -⟩ := o; cases kind <;> rfl

@[simp] lemma rename_nextJoined (f : Slot → Slot) (e : Engine) (object : Value) (separator : Units)
    (length index : Nat) (done : List Units) :
    (e.nextJoined object separator length index done).rename f =
      (e.rename f).nextJoined object separator length index done := by
  unfold nextJoined
  split <;> rfl

@[simp] lemma rename_takeJoined (f : Slot → Slot) (e : Engine) (object : Value) (separator : Units)
    (length index : Nat) (done : List Units) (v : Value) :
    (e.takeJoined object separator length index done v).rename f =
      (e.rename f).takeJoined object separator length index done v := by
  unfold takeJoined
  split <;> simp [Pending.rename]

@[simp] lemma rename_startJoin (f : Slot → Slot) (e : Engine) (object separator : Value)
    (length : Nat) :
    (e.startJoin object separator length).rename f =
      (e.rename f).startJoin object separator length := by
  simp [startJoin, Pending.rename]

@[simp] lemma rename_join (f : Slot → Slot) (e : Engine) (object separator : Value) :
    (e.join object separator).rename f = (e.rename f).join object separator := rfl

@[simp] lemma rename_arrayText (f : Slot → Slot) (e : Engine) (object g : Value) :
    (e.arrayText object g).rename f = (e.rename f).arrayText object g := by
  simp only [arrayText, isCallable_rename, kindText_rename]
  split <;> rfl

@[simp] lemma rename_describeError (f : Slot → Slot) (e : Engine) (error : Value) :
    (e.describeError error).rename f = (e.rename f).describeError error := rfl

@[simp] lemma rename_describeMessage (f : Slot → Slot) (e : Engine) (error : Value)
    (name : Units) :
    (e.describeMessage error name).rename f = (e.rename f).describeMessage error name := rfl

/-! ### Properties -/

@[simp] lemma rename_askEntry (f : Slot → Slot) (e : Engine) (slot : Slot) (name : String)
    (held : List Value) :
    (e.askEntry slot name held).rename f = (e.rename f).askEntry (f slot) name held := by
  by_cases hfull : e.isFull = true
  · simp [askEntry, hfull]
  · by_cases hconnected : e.connected = true <;>
      simp [askEntry, hfull, hconnected, Frame.rename, Control.rename, Request.rename]

@[simp] lemma rename_assignEntry (f : Slot → Slot) (e : Engine) (slot : Slot) (name : String)
    (v result : Value) (held : List Value) :
    (e.assignEntry slot name v result held).rename f =
      (e.rename f).assignEntry (f slot) name v result held := by
  by_cases hconnected : e.connected = true <;>
    simp [assignEntry, hconnected, Frame.rename, Control.rename, Call.rename]

@[simp] lemma rename_invokeEntry (f : Slot → Slot) (e : Engine) (slot : Slot) (array : Value)
    (held : List Value) :
    (e.invokeEntry slot array held).rename f = (e.rename f).invokeEntry (f slot) array held := by
  by_cases hfull : e.isFull = true
  · simp [invokeEntry, hfull]
  · by_cases hconnected : e.connected = true <;>
      simp [invokeEntry, hfull, hconnected, Frame.rename, Control.rename, Call.rename]

/-- A change of the heap, and a value that is given, in an engine with other slots. -/
lemma rename_update (f : Slot → Slot) (e : Engine) (r : Ref) {g : Object → Object}
    (hg : ∀ o : Object, g (o.rename f) = (g o).rename f) (c : Control) :
    ({ e with heap := e.heap.update r g, control := c } : Engine).rename f =
      { e.rename f with
        heap := (e.rename f).heap.update r g
        control := c.rename f } := by
  simp only [rename]
  rw [Heap.update_rename hg]

@[simp] lemma rename_giveInstanceParent (f : Slot → Slot) (e : Engine) (r : Ref) :
    (e.giveInstanceParent r).rename f = (e.rename f).giveInstanceParent r := by
  unfold giveInstanceParent
  exact rename_update f _ r (fun o => Object.define_rename f o _ _) _

@[simp] lemma rename_giveFound (f : Slot → Slot) (e : Engine) (receiver : Value) (key : Key)
    (found : Found) :
    (e.giveFound receiver key found).rename f =
      (e.rename f).giveFound receiver key (found.rename f) := by
  cases found with
  | property holder p =>
    cases p with
    | accessor getter setter => cases getter <;> rfl
    | unmade => exact rename_giveInstanceParent ..
    | _ => rfl
  | standIn r slot =>
    simp only [giveFound, Found.rename]
    cases key.text? with
    | none => rfl
    | some name => exact rename_askEntry ..
  | nothing => rfl

@[simp] lemma rename_readPlain (f : Slot → Slot) (e : Engine) (v : Value) (key : Key) :
    (e.readPlain v key).rename f = (e.rename f).readPlain v key := by
  simp only [readPlain, heap_rename, Heap.find_rename]
  split <;> simp

@[simp] lemma rename_readStep (f : Slot → Slot) (e : Engine) (target : Value) (key : Key) :
    (e.readStep target key).rename f = (e.rename f).readStep target key := by
  cases target <;> simp [readStep, nothingName?]

@[simp] lemma rename_resize (f : Slot → Slot) (e : Engine) (r : Ref) (v : Value)
    (length : Option Nat) : (e.resize r v length).rename f = (e.rename f).resize r v length := by
  cases length with
  | none => rfl
  | some n => exact rename_update f e r (fun o => Object.resize_rename f o n) _

@[simp] lemma rename_writeLength (f : Slot → Slot) (e : Engine) (r : Ref) (v : Value) :
    (e.writeLength r v).rename f = (e.rename f).writeLength r v := by
  unfold writeLength
  split
  · exact rename_resize ..
  · exact rename_resize ..
  · split <;> simp [Pending.rename]

@[simp] lemma rename_takeLength (f : Slot → Slot) (e : Engine) (r : Ref) (v x : Value) :
    (e.takeLength r v x).rename f = (e.rename f).takeLength r v x := by
  simp [takeLength, Pending.rename]

@[simp] lemma rename_takeLengthAgain (f : Slot → Slot) (e : Engine) (r : Ref) (v x : Value)
    (length : Nat) :
    (e.takeLengthAgain r v x length).rename f = (e.rename f).takeLengthAgain r v x length :=
  rename_resize ..

lemma rename_writeFound (f : Slot → Slot) (e : Engine) (receiver : Value) (key : Key) (v : Value)
    (fresh : Engine) (found : Found) :
    (e.writeFound receiver key v fresh found).rename f =
      (e.rename f).writeFound receiver key v (fresh.rename f) (found.rename f) := by
  cases found with
  | property holder p =>
    cases p with
    | accessor getter setter => cases setter <;> rfl
    | _ => rfl
  | standIn r slot =>
    simp only [writeFound, Found.rename]
    cases key.text? with
    | none => rfl
    | some name => exact rename_assignEntry ..
  | nothing => rfl

lemma takerOf_rename (f : Slot → Slot) (h : Heap) (r : Ref) (o : Object) (key : Key) :
    takerOf (h.rename f) r (o.rename f) key = (takerOf h r o key).rename f := by
  simp only [takerOf, Object.kind_rename, Object.own?_rename, Object.parent_rename,
    Heap.findTaker_rename]
  cases o.kind <;> cases o.own? key <;> rfl

@[simp] lemma rename_writeObject (f : Slot → Slot) (e : Engine) (r : Ref) (key : Key) (v : Value) :
    (e.writeObject r key v).rename f = (e.rename f).writeObject r key v := by
  have hentered := rename_update f e r (g := (·.define key (.data v)))
    (fun o => Object.define_rename f o key _) (.ret v)
  unfold writeObject
  rw [heap_rename, Heap.get?_rename]
  cases e.heap.get? r with
  | none => exact hentered
  | some o =>
    have hfound := rename_writeFound f e (.object r) key v
      { e with heap := e.heap.update r (·.define key (.data v)), control := .ret v }
      (takerOf e.heap r o key)
    rw [← takerOf_rename, hentered] at hfound
    simp only [Option.map_some, Object.kind_rename]
    cases o.kind with
    | array n =>
      dsimp only [ObjectKind.rename]
      split
      · exact rename_writeLength ..
      · exact hfound
    | _ => exact hfound

@[simp] lemma rename_writePlain (f : Slot → Slot) (e : Engine) (target : Value) (key : Key)
    (v : Value) : (e.writePlain target key v).rename f = (e.rename f).writePlain target key v := by
  simp only [writePlain, rename_writeFound, rename_throwType, heap_rename, Heap.findTaker_rename]

@[simp] lemma rename_writeStep (f : Slot → Slot) (e : Engine) (target : Value) (key : Key)
    (v : Value) : (e.writeStep target key v).rename f = (e.rename f).writeStep target key v := by
  cases target <;> simp [writeStep, nothingName?]

end Engine

end ScriptBridge
