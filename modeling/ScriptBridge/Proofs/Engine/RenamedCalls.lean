/-
# Calls and evaluation, with other slots

Calls, and the evaluation of scripts, come to the same in an engine with other slots, except that
a token tells its slot to whoever calls it.
-/
import ScriptBridge.Proofs.Engine.RenamedWork

namespace ScriptBridge

open ScriptBridge.Number ScriptBridge.Script ScriptBridge.Table ScriptBridge.Text ScriptBridge.Wire

namespace Engine

variable {f : Slot → Slot} {e : Engine}

/-! ### Calls -/

@[simp] lemma rename_nextArgument (f : Slot → Slot) (e : Engine) (g this object : Value)
    (count index : Nat) (done : List Value) :
    (e.nextArgument g this object count index done).rename f =
      (e.rename f).nextArgument g this object count index done := by
  unfold nextArgument
  split <;> rfl

@[simp] lemma rename_takeArgumentCount (f : Slot → Slot) (e : Engine) (g this object v : Value) :
    (e.takeArgumentCount g this object v).rename f =
      (e.rename f).takeArgumentCount g this object v := by
  unfold takeArgumentCount
  dsimp only
  split
  · rfl
  · exact rename_nextArgument ..

@[simp] lemma rename_applyTo (f : Slot → Slot) (e : Engine) (g this object : Value) :
    (e.applyTo g this object).rename f = (e.rename f).applyTo g this object := by
  simp only [applyTo, isCallable_rename]
  split
  · rfl
  · split <;> rfl

@[simp] lemma renameMade_allocHeir (f : Slot → Slot) (e : Engine) (parent : Option Ref) :
    renameMade f (e.allocHeir parent) = (e.rename f).allocHeir parent := rfl

@[simp] lemma renameMade_allocArray (f : Slot → Slot) (e : Engine) (items : List Value) :
    renameMade f (e.allocArray items) = (e.rename f).allocArray items := rfl

@[simp] lemma renameMade_allocDate (f : Slot → Slot) (e : Engine) (time : Binary64) :
    renameMade f (e.allocDate time) = (e.rename f).allocDate time := rfl

@[simp] lemma rename_giveObject (f : Slot → Slot) (e : Engine) (v : Value) :
    (e.giveObject v).rename f = (e.rename f).giveObject v := by
  cases v <;> rfl

@[simp] lemma rename_makeArray (f : Slot → Slot) (e : Engine) (items : List Value) :
    (e.makeArray items).rename f = (e.rename f).makeArray items := by
  unfold makeArray
  dsimp only
  split
  · split <;> rfl
  · split <;> rfl
  · rfl

@[simp] lemma rename_makeError (f : Slot → Slot) (e : Engine) (className : String)
    (message : Value) :
    (e.makeError className message).rename f = (e.rename f).makeError className message := by
  unfold makeError
  split <;> simp [Pending.rename]

@[simp] lemma rename_makeInstance (f : Slot → Slot) (e : Engine) (c : ObjectClass)
    (args : List Value) :
    (e.makeInstance c args).rename f = (e.rename f).makeInstance c args := by
  cases c with
  | function => rfl
  | _ => simp [makeInstance, Pending.rename]

@[simp] lemma rename_construct (f : Slot → Slot) (e : Engine) (g : Value) (args : List Value) :
    (e.construct g args).rename f = (e.rename f).construct g args := by
  cases g with
  | object r =>
    simp only [construct, object?_rename]
    cases e.object? (.object r) with
    | none => rfl
    | some o =>
      obtain ⟨kind, -, -, -⟩ := o
      cases kind with
      | builtin b => cases b <;> first | rfl | exact rename_makeInstance ..
      | _ => rfl
  | _ => rfl

@[simp] lemma rename_constructFrom (f : Slot → Slot) (e : Engine) (g : Value) (args : List Value)
    (parent : Value) :
    (e.constructFrom g args parent).rename f = (e.rename f).constructFrom g args parent := by
  unfold constructFrom
  dsimp only
  rw [← renameMade_allocHeir]
  dsimp only [renameMade]
  rw [object?_rename]
  cases (e.allocHeir parent.refs.head?).2.object? g with
  | none => rfl
  | some o => obtain ⟨kind, -, -, -⟩ := o; cases kind <;> rfl

@[simp] lemma rename_instantiate (f : Slot → Slot) (e : Engine) (c : ObjectClass)
    (args : List Value) :
    (e.instantiate c args).rename f = (e.rename f).instantiate c args := rfl

@[simp] lemma rename_withReceiver (f : Slot → Slot) (e : Engine) (this : Value)
    {next : Engine → Value → Engine}
    (hnext : ∀ v, (next e v).rename f = next (e.rename f) v) :
    (e.withReceiver this next).rename f = (e.rename f).withReceiver this next := by
  cases this <;> first | rfl | exact hnext _

@[simp] lemma rename_withTime (f : Slot → Slot) (e : Engine) (this : Value)
    (next : Binary64 → Value) :
    (e.withTime this next).rename f = (e.rename f).withTime this next := by
  simp only [withTime, object?_rename]
  cases e.object? this with
  | none => rfl
  | some o => obtain ⟨kind, -, -, -⟩ := o; cases kind <;> rfl

@[simp] lemma rename_setParent (f : Slot → Slot) (e : Engine) (this parent : Value) :
    (e.setParent this parent).rename f = (e.rename f).setParent this parent := by
  have hadopt : ∀ r p, _ := fun r p => rename_update f e r (g := fun o => { o with parent := p })
    (fun o => rfl) (.ret .undefined)
  unfold setParent
  split
  · exact hadopt _ _
  · simp only [heap_rename, Heap.inherits_rename, Heap.length_objects_rename]
    split
    · rfl
    · exact hadopt _ _
  · rfl

@[simp] lemma parentOf_rename (f : Slot → Slot) (e : Engine) (v : Value) :
    (e.rename f).parentOf v = e.parentOf v := by
  cases v with
  | object r =>
    simp only [parentOf, heap_rename, Heap.get?_rename]
    cases e.heap.get? r <;> rfl
  | _ => rfl

@[simp] lemma rename_withPlain (f : Slot → Slot) (e : Engine) (c : ObjectClass) (this : Value)
    {next next' : Value → Engine} (hnext : ∀ v, (next v).rename f = next' v) :
    (e.withPlain c this next).rename f = (e.rename f).withPlain c this next' := by
  unfold withPlain
  rw [object?_rename]
  cases e.object? this with
  | none =>
    dsimp only [Option.map]
    generalize Option.filter _ _ = value
    cases value with
    | none => rfl
    | some v => exact hnext v
  | some o =>
    obtain ⟨kind, -, -, -⟩ := o
    cases kind <;> cases this <;> dsimp only [Option.map, Object.rename, ObjectKind.rename] <;>
      generalize Option.filter _ _ = value <;> cases value <;> first | rfl | exact hnext _

@[simp] lemma rename_givePlainText (f : Slot → Slot) (e : Engine) (v : Value) :
    (e.givePlainText v).rename f = (e.rename f).givePlainText v := by
  cases v <;> rfl

@[simp] lemma rename_giveSymbol (f : Slot → Slot) (e : Engine) (description : Option Units) :
    (e.giveSymbol description).rename f = (e.rename f).giveSymbol description := rfl

@[simp] lemma rename_callClass (f : Slot → Slot) (e : Engine) (c : ObjectClass)
    (args : List Value) : (e.callClass c args).rename f = (e.rename f).callClass c args := by
  unfold callClass
  dsimp only
  split <;> try simp
  split <;> simp [Pending.rename]

@[simp] lemma typeName_rename (f : Slot → Slot) (e : Engine) (v : Value) :
    (e.rename f).typeName v = e.typeName v := by
  cases v with
  | object r =>
    simp only [typeName, heap_rename, Heap.get?_rename]
    cases e.heap.get? r with
    | none => rfl
    | some o =>
      obtain ⟨kind, -, -, -⟩ := o
      cases kind with
      | builtin b => cases b <;> rfl
      | _ => rfl
  | _ => rfl

@[simp] lemma typeOf_rename (f : Slot → Slot) (e : Engine) (v : Value) :
    (e.rename f).typeOf v = e.typeOf v := by
  cases v <;> simp [typeOf]

@[simp] lemma rename_withEntryName (f : Slot → Slot) (e : Engine) (v : Value)
    {next next' : String → Engine} (hnext : ∀ name, (next name).rename f = next' name) :
    (e.withEntryName v next).rename f = (e.rename f).withEntryName v next' := by
  unfold withEntryName
  split
  · split
    · exact hnext _
    · rfl
  · rw [typeName_rename]
    rfl

@[simp] lemma rename_callReader (f : Slot → Slot) (e : Engine) (slot : Slot) (key : Value) :
    (e.callReader slot key).rename f = (e.rename f).callReader (f slot) key := by
  cases key with
  | symbol => rfl
  | _ => exact rename_withEntryName _ _ _ fun name => rename_askEntry ..

@[simp] lemma rename_callWriter (f : Slot → Slot) (e : Engine) (slot : Slot) (key v : Value) :
    (e.callWriter slot key v).rename f = (e.rename f).callWriter (f slot) key v := by
  cases key with
  | symbol => rfl
  | _ => exact rename_withEntryName _ _ _ fun name => rename_assignEntry ..

@[simp] lemma rename_callEntry (f : Slot → Slot) (e : Engine) (slot : Slot) (array : Value) :
    (e.callEntry slot array).rename f = (e.rename f).callEntry (f slot) array := by
  simp only [callEntry, object?_rename, typeName_rename]
  cases e.object? array with
  | none => rfl
  | some o =>
    obtain ⟨kind, -, -, -⟩ := o
    cases kind <;> first | rfl | exact rename_invokeEntry ..

/-- A function with other slots is called in an engine with these slots, unless it tells one. -/
lemma rename_callBuiltin (f : Slot → Slot) (e : Engine) {b : Builtin} (this : Value)
    (args : List Value) (hb : ∀ slot, b ≠ .token slot) :
    (e.callBuiltin b this args).rename f = (e.rename f).callBuiltin (b.rename f) this args := by
  cases b with
  | token slot => exact absurd rfl (hb slot)
  | iterateText => cases this <;> simp [callBuiltin, Builtin.rename]
  | errorText => cases this <;> simp [callBuiltin, Builtin.rename]
  | call => simp [callBuiltin, Builtin.rename, Control.rename]
  | getParent => exact rename_withReceiver f e this fun v => by simp
  | join => exact rename_withReceiver f e this fun v => rename_join ..
  | arrayText => exact rename_withReceiver f e this fun v => rfl
  | iterate => exact rename_withReceiver f e this fun v => rfl
  | _ => simp [callBuiltin, Builtin.rename]

@[simp] lemma rename_enterCall (f : Slot → Slot) (e : Engine) (g this : Value)
    (args : List Value) :
    (e.enterCall g this args).rename f = (e.rename f).enterCall g this args := rfl

/-- What a call tells of slots is nothing, unless a token is called. -/
lemma rename_callStep (f : Slot → Slot) (e : Engine) (g this : Value) (args : List Value)
    (hg : ∀ slot, (e.object? g).map Object.kind ≠ some (.builtin (.token slot))) :
    (e.callStep g this args).rename f = (e.rename f).callStep g this args := by
  unfold callStep
  rw [object?_rename]
  cases ho : e.object? g with
  | none => rfl
  | some o =>
    rw [ho] at hg
    obtain ⟨kind, parent, properties, entry⟩ := o
    cases kind with
    | function body caught kept =>
      by_cases hfull : e.isFull = true <;>
        simp [Object.rename, ObjectKind.rename, hfull, Control.rename]
    | builtin b =>
      by_cases hfull : e.isFull = true
      · simp [Object.rename, ObjectKind.rename, hfull]
      · have hcall := rename_callBuiltin f (e.enterCall g this args) (b := b) this args
          fun slot hb => hg slot (by rw [hb]; rfl)
        simp [Object.rename, ObjectKind.rename, hfull, hcall]
    | proxy slot token => exact rename_invokeEntry ..
    | _ => rfl

/-! ### Evaluation -/

@[simp] lemma renameMade_allocNest (f : Slot → Slot) (e : Engine) (depth : Nat) :
    renameMade f (e.allocNest depth) = (e.rename f).allocNest depth := by
  induction depth with
  | zero => rfl
  | succ depth ih =>
    cases depth with
    | zero => rfl
    | succ depth =>
      have hnext : ∀ e : Engine, e.allocNest (depth + 2) =
          (e.allocNest (depth + 1)).2.allocArray [(e.allocNest (depth + 1)).1] := fun e => rfl
      rw [hnext, hnext, ← ih]
      rfl

@[simp] lemma renameMade_allocLoop (f : Slot → Slot) (e : Engine) :
    renameMade f e.allocLoop = (e.rename f).allocLoop := rfl

@[simp] lemma renameMade_allocObject (f : Slot → Slot) (e : Engine)
    (properties : List (String × Value)) :
    renameMade f (e.allocObject properties) = (e.rename f).allocObject properties := by
  rw [allocObject, renameMade_alloc, allocObject]
  exact congrArg (e.rename f).alloc (List.foldl_hom (Object.rename f) fun o p =>
    Object.define_rename f o (.ofName p.1) (.data p.2)).symm

@[simp] lemma renameMade_allocFunction (f : Slot → Slot) (e : Engine) (body : Expr)
    (isGetter : Bool) (env : Env) :
    renameMade f (e.allocFunction body isGetter env) =
      (e.rename f).allocFunction body isGetter env := rfl

@[simp] lemma rename_apply (f : Slot → Slot) (e : Engine) (op : Op) (operands : List Value) :
    (e.apply op operands).rename f = (e.rename f).apply op operands := by
  unfold apply
  split <;> simp [Control.rename]

@[simp] lemma rename_nextOperand (f : Slot → Slot) (e : Engine) (op : Op) (done : List Value)
    (rest : List Expr) (env : Env) :
    (e.nextOperand op done rest env).rename f = (e.rename f).nextOperand op done rest env := by
  cases rest with
  | nil => exact rename_apply ..
  | cons x xs => rfl

@[simp] lemma rename_nextPart (f : Slot → Slot) (e : Engine) (rest : List Expr) (env : Env) :
    (e.nextPart rest env).rename f = (e.rename f).nextPart rest env := by
  unfold nextPart
  split <;> rfl

@[simp] lemma rename_evalStep (f : Slot → Slot) (e : Engine) (script : Expr) (env : Env) :
    (e.evalStep script env).rename f = (e.rename f).evalStep script env := by
  cases script with
  | caught =>
    simp only [evalStep]
    cases env.caught <;> rfl
  | seq parts => exact rename_nextPart ..
  | op op operands => exact rename_nextOperand ..
  | _ => rfl

@[simp] lemma rename_defineAccessor (f : Slot → Slot) (e : Engine) (target : Value) (key : Key)
    (body : Expr) (isSetter : Bool) (env : Env) :
    (e.defineAccessor target key body isSetter env).rename f =
      (e.rename f).defineAccessor target key body isSetter env := by
  unfold defineAccessor
  rw [object?_rename]
  cases target with
  | object r =>
    cases e.object? (.object r) with
    | none => rfl
    | some o =>
      dsimp only [Option.map_some]
      rw [Object.isPermanent_rename, Object.own?_rename]
      split
      · rfl
      · exact rename_update f (e.allocFunction body (!isSetter) env).2 r
          (fun o => Object.define_rename f o key _) (.ret (.object r))
  | _ => rfl

end Engine

end ScriptBridge
