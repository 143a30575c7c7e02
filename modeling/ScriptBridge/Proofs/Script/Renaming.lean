/-
# Other slots in a heap

A heap in which slots are exchanged for others.  Nothing that is looked for in a heap depends on
slots but what says which slot something stands for.
-/
import Mathlib.Tactic.Common
import ScriptBridge.Proofs.Script.Heap
import ScriptBridge.Script.Intrinsic

namespace ScriptBridge.Script

open ScriptBridge.Wire

variable {f : Slot → Slot}

/-! ### Objects -/

/-- A function with other slots. -/
def Builtin.rename (f : Slot → Slot) : Builtin → Builtin
  | token s => token (f s)
  | readEntry s => readEntry (f s)
  | writeEntry s => writeEntry (f s)
  | callEntry s => callEntry (f s)
  | b => b

/-- What an object is, with other slots. -/
def ObjectKind.rename (f : Slot → Slot) : ObjectKind → ObjectKind
  | builtin b => builtin (b.rename f)
  | proxy s token => proxy (f s) token
  | kind => kind

@[simp] lemma ObjectKind.refs_rename (f : Slot → Slot) (kind : ObjectKind) :
    (kind.rename f).refs = kind.refs := by
  cases kind <;> rfl

@[simp] lemma ObjectKind.implied?_rename (f : Slot → Slot) (kind : ObjectKind) (key : Key) :
    (kind.rename f).implied? key = kind.implied? key := by
  cases kind <;> rfl

namespace Object

/-- An object with other slots. -/
def rename (f : Slot → Slot) (o : Object) : Object :=
  { o with kind := o.kind.rename f, entry := o.entry.map f }

@[simp] lemma kind_rename (f : Slot → Slot) (o : Object) :
    (o.rename f).kind = o.kind.rename f := rfl

@[simp] lemma parent_rename (f : Slot → Slot) (o : Object) : (o.rename f).parent = o.parent := rfl

@[simp] lemma properties_rename (f : Slot → Slot) (o : Object) :
    (o.rename f).properties = o.properties := rfl

@[simp] lemma entry_rename (f : Slot → Slot) (o : Object) :
    (o.rename f).entry = o.entry.map f := rfl

@[simp] lemma slot?_rename (f : Slot → Slot) (o : Object) :
    (o.rename f).slot? = o.slot?.map f := by
  obtain ⟨kind, parent, properties, entry⟩ := o
  cases kind with
  | builtin b => cases b <;> rfl
  | _ => rfl

@[simp] lemma isCallable_rename (f : Slot → Slot) (o : Object) :
    (o.rename f).isCallable = o.isCallable := by
  obtain ⟨kind, parent, properties, entry⟩ := o
  cases kind <;> rfl

@[simp] lemma refs_rename (f : Slot → Slot) (o : Object) : (o.rename f).refs = o.refs := by
  rw [refs, kind_rename, ObjectKind.refs_rename]
  rfl

@[simp] lemma own?_rename (f : Slot → Slot) (o : Object) (key : Key) :
    (o.rename f).own? key = o.own? key := by
  rw [own?, kind_rename, ObjectKind.implied?_rename]
  rfl

@[simp] lemma isPermanent_rename (f : Slot → Slot) (o : Object) (key : Key) :
    (o.rename f).isPermanent key = o.isPermanent key := by
  unfold isPermanent
  rw [own?_rename, kind_rename]
  cases o.own? key with
  | none => cases o.kind <;> rfl
  | some p => cases p <;> cases o.kind <;> rfl

@[simp] lemma define_rename (f : Slot → Slot) (o : Object) (key : Key) (p : Property) :
    (o.rename f).define key p = (o.define key p).rename f := by
  obtain ⟨kind, parent, properties, entry⟩ := o
  cases kind <;> cases key <;> rfl

@[simp] lemma resize_rename (f : Slot → Slot) (o : Object) (length : Nat) :
    (o.rename f).resize length = (o.resize length).rename f := by
  obtain ⟨kind, parent, properties, entry⟩ := o
  cases kind <;> rfl

end Object

/-- What a search comes to, with other slots. -/
def Found.rename (f : Slot → Slot) : Found → Found
  | standIn r s => standIn r (f s)
  | found => found

/-! ### Heaps -/

namespace Heap

variable {h : Heap}

/-- A heap with other slots. -/
def rename (f : Slot → Slot) (h : Heap) : Heap :=
  { h with objects := h.objects.map fun (r, o) => (r, o.rename f) }

@[simp] lemma next_rename (f : Slot → Slot) (h : Heap) : (h.rename f).next = h.next := rfl

lemma objects_rename (f : Slot → Slot) (h : Heap) :
    (h.rename f).objects = h.objects.map fun (r, o) => (r, o.rename f) := rfl

@[simp] lemma length_objects_rename (f : Slot → Slot) (h : Heap) :
    (h.rename f).objects.length = h.objects.length := List.length_map _

@[simp] lemma get?_rename (f : Slot → Slot) (h : Heap) (r : Ref) :
    (h.rename f).get? r = (h.get? r).map (Object.rename f) := by
  obtain ⟨objects, next⟩ := h
  induction objects with
  | nil => rfl
  | cons x objects ih =>
    obtain ⟨s, o⟩ := x
    change List.lookup r ((s, o.rename f) :: _) = Option.map _ (List.lookup r ((s, o) :: objects))
    rw [lookup_cons_eq_ite, lookup_cons_eq_ite]
    split
    · rfl
    · exact ih

@[simp] lemma alloc_rename (f : Slot → Slot) (h : Heap) (o : Object) :
    (h.rename f).alloc (o.rename f) = ((h.alloc o).1, (h.alloc o).2.rename f) := rfl

lemma update_rename {g g' : Object → Object} (hg : ∀ o : Object, g' (o.rename f) = (g o).rename f)
    (h : Heap) (r : Ref) : (h.rename f).update r g' = (h.update r g).rename f := by
  simp only [update, rename, List.map_map]
  congr 1
  refine List.map_congr_left fun x _ => ?_
  obtain ⟨s, o⟩ := x
  simp only [Function.comp_apply]
  split
  · rw [hg]
  · rfl

@[simp] lemma erase_rename (f : Slot → Slot) (h : Heap) (r : Ref) :
    (h.rename f).erase r = (h.erase r).rename f := by
  simp only [erase, rename, List.filter_map]
  rfl

@[simp] lemma refs_rename (f : Slot → Slot) (h : Heap) : (h.rename f).refs = h.refs := by
  simp only [refs, rename, List.flatMap_map, Object.refs_rename]

@[simp] lemma search_rename (f : Slot → Slot) (h : Heap) (key : Key) (fuel : Nat) (r : Ref) :
    (h.rename f).search key fuel r = (h.search key fuel r).rename f := by
  induction fuel generalizing r with
  | zero => rfl
  | succ fuel ih =>
    rw [search, search, get?_rename]
    cases h.get? r with
    | none => rfl
    | some o =>
      simp only [Option.map_some, Object.kind_rename, Object.own?_rename, Object.parent_rename]
      cases o.kind <;> cases o.own? key <;> cases o.parent <;>
        first | rfl | exact ih _

@[simp] lemma find_rename (f : Slot → Slot) (h : Heap) (r : Ref) (key : Key) :
    (h.rename f).find r key = (h.find r key).rename f := by
  rw [find, length_objects_rename, search_rename]
  rfl

@[simp] lemma searchTaker_rename (f : Slot → Slot) (h : Heap) (key : Key) (fuel : Nat)
    (r : Option Ref) :
    (h.rename f).searchTaker key fuel r = (h.searchTaker key fuel r).rename f := by
  induction fuel generalizing r with
  | zero => rfl
  | succ fuel ih =>
    cases r with
    | none => rfl
    | some r =>
      rw [searchTaker, searchTaker, get?_rename]
      cases h.get? r with
      | none => rfl
      | some o =>
        simp only [Option.map_some, Object.kind_rename, Object.own?_rename, Object.parent_rename]
        cases o.kind <;> cases key <;> rcases o.own? _ with _ | ⟨_ | _ | _ | _⟩ <;>
          first | rfl | exact ih _

@[simp] lemma findTaker_rename (f : Slot → Slot) (h : Heap) (parent : Option Ref) (key : Key) :
    (h.rename f).findTaker parent key = (h.findTaker parent key).rename f := by
  rw [findTaker, length_objects_rename, searchTaker_rename]
  rfl

@[simp] lemma inherits_rename (f : Slot → Slot) (h : Heap) (ancestor : Ref) (fuel : Nat) (r : Ref) :
    (h.rename f).inherits ancestor fuel r = h.inherits ancestor fuel r := by
  induction fuel generalizing r with
  | zero => rfl
  | succ fuel ih =>
    rw [inherits, inherits, get?_rename]
    cases h.get? r with
    | none => rfl
    | some o =>
      simp only [Option.map_some, Option.bind_some, Object.parent_rename, ih]

@[simp] lemma spread_rename (f : Slot → Slot) (h : Heap) (seen : List Ref) :
    (h.rename f).spread seen = h.spread seen := by
  simp only [spread, rename, List.flatMap_map, Object.refs_rename]

@[simp] lemma reach_rename (f : Slot → Slot) (h : Heap) (rounds : Nat) (seen : List Ref) :
    (h.rename f).reach rounds seen = h.reach rounds seen := by
  induction rounds generalizing seen with
  | zero => rfl
  | succ rounds ih =>
    rw [reach, reach, spread_rename, ih]

@[simp] lemma reachable_rename (f : Slot → Slot) (h : Heap) (roots : List Ref) :
    (h.rename f).reachable roots = h.reachable roots := by
  rw [reachable, length_objects_rename, reach_rename]
  rfl

/-- The objects that are always there name no slots. -/
@[simp] lemma rename_initial (f : Slot → Slot) : Heap.initial.rename f = Heap.initial := by
  rfl

end Heap

end ScriptBridge.Script
