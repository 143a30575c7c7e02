/-
# Where the handles of a record end up

Whoever decodes a record answers for its handles: each of them ends up in a lease within
the value, or it is among those that the engine is told to give up.  The record of a host
value names exactly the handles of the leases in it.
-/
import Mathlib.Data.List.Perm.Basic
import ScriptBridge.Bridge.Encode
import ScriptBridge.Proofs.Wire.Leaves
import ScriptBridge.Session.State

namespace ScriptBridge

open ScriptBridge.Host ScriptBridge.Table ScriptBridge.Wire

namespace Host.HostValue

variable {f : ForeignObject} {o : HostObject} {v w : HostValue} {vs ws : List HostValue}

lemma foreignsOf_eq_flatMap (vs : List HostValue) : foreignsOf vs = vs.flatMap foreigns := by
  induction vs with
  | nil => rfl
  | cons v vs ih => rw [foreignsOf, ih, List.flatMap_cons]

@[simp] lemma foreignsOf_append :
    foreignsOf (vs ++ ws) = foreignsOf vs ++ foreignsOf ws := by
  simp only [foreignsOf_eq_flatMap, List.flatMap_append]

lemma mem_foreignsOf : f ∈ foreignsOf vs ↔ ∃ v ∈ vs, f ∈ v.foreigns := by
  rw [foreignsOf_eq_flatMap, List.mem_flatMap]

lemma objectsOf_eq_flatMap (vs : List HostValue) : objectsOf vs = vs.flatMap objects := by
  induction vs with
  | nil => rfl
  | cons v vs ih => rw [objectsOf, ih, List.flatMap_cons]

lemma mem_objectsOf : o ∈ objectsOf vs ↔ ∃ v ∈ vs, o ∈ v.objects := by
  rw [objectsOf_eq_flatMap, List.mem_flatMap]

lemma referencesOf_eq_flatMap (vs : List HostValue) : referencesOf vs = vs.flatMap references := by
  induction vs with
  | nil => rfl
  | cons v vs ih => rw [referencesOf, ih, List.flatMap_cons]

lemma mem_referencesOf : v ∈ referencesOf vs ↔ ∃ w ∈ vs, v ∈ w.references := by
  rw [referencesOf_eq_flatMap, List.mem_flatMap]

mutual
lemma object_mem_references : ∀ v : HostValue, .object o ∈ v.references ↔ o ∈ v.objects
  | .null | .bool _ | .int _ | .number _ | .string _ | .date _ | .object _ | .foreign _ => by
    simp [references, objects]
  | .array items => object_mem_referencesOf items

lemma object_mem_referencesOf : ∀ vs : List HostValue,
    .object o ∈ referencesOf vs ↔ o ∈ objectsOf vs
  | [] => by simp [referencesOf, objectsOf]
  | v :: vs => by
    rw [referencesOf, objectsOf, List.mem_append, List.mem_append, object_mem_references v,
      object_mem_referencesOf vs]
end

mutual
lemma foreign_mem_references : ∀ v : HostValue, .foreign f ∈ v.references ↔ f ∈ v.foreigns
  | .null | .bool _ | .int _ | .number _ | .string _ | .date _ | .object _ | .foreign _ => by
    simp [references, foreigns]
  | .array items => foreign_mem_referencesOf items

lemma foreign_mem_referencesOf : ∀ vs : List HostValue,
    .foreign f ∈ referencesOf vs ↔ f ∈ foreignsOf vs
  | [] => by simp [referencesOf, foreignsOf]
  | v :: vs => by
    rw [referencesOf, foreignsOf, List.mem_append, List.mem_append, foreign_mem_references v,
      foreign_mem_referencesOf vs]
end

mutual
/-- References are to host objects and to leases. -/
lemma mem_references_cases : ∀ v : HostValue, w ∈ v.references →
    (∃ o, w = .object o) ∨ ∃ f, w = .foreign f
  | .null | .bool _ | .int _ | .number _ | .string _ | .date _ => fun h => by cases h
  | .object o => fun h => .inl ⟨o, List.mem_singleton.1 h⟩
  | .foreign f => fun h => .inr ⟨f, List.mem_singleton.1 h⟩
  | .array items => mem_referencesOf_cases items

lemma mem_referencesOf_cases : ∀ vs : List HostValue, w ∈ referencesOf vs →
    (∃ o, w = .object o) ∨ ∃ f, w = .foreign f
  | [] => fun h => by cases h
  | v :: vs => fun h =>
    (List.mem_append.1 h).elim (mem_references_cases v) (mem_referencesOf_cases vs)
end

end Host.HostValue

namespace Bridge

open ScriptBridge.Host.HostValue ScriptBridge.Session

/-- The handle that an engine is told to give up. -/
def Task.released : Task → List Handle
  | .read .. => []
  | .release h => [h]

/-- The foreign objects in an outcome. -/
def foreignsOfResult {ε : Type} (r : Except ε HostValue) : List ForeignObject :=
  foreignsOf (outcomeValues r)

@[simp] lemma foreignsOfResult_ok {ε : Type} (v : HostValue) :
    foreignsOfResult (.ok v : Except ε HostValue) = v.foreigns :=
  List.append_nil _

@[simp] lemma foreignsOfResult_error {ε : Type} (e : ε) :
    foreignsOfResult (.error e : Except ε HostValue) = [] := rfl

/-- Some handles have ended up among tasks and in outcomes that are leases of a bridge. -/
structure Places (bridge : Nat) (handles : List Handle) (tasks : List Task)
    (leases : List ForeignObject) : Prop where
  perm : handles.Perm (tasks.flatMap Task.released ++ leases.map (·.handle))
  bridge : ∀ f ∈ leases, f.bridge = bridge

variable {bridge : Nat} {a : Arena Entry}

lemma foreigns_plainValue (v : View) : foreignsOfResult (plainValue a v) = [] := by
  have hdate : ∀ x, foreignsOfResult (dateValue x) = [] := by
    intro x
    unfold dateValue
    split
    · rfl
    · split <;> rfl
  have hentry : ∀ entry : Entry, foreignsOfResult (entryValue entry) = [] := by
    intro entry
    cases entry <;> rfl
  cases v with
  | date x => exact hdate x
  | managedRef slot =>
    rw [plainValue]
    split
    · exact hentry _
    · rfl
  | managedError slot =>
    rw [plainValue]
    split <;> rfl
  | _ => rfl

lemma places_decodeLeaf (next : Nat) {r : Record} (hr : ∀ items, r ≠ .array items) :
    Places bridge r.handles (decodeLeaf bridge a next r).tasks
      (foreignsOfResult (decodeLeaf bridge a next r).result) := by
  unfold decodeLeaf
  split
  · next hview =>
    rw [Record.handles_of_view_error hview]
    exact ⟨.refl _, by simp⟩
  · next h hview =>
    rw [Record.handles_of_view hview]
    exact ⟨.refl _, by simp [foreigns]⟩
  · next h hview =>
    rw [Record.handles_of_view hview]
    exact ⟨.refl _, by simp⟩
  · next v hforeign herror hview =>
    dsimp only
    rw [Record.handles_of_view hview, foreigns_plainValue]
    refine ⟨?_, by simp⟩
    cases v with
    | array items =>
      -- Only an array that owns no elements has another form.
      cases r with
      | plain tag bits length =>
        rw [Record.view_plain_ne_array hview]
        exact .refl _
      | text kind bytes =>
        rcases Record.view_text_isString hview with ⟨s, hs⟩ | ⟨s, hs⟩ <;> cases hs
      | array items => exact absurd rfl (hr items)
    | foreignRef h =>
      cases h with
      | none => exact .refl _
      | some h => exact absurd rfl (hforeign h)
    | foreignError h =>
      cases h with
      | none => exact .refl _
      | some h => exact absurd rfl (herror h)
    | _ => exact .refl _

/-- The leases in what came of some elements are those in the values before the first fault
and after it, or in all values where there is none. -/
lemma foreigns_gather (rs : List (Except Fault HostValue)) :
    rs.flatMap foreignsOfResult =
      match gather rs with
      | .ok vs => foreignsOf vs
      | .error (_, before, after) => foreignsOf (before ++ after) := by
  induction rs with
  | nil => rfl
  | cons r rs ih =>
    cases r with
    | error f =>
      rw [gather, List.flatMap_cons, foreignsOfResult_error, List.nil_append]
      change rs.flatMap foreignsOfResult = foreignsOf (rs.filterMap Except.toOption)
      clear ih
      induction rs with
      | nil => rfl
      | cons r rs ih =>
        rw [List.flatMap_cons, ih]
        cases r with
        | error f => rfl
        | ok v =>
          rw [foreignsOfResult_ok]
          rfl
    | ok v =>
      rw [gather, List.flatMap_cons, foreignsOfResult_ok, ih]
      cases gather rs with
      | ok vs => rfl
      | error fault => rfl

lemma places_decodedArray {handles : List Handle}
    {d : Decoded (List (Except Fault HostValue))}
    (h : Places bridge handles d.tasks (d.result.flatMap foreignsOfResult)) :
    Places bridge handles (decodedArray d).tasks (foreignsOfResult (decodedArray d).result) := by
  have hgather := foreigns_gather d.result
  unfold decodedArray
  split
  · next vs hvs =>
    rw [hvs] at hgather
    rw [hgather] at h
    simpa [foreigns] using h
  · next f before after hfault =>
    rw [hfault] at hgather
    dsimp only at hgather ⊢
    rw [hgather] at h
    refine ⟨h.perm.trans ?_, by simp⟩
    -- The values that were read are given up, those after the fault first.
    have hdrop : (dropTasks (after ++ before)).flatMap Task.released =
        (foreignsOf (after ++ before)).map (·.handle) := by
      rw [dropTasks, List.flatMap_map]
      exact List.flatMap_pure_eq_map ..
    rw [foreignsOfResult_error, List.map_nil, List.append_nil, List.flatMap_append, hdrop]
    refine List.Perm.append_left _ (List.Perm.map _ ?_)
    rw [foreignsOf_append, foreignsOf_append]
    exact List.perm_append_comm

mutual
/-- **Each handle in a record ends up in a lease within the value that the record stands
for, or it is given up.** -/
theorem places_decode (bridge : Nat) (a : Arena Entry) (next : Nat) : ∀ r : Record,
    Places bridge r.handles (decode bridge a next r).tasks
      (foreignsOfResult (decode bridge a next r).result)
  | .plain tag bits length => places_decodeLeaf next (by simp)
  | .text kind bytes => places_decodeLeaf next (by simp)
  | .array items => places_decodedArray (places_decodeItems bridge a next items)

/-- Each handle in some records ends up in a lease within one of the values, or it is given
up. -/
theorem places_decodeItems (bridge : Nat) (a : Arena Entry) (next : Nat) :
    ∀ rs : List Record, Places bridge (Record.handlesOfItems rs)
      (decodeItems bridge a next rs).tasks
      ((decodeItems bridge a next rs).result.flatMap foreignsOfResult)
  | [] => ⟨.refl _, by simp [decodeItems]⟩
  | r :: rs => by
    have hfirst := places_decode bridge a next r
    have hothers := places_decodeItems bridge a (decode bridge a next r).next rs
    rw [decodeItems]
    refine ⟨(hfirst.perm.append hothers.perm).trans ?_, fun f hf => ?_⟩
    · refine List.perm_iff_count.2 fun h => ?_
      simp only [List.flatMap_cons, List.flatMap_append, List.map_append, List.count_append]
      omega
    · rw [List.flatMap_cons, List.mem_append] at hf
      exact hf.elim (hfirst.bridge f) (hothers.bridge f)
end

/-! ### The numbers of leases -/

/-- Some leases have numbers from a range, each its own. -/
structure Numbered (first last : Nat) (leases : List ForeignObject) : Prop where
  le : first ≤ last
  bounds : ∀ f ∈ leases, first ≤ f.lease ∧ f.lease < last
  nodup : (leases.map (·.lease)).Nodup

lemma Numbered.nil {first last : Nat} (h : first ≤ last) : Numbered first last [] :=
  ⟨h, by simp, List.nodup_nil⟩

lemma Numbered.append {first mid last : Nat} {few more : List ForeignObject}
    (h : Numbered first mid few) (h' : Numbered mid last more) :
    Numbered first last (few ++ more) where
  le := Nat.le_trans h.le h'.le
  bounds := fun f hf => by
    have hle := h.le
    have hle' := h'.le
    rcases List.mem_append.1 hf with hf | hf
    · have := h.bounds f hf
      omega
    · have := h'.bounds f hf
      omega
  nodup := by
    rw [List.map_append]
    refine List.nodup_append.2 ⟨h.nodup, h'.nodup, fun m hm n hn heq => ?_⟩
    obtain ⟨f, hf, rfl⟩ := List.mem_map.1 hm
    obtain ⟨g, hg, rfl⟩ := List.mem_map.1 hn
    have := h.bounds f hf
    have := h'.bounds g hg
    omega

lemma numbered_decodeLeaf (next : Nat) (r : Record) :
    Numbered next (decodeLeaf bridge a next r).next
      (foreignsOfResult (decodeLeaf bridge a next r).result) := by
  unfold decodeLeaf
  split
  · exact .nil (Nat.le_refl _)
  · exact ⟨Nat.le_succ _, by simp [foreigns], by simp [foreigns]⟩
  · exact .nil (Nat.le_refl _)
  · rw [foreigns_plainValue]
    exact .nil (Nat.le_refl _)

mutual
/-- **The leases that come of a record have new numbers, each its own.** -/
theorem numbered_decode (bridge : Nat) (a : Arena Entry) (next : Nat) : ∀ r : Record,
    Numbered next (decode bridge a next r).next
      (foreignsOfResult (decode bridge a next r).result)
  | .plain tag bits length => numbered_decodeLeaf next _
  | .text kind bytes => numbered_decodeLeaf next _
  | .array items => by
    have hitems := numbered_decodeItems bridge a next items
    have hgather := foreigns_gather (decodeItems bridge a next items).result
    rw [decode, decodedArray]
    split
    · next vs hvs =>
      rw [hgather, hvs] at hitems
      simpa [foreigns] using hitems
    · exact .nil hitems.le

/-- The leases that come of some records have new numbers, each its own. -/
theorem numbered_decodeItems (bridge : Nat) (a : Arena Entry) (next : Nat) :
    ∀ rs : List Record, Numbered next (decodeItems bridge a next rs).next
      ((decodeItems bridge a next rs).result.flatMap foreignsOfResult)
  | [] => .nil (Nat.le_refl _)
  | r :: rs => (numbered_decode bridge a next r).append (numbered_decodeItems bridge a _ rs)
end

lemma tasks_decodeLeaf {next : Nat} {r : Record} {v : HostValue}
    (h : (decodeLeaf bridge a next r).result = .ok v) :
    (decodeLeaf bridge a next r).tasks = [] := by
  unfold decodeLeaf at h ⊢
  split at h
  · rfl
  · rfl
  · cases h
  · rfl

mutual
/-- Nothing is left to do for a record that has a value. -/
theorem tasks_decode {bridge : Nat} {a : Arena Entry} {next : Nat} : ∀ {r : Record}
    {v : HostValue}, (decode bridge a next r).result = .ok v →
      (decode bridge a next r).tasks = []
  | .plain tag bits length, v, h => tasks_decodeLeaf h
  | .text kind bytes, v, h => tasks_decodeLeaf h
  | .array items, v, h => by
    rw [decode, decodedArray] at h ⊢
    split at h
    · next vs hvs => exact tasks_decodeItems hvs
    · cases h

/-- Nothing is left to do for records that all have a value. -/
theorem tasks_decodeItems {bridge : Nat} {a : Arena Entry} {next : Nat} : ∀ {rs : List Record}
    {vs : List HostValue}, gather (decodeItems bridge a next rs).result = .ok vs →
      (decodeItems bridge a next rs).tasks = []
  | [], vs, h => rfl
  | r :: rs, vs, h => by
    rw [decodeItems] at h ⊢
    cases hfirst : (decode bridge a next r).result with
    | error f =>
      rw [hfirst] at h
      cases h
    | ok w =>
      rw [hfirst, gather] at h
      split at h
      · next ws hws =>
        dsimp only
        rw [tasks_decode hfirst, tasks_decodeItems hws, List.nil_append]
      · cases h
end

/-! ### Records of host values -/

/-- Some handles are those of some foreign objects, which are leases of a bridge. -/
structure Names (bridge : Nat) (handles : List Handle) (leases : List ForeignObject) : Prop where
  eq : handles = leases.map (·.handle)
  bridge : ∀ f ∈ leases, f.bridge = bridge

mutual
/-- **The record of a host value names the handles of the foreign objects in it.** -/
theorem names_encode (bridge : Nat) (a : Arena Entry) : ∀ {v : HostValue} {r : Record},
    (encode bridge a v).1 = .ok r → Names bridge r.handles v.foreigns
  | .null, r, h => by
    cases h
    exact ⟨Record.handles_null, by simp [foreigns]⟩
  | .bool b, r, h => by
    cases h
    exact ⟨Record.handles_boolean b, by simp [foreigns]⟩
  | .int n, r, h => by
    cases h
    exact ⟨Record.handles_integer n, by simp [foreigns]⟩
  | .number x, r, h => by
    cases h
    exact ⟨Record.handles_number x, by simp [foreigns]⟩
  | .string s, r, h => by
    cases h
    exact ⟨Record.handles_string s, by simp [foreigns]⟩
  | .date t, r, h => by
    cases h
    exact ⟨Record.handles_date _, by simp [foreigns]⟩
  | .array items, r, h => by
    rw [encode] at h
    split at h
    · cases h
    · split at h
      · next rs a' hitems =>
        cases h
        have hnames := names_encodeItems bridge a [] (congrArg Prod.fst hitems)
        exact ⟨hnames.1, hnames.2⟩
      · cases h
  | .object o, r, h => by
    rw [encode] at h
    split at h <;> cases h
    exact ⟨Record.handles_managed _, by simp [foreigns]⟩
  | .foreign f, r, h => by
    rw [encode, handleOf] at h
    split at h
    · next hbridge =>
      cases h
      exact ⟨Record.handles_foreign f.handle, by simpa [foreigns] using hbridge⟩
    · cases h

/-- The records of elements name the handles of the foreign objects in them, along with those
of the elements before them. -/
theorem names_encodeItems (bridge : Nat) (a : Arena Entry) (done : List Record) :
    ∀ {vs : List HostValue} {rs : List Record}, (encodeItems bridge a done vs).1 = .ok rs →
      (Record.handlesOfItems rs = Record.handlesOfItems done.reverse ++
          (foreignsOf vs).map (·.handle)) ∧ ∀ f ∈ foreignsOf vs, f.bridge = bridge
  | [], rs, h => by
    cases h
    simp [foreignsOf]
  | v :: vs, rs, h => by
    rw [encodeItems] at h
    split at h
    · cases h
    · next r a' hfirst =>
      have hv := names_encode bridge a (congrArg Prod.fst hfirst)
      obtain ⟨hrest, hbridge⟩ := names_encodeItems bridge a' (r :: done) h
      refine ⟨?_, fun f hf => ?_⟩
      · rw [hrest, List.reverse_cons, Record.handlesOfItems_append, foreignsOf, List.map_append,
          ← hv.eq]
        simp [Record.handlesOfItems]
      · rw [foreignsOf, List.mem_append] at hf
        exact hf.elim (hv.bridge f) (hbridge f)
end

end Bridge

end ScriptBridge
