/-
# What a record becomes

A script value mirrors a record when it shows all that the record says: a scalar is the same
scalar, a slot is a stand-in for it, a handle is the very object that it keeps, and an array
has elements that mirror those of the record.  Whatever was made for a record lies on the heap
from some place on, so that it can be told from what was there before.

As long as no script can see it, a record becomes a value that mirrors it, unless a part of it
cannot be read or names a handle that keeps nothing.
-/
import ScriptBridge.Proofs.Script.Growth
import ScriptBridge.Proofs.Wire.Proper
import ScriptBridge.Engine.Convert

namespace ScriptBridge

open ScriptBridge.Number ScriptBridge.Script ScriptBridge.Table ScriptBridge.Wire

/-! ### Records that can be read -/

namespace Wire.Record

mutual
/-- Every part of a record can be read. -/
def IsReadable : Record → Prop
  | .plain tag bits length => ∃ v, (Record.plain tag bits length).view = .ok v
  | .text kind bytes => ∃ v, (Record.text kind bytes).view = .ok v
  | .array items => AreReadable items

/-- Every part of some records can be read. -/
def AreReadable : List Record → Prop
  | [] => True
  | r :: rs => IsReadable r ∧ AreReadable rs
end

lemma isReadable_of_view {r : Record} {v : View} (hr : ∀ items, r ≠ .array items)
    (h : r.view = .ok v) : r.IsReadable := by
  cases r with
  | plain => exact ⟨v, h⟩
  | text => exact ⟨v, h⟩
  | array items => exact absurd rfl (hr items)

lemma IsReadable.exists_view {r : Record} (h : r.IsReadable) : ∃ v, r.view = .ok v := by
  cases r with
  | plain => exact h
  | text => exact h
  | array items => exact ⟨_, rfl⟩

lemma areReadable_iff {rs : List Record} : AreReadable rs ↔ ∀ r ∈ rs, r.IsReadable := by
  induction rs with
  | nil => simp [AreReadable]
  | cons r rs ih => rw [AreReadable, ih, List.forall_mem_cons]

mutual
/-- What is proper can be read. -/
lemma IsProper.isReadable : ∀ {r : Record}, r.IsProper → r.IsReadable
  | .plain .., ⟨v, h, _⟩ => ⟨v, h⟩
  | .text .., ⟨v, h, _⟩ => ⟨v, h⟩
  | .array _, h => AreProper.areReadable h

lemma AreProper.areReadable : ∀ {rs : List Record}, AreProper rs → AreReadable rs
  | [], _ => trivial
  | _ :: _, h => ⟨IsProper.isReadable h.1, AreProper.areReadable h.2⟩
end

end Wire.Record

namespace Engine

variable {e e' : Engine} {h h' : Heap} {t : Handles Ref} {n m : Ref} {r : Record} {v : Value}

/-! ### Mirroring -/

/-- A script value shows what a record without elements says.  What was made for it lies at
place `n` or later. -/
inductive Depicts (n : Ref) (h : Heap) (t : Handles Ref) : View → Value → Prop
  | null : Depicts n h t .null .null
  | boolean (b : Bool) : Depicts n h t (.boolean b) (.bool b)
  | integer (i : Int32) : Depicts n h t (.integer i) (.int i)
  | number (x : Binary64) : Depicts n h t (.number x) (.ofWhole x)
  | string (s : String) : Depicts n h t (.string s) (.text s)
  | date {x : Binary64} {q : Ref} (hn : n ≤ q)
    (hq : h.get? q = some (.ofKind (.date (clipTime x)) (some Intrinsic.dateParent))) :
    Depicts n h t (.date x) (.object q)
  | empty {q : Ref} {o : Object} (hq : h.get? q = some o) (hn : n ≤ q)
    (hk : o.kind = .array 0) (ho : o.entry = none) : Depicts n h t (.array []) (.object q)
  | standIn {view : View} {s : Slot} {q k : Ref} {o token : Object}
    (hv : view = .managedRef s ∨ view = .managedError s) (hq : h.get? q = some o) (hn : n ≤ q)
    (hk : o.kind = .proxy s k) (ho : o.entry = some s) (ht : h.get? k = some token) (hkn : n ≤ k)
    (hs : token.slot? = some s) : Depicts n h t view (.object q)
  | vacant {view : View} (hv : view = .foreignRef none ∨ view = .foreignError none) :
    Depicts n h t view .null
  | pinned {view : View} {g : Handle} {q : Ref}
    (hv : view = .foreignRef (some g) ∨ view = .foreignError (some g)) (hq : t.get? g = some q) :
    Depicts n h t view (.object q)
  | error {m : Option String} {q : Ref} {o : Object} (hq : h.get? q = some o) (hn : n ≤ q)
    (hk : o.kind = .error)
      (ho : o.own? (.name "message") = some (.data (.text (m.getD hostErrorText)))) :
    Depicts n h t (.unknownError m) (.object q)

/-- A script value mirrors a record. -/
inductive Mirrors (n : Ref) (h : Heap) (t : Handles Ref) : Record → Value → Prop
  | leaf {r : Record} {view : View} {v : Value} (hn : ∀ items, r ≠ .array items)
    (hr : r.view = .ok view) (hv : Depicts n h t view v) : Mirrors n h t r v
  | array {items : List Record} {vs : List Value} {q : Ref} {o : Object}
    (hq : h.get? q = some o) (hn : n ≤ q) (hk : o.kind = .array items.length)
    (ho : o.entry = none) (hlength : vs.length = items.length)
    (hown : ∀ (i : Nat) v, vs[i]? = some v → o.own? (.index i) = some (.data v))
    (hitems : ∀ (i : Nat) r v, items[i]? = some r → vs[i]? = some v → Mirrors n h t r v) :
    Mirrors n h t (.array items) (.object q)

lemma Mirrors.depicts {view : View} (hm : Mirrors n h t r v) (hn : ∀ items, r ≠ .array items)
    (hview : r.view = .ok view) : Depicts n h t view v := by
  cases hm with
  | leaf _ hr hd =>
    obtain rfl := Except.ok.inj (hr.symm.trans hview)
    exact hd
  | array => exact absurd rfl (hn _)

/-! ### Later heaps -/

/-- The places that the value of an own property refers to are among those of the object. -/
lemma refs_subset_of_own? {o : Object} {key : Key} (ho : o.own? key = some (.data v)) :
    v.refs ⊆ o.refs := by
  intro l hl
  unfold Object.own? at ho
  split at ho
  · next p hp =>
    obtain rfl := Option.some.inj ho
    have hm : (key, Property.data v) ∈ o.properties := by
      obtain ⟨l₁, l₂, heq, -⟩ := List.lookup_eq_some_iff.1 hp
      rw [heq]
      exact List.mem_append_right _ (List.mem_cons_self ..)
    exact List.mem_append_right _ (List.mem_flatMap.2 ⟨_, hm, hl⟩)
  · -- What is implied by the kind of an object is no object.
    unfold ObjectKind.implied? at ho
    split at ho
    · cases ho
      rw [Value.refs_ofCount] at hl
      cases hl
    case h_6 =>
      obtain ⟨u, -, hu⟩ := Option.map_eq_some_iff.1 ho
      cases hu
    all_goals cases ho

/-- A set of places that is closed under what the objects there refer to. -/
def IsClosed (h : Heap) (S : Ref → Prop) : Prop :=
  ∀ q o, S q → h.get? q = some o → ∀ l ∈ o.refs, S l

lemma Depicts.keep {S : Ref → Prop} {view : View} (hd : Depicts n h t view v) (hS : IsClosed h S)
    (hkeep : ∀ q o, S q → n ≤ q → h.get? q = some o → h'.get? q = some o)
    (hv : ∀ q ∈ v.refs, S q) : Depicts n h' t view v := by
  have hself : ∀ q, v = .object q → S q := fun q hq =>
    hv q (by rw [hq]; exact List.mem_singleton_self q)
  cases hd with
  | null => exact .null
  | boolean b => exact .boolean b
  | integer i => exact .integer i
  | number x => exact .number x
  | string s => exact .string s
  | date hn hq => exact .date hn (hkeep _ _ (hself _ rfl) hn hq)
  | empty hq hn hk ho => exact .empty (hkeep _ _ (hself _ rfl) hn hq) hn hk ho
  | @standIn view s q k o token hs hq hn hk ho ht hkn hslot =>
    have hk' : S k := hS _ _ (hself _ rfl) hq k <| Object.mem_refs.2 <| .inr <| .inl <| by
      rw [hk]
      exact List.mem_singleton_self k
    exact .standIn hs (hkeep _ _ (hself _ rfl) hn hq) hn hk ho (hkeep _ _ hk' hkn ht) hkn hslot
  | vacant hs => exact .vacant hs
  | pinned hs hq => exact .pinned hs hq
  | error hq hn hk ho => exact .error (hkeep _ _ (hself _ rfl) hn hq) hn hk ho

/-- **A value goes on to mirror a record** as long as all that it refers to stays as it is. -/
theorem Mirrors.keep {S : Ref → Prop} (hm : Mirrors n h t r v) (hS : IsClosed h S)
    (hkeep : ∀ q o, S q → n ≤ q → h.get? q = some o → h'.get? q = some o)
    (hv : ∀ q ∈ v.refs, S q) : Mirrors n h' t r v := by
  induction hm with
  | leaf hn hr hd => exact .leaf hn hr (hd.keep hS hkeep hv)
  | @array items vs q o hq hn hk ho hlength hown hitems ih =>
    have hself : S q := hv q (List.mem_singleton_self q)
    refine .array (hkeep _ _ hself hn hq) hn hk ho hlength hown fun i r v hr hi => ?_
    exact ih i r v hr hi fun l hl => hS q o hself hq l (refs_subset_of_own? (hown i v hi) hl)

/-- What is at new places stays as it is. -/
lemma Mirrors.mono (hm : Mirrors n h t r v)
    (hkeep : ∀ q o, n ≤ q → h.get? q = some o → h'.get? q = some o) : Mirrors n h' t r v :=
  hm.keep (S := fun _ => True) (fun _ _ _ _ _ _ => trivial) (fun q o _ => hkeep q o)
    fun _ _ => trivial

lemma Depicts.weaken {view : View} (hd : Depicts m h t view v) (hnm : n ≤ m) :
    Depicts n h t view v := by
  cases hd with
  | null => exact .null
  | boolean b => exact .boolean b
  | integer i => exact .integer i
  | number x => exact .number x
  | string s => exact .string s
  | date hn hq => exact .date (Nat.le_trans hnm hn) hq
  | empty hq hn hk ho => exact .empty hq (Nat.le_trans hnm hn) hk ho
  | standIn hs hq hn hk ho ht hkn hslot =>
    exact .standIn hs hq (Nat.le_trans hnm hn) hk ho ht (Nat.le_trans hnm hkn) hslot
  | vacant hs => exact .vacant hs
  | pinned hs hq => exact .pinned hs hq
  | error hq hn hk ho => exact .error hq (Nat.le_trans hnm hn) hk ho

/-- What lies at a place or later lies at an earlier place or later. -/
lemma Mirrors.weaken (hm : Mirrors m h t r v) (hnm : n ≤ m) : Mirrors n h t r v := by
  induction hm with
  | leaf hn hr hd => exact .leaf hn hr (hd.weaken hnm)
  | array hq hn hk ho hlength hown hitems ih =>
    exact .array hq (Nat.le_trans hnm hn) hk ho hlength hown ih

/-- A value goes on to mirror a record as long as the handles of the record keep their objects. -/
lemma Mirrors.of_handles {t' : Handles Ref} (hm : Mirrors n h t r v)
    (ht : ∀ g ∈ r.handles, t'.get? g = t.get? g) : Mirrors n h t' r v := by
  induction hm with
  | leaf hn hr hd =>
    rw [Record.handles_of_view hr] at ht
    refine .leaf hn hr ?_
    cases hd with
    | null => exact .null
    | boolean b => exact .boolean b
    | integer i => exact .integer i
    | number x => exact .number x
    | string s => exact .string s
    | date hn hq => exact .date hn hq
    | empty hq hn hk ho => exact .empty hq hn hk ho
    | standIn hs hq hn hk ho ht hkn hslot => exact .standIn hs hq hn hk ho ht hkn hslot
    | vacant hs => exact .vacant hs
    | @pinned _ g q hs hq =>
      refine .pinned hs ((ht g ?_).trans hq)
      rcases hs with rfl | rfl <;> exact List.mem_singleton_self g
    | error hq hn hk ho => exact .error hq hn hk ho
  | @array items vs q o hq hn hk ho hlength hown hitems ih =>
    refine .array hq hn hk ho hlength hown fun i r v hr hv => ih i r v hr hv fun g hg => ht g ?_
    exact Record.mem_handlesOfItems.2 ⟨r, List.mem_of_getElem? hr, hg⟩

/-- The slots of a record are kept by tokens. -/
lemma Mirrors.exists_token (hm : Mirrors n h t r v) {s : Slot} (hs : s ∈ r.slots) :
    ∃ k token, h.get? k = some token ∧ token.slot? = some s := by
  induction hm with
  | @leaf r view v hn hr hd =>
    rw [Record.slots_of_view hr] at hs
    cases hd with
    | @standIn _ s' q k o token hv hq hnq hk ho ht hkn hslot =>
      have heq : s = s' := by rcases hv with rfl | rfl <;> exact List.mem_singleton.1 hs
      exact ⟨k, token, ht, heq ▸ hslot⟩
    | vacant hv => rcases hv with rfl | rfl <;> cases hs
    | pinned hv => rcases hv with rfl | rfl <;> cases hs
    | _ => cases hs
  | @array items vs q o hq hn hk ho hlength hown hitems ih =>
    obtain ⟨r, hr, hs⟩ := Record.mem_slotsOfItems.1 hs
    obtain ⟨i, hi⟩ := List.getElem?_of_mem hr
    have hlt : i < vs.length := hlength ▸ (List.getElem?_eq_some_iff.1 hi).1
    exact ih i r _ hi (List.getElem?_eq_getElem hlt) hs

/-! ### Making values -/

/-- An engine has made new objects and changed nothing that was there. -/
structure Extends (e e' : Engine) : Prop where
  get? : ∀ q o, e.heap.get? q = some o → e'.heap.get? q = some o
  next_le : e.heap.next ≤ e'.heap.next
  sound : e.heap.Sound → e'.heap.Sound
  eq : e' = { e with heap := e'.heap }

namespace Extends

lemma refl (e : Engine) : Extends e e := ⟨fun _ _ => id, Nat.le_refl _, id, rfl⟩

lemma handles (hx : Extends e e') : e'.handles = e.handles := by
  rw [hx.eq]

lemma trans {e'' : Engine} (h₁ : Extends e e') (h₂ : Extends e' e'') : Extends e e'' where
  get? q o hq := h₂.get? q o (h₁.get? q o hq)
  next_le := Nat.le_trans h₁.next_le h₂.next_le
  sound := h₂.sound ∘ h₁.sound
  eq := by
    rw [h₂.eq, h₁.eq]

lemma alloc (hs : e.heap.Sound) (o : Object) : Extends e (e.alloc o).2 where
  get? q p hq := by
    change (e.heap.alloc o).2.get? q = some p
    rw [Heap.get?_alloc, if_neg (Nat.ne_of_lt (hs.lt_of_get? hq))]
    exact hq
  next_le := Nat.le_succ _
  sound hs := hs.alloc o
  eq := rfl

end Extends

lemma Mirrors.extend (hm : Mirrors n e.heap e.handles r v) (hx : Extends e e') :
    Mirrors n e'.heap e'.handles r v := by
  rw [hx.handles]
  exact hm.mono fun q o _ => hx.get? q o

lemma get?_alloc_self (e : Engine) (o : Object) :
    (e.alloc o).2.heap.get? e.heap.next = some o :=
  (Heap.get?_alloc ..).trans (if_pos rfl)

lemma lookup_zipIdx (vs : List Value) (k : Nat) {i : Nat} (hi : vs[i]? = some v) :
    ((vs.zipIdx k).map fun (v, i) => (Key.index i, Property.data v)).lookup (.index (i + k)) =
      some (.data v) := by
  induction vs generalizing i k with
  | nil => cases hi
  | cons w vs ih =>
    rw [List.zipIdx_cons, List.map_cons, List.lookup_cons]
    cases i with
    | zero =>
      cases hi
      rw [Nat.zero_add, beq_self_eq_true]
    | succ i =>
      have hne : (Key.index (i + 1 + k) == Key.index k) = false := by
        simp only [beq_eq_false_iff_ne, ne_eq, Key.index.injEq]
        omega
      rw [hne, show i + 1 + k = i + (k + 1) by omega]
      exact ih (k + 1) hi

/-- The elements of a new array. -/
lemma own?_items {vs : List Value} {i : Nat} (hi : vs[i]? = some v) (parent : Option Ref) :
    (Object.ofKind (.array vs.length) parent
      (vs.zipIdx.map fun (v, i) => (.index i, .data v))).own? (.index i) = some (.data v) := by
  have hlookup := lookup_zipIdx vs 0 hi
  rw [Nat.add_zero] at hlookup
  rw [Object.own?, Object.ofKind]
  dsimp only
  rw [hlookup]

lemma depicts_convertLeaf (hs : e.heap.Sound) (hn : n ≤ e.heap.next) (view : View)
    (hitems : ∀ items, view = .array items → items = [])
    (hg : ∀ g ∈ view.handles, (e.handles.get? g).isSome) :
    ∃ w e', e.convertLeaf view = (.ok w, e') ∧ Depicts n e'.heap e'.handles view w ∧
      Extends e e' := by
  have hproxy : ∀ s, (view = .managedRef s ∨ view = .managedError s) →
      ∃ w e', success (e.allocProxy s) = (.ok w, e') ∧ Depicts n e'.heap e'.handles view w ∧
        Extends e e' := by
    intro s hv
    have htoken : Extends e (e.allocToken s).2 := .alloc hs _
    refine ⟨_, _, rfl, ?_, htoken.trans (.alloc (htoken.sound hs) _)⟩
    have hproxy : Extends (e.allocToken s).2 _ := .alloc (htoken.sound hs)
      { kind := .proxy s e.heap.next, parent := none, entry := some s }
    exact .standIn hv (get?_alloc_self (e.allocToken s).2 _)
      (Nat.le_trans hn htoken.next_le) rfl rfl
      (hproxy.get? _ _ (get?_alloc_self e _)) hn rfl
  have hpinned : ∀ g, (view = .foreignRef (some g) ∨ view = .foreignError (some g)) →
      ∃ w e', e.restore g = (.ok w, e') ∧ Depicts n e'.heap e'.handles view w ∧
        Extends e e' := by
    intro g hv
    have hsome := hg g (by rcases hv with rfl | rfl <;> exact List.mem_singleton_self g)
    obtain ⟨q, hq⟩ := Option.isSome_iff_exists.1 hsome
    exact ⟨_, e, by rw [restore, hq], .pinned hv hq, .refl e⟩
  cases view with
  | null => exact ⟨_, e, rfl, .null, .refl e⟩
  | boolean b => exact ⟨_, e, rfl, .boolean b, .refl e⟩
  | integer i => exact ⟨_, e, rfl, .integer i, .refl e⟩
  | number x => exact ⟨_, e, rfl, .number x, .refl e⟩
  | string s => exact ⟨_, e, rfl, .string s, .refl e⟩
  | date x => exact ⟨_, _, rfl, .date hn (get?_alloc_self ..), .alloc hs _⟩
  | array items =>
    obtain rfl := hitems items rfl
    exact ⟨_, _, rfl, .empty (get?_alloc_self ..) hn rfl rfl, .alloc hs _⟩
  | managedRef s => exact hproxy s (.inl rfl)
  | managedError s => exact hproxy s (.inr rfl)
  | foreignRef g =>
    cases g with
    | none => exact ⟨_, e, rfl, .vacant (.inl rfl), .refl e⟩
    | some g => exact hpinned g (.inl rfl)
  | foreignError g =>
    cases g with
    | none => exact ⟨_, e, rfl, .vacant (.inr rfl), .refl e⟩
    | some g => exact hpinned g (.inr rfl)
  | unknownError m => exact ⟨_, _, rfl, .error (get?_alloc_self ..) hn rfl rfl, .alloc hs _⟩

lemma mirrors_convertShallow (hs : e.heap.Sound) (hn : n ≤ e.heap.next)
    (hr : ∀ items, r ≠ .array items) (hread : r.IsReadable)
    (hg : ∀ g ∈ r.handles, (e.handles.get? g).isSome) :
    ∃ w e', e.convertShallow r = (.ok w, e') ∧ Mirrors n e'.heap e'.handles r w ∧
      Extends e e' := by
  obtain ⟨view, hview⟩ := hread.exists_view
  have hitems : ∀ items, view = .array items → items = [] := by
    rintro items rfl
    cases r with
    | plain => exact Record.view_plain_ne_array hview
    | text => rcases Record.view_text_isString hview with ⟨s, h⟩ | ⟨s, h⟩ <;> cases h
    | array items => exact absurd rfl (hr items)
  rw [Record.handles_of_view hview] at hg
  obtain ⟨w, e', hmade, hdepicts, hx⟩ := depicts_convertLeaf hs hn view hitems hg
  exact ⟨w, e', by rw [convertShallow, hview]; exact hmade, .leaf hr hview hdepicts, hx⟩

mutual
/-- **A record that can be read and names no handle that is not in use becomes a value that
mirrors it.**  Nothing that was there before changes. -/
theorem mirrors_convert (e : Engine) (hs : e.heap.Sound) (hn : n ≤ e.heap.next) :
    ∀ r : Record, r.IsReadable → (∀ g ∈ r.handles, (e.handles.get? g).isSome) →
      ∃ w e', e.convert r = (.ok w, e') ∧ Mirrors n e'.heap e'.handles r w ∧ Extends e e'
  | .plain tag bits length, hr, hg => by
    rw [convert]
    exact mirrors_convertShallow hs hn (by simp) hr hg
  | .text kind bytes, hr, hg => by
    rw [convert]
    exact mirrors_convertShallow hs hn (by simp) hr hg
  | .array items, hr, hg => by
    obtain ⟨ws, e', hmade, hlength, hitems, hx⟩ := mirrors_convertItems e hs hn items hr hg
    have hnew : Extends e' (e'.allocArray ws).2 := .alloc (hx.sound hs) _
    refine ⟨_, _, by rw [convert, hmade]; rfl, ?_, hx.trans hnew⟩
    refine .array (get?_alloc_self ..) (Nat.le_trans hn hx.next_le) ?_ rfl hlength
      (fun i v hi => own?_items hi _) fun i r v hr hi => (hitems i r v hr hi).extend hnew
    rw [← hlength]
    rfl

/-- Records that can be read become values that mirror them. -/
theorem mirrors_convertItems (e : Engine) (hs : e.heap.Sound) (hn : n ≤ e.heap.next) :
    ∀ rs : List Record, Record.AreReadable rs →
      (∀ g ∈ Record.handlesOfItems rs, (e.handles.get? g).isSome) →
      ∃ ws e', e.convertItems rs = (.ok ws, e') ∧ ws.length = rs.length ∧
        (∀ (i : Nat) r w, rs[i]? = some r → ws[i]? = some w →
          Mirrors n e'.heap e'.handles r w) ∧ Extends e e'
  | [], hr, hg => ⟨[], e, by rw [convertItems], rfl, by simp, .refl e⟩
  | r :: rs, hr, hg => by
    rw [Record.handlesOfItems] at hg
    obtain ⟨w, e', hmade, hm, hx⟩ := mirrors_convert e hs hn r hr.1 fun g hm =>
      hg g (List.mem_append_left _ hm)
    obtain ⟨ws, e'', hothers, hlength, hitems, hx'⟩ := mirrors_convertItems e' (hx.sound hs)
      (Nat.le_trans hn hx.next_le) rs hr.2 fun g hm => by
        rw [hx.handles]
        exact hg g (List.mem_append_right _ hm)
    refine ⟨w :: ws, e'', by rw [convertItems, hmade]; dsimp only; rw [hothers], ?_, ?_,
      hx.trans hx'⟩
    · rw [List.length_cons, List.length_cons, hlength]
    · intro i r' w' hr' hw'
      cases i with
      | zero =>
        cases hr'
        cases hw'
        exact hm.extend hx'
      | succ i => exact hitems i r' w' hr' hw'
end

end Engine

end ScriptBridge
