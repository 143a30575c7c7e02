/-
# How the heap grows

Between two collections the heap only grows: an object that is there stays what it is,
though its properties, its parent and the length of an array may change, and objects that
are new stand for nothing of the host.  Where tokens are hidden from script, nothing but
its stand-in refers to a token, and no such step changes that.
-/
import ScriptBridge.Engine.State
import ScriptBridge.Proofs.Script.Heap

namespace ScriptBridge.Script

open ScriptBridge.Engine ScriptBridge.Wire

/-! ### Values without places -/

namespace Value

@[simp] lemma refs_text (s : String) : (text s).refs = [] := rfl

@[simp] lemma refs_ofCount (n : Nat) : (ofCount n).refs = [] := by
  unfold ofCount
  split <;> rfl

@[simp] lemma refs_ofWhole (x : Number.Binary64) : (ofWhole x).refs = [] := by
  unfold ofWhole
  split <;> (try split) <;> rfl

@[simp] lemma refs_ofLiteral (x : Number.Binary64) : (ofLiteral x).refs = [] := by
  unfold ofLiteral
  split <;> (try split) <;> rfl

@[simp] lemma refs_ofSum (n : Int) : (ofSum n).refs = [] := by
  unfold ofSum
  split <;> rfl

lemma refs_toNumeric {v w : Value} (h : v.toNumeric = .ok w) : w.refs = [] := by
  cases v <;> simp only [toNumeric] at h <;> cases h <;> first | rfl | exact refs_ofWhole _

lemma refs_nearest {v : Value} (h : v.refs = []) : v.nearest.refs = [] := by
  cases v <;> first | rfl | exact h

lemma refs_toNumber {v w : Value} (h : v.toNumber = .ok w) : w.refs = [] := by
  unfold toNumber at h
  cases hn : v.toNumeric with
  | error m => rw [hn] at h; cases h
  | ok n =>
    have hr := refs_toNumeric hn
    rw [hn] at h
    cases n <;> cases h <;> exact hr

lemma refs_addNumeric {a b c : Value} (h : addNumeric a b = .ok c) : c.refs = [] := by
  unfold addNumeric at h
  split at h <;> cases h <;> rfl

lemma refs_addNumbers {a b c : Value} (h : addNumbers a b = .ok c) : c.refs = [] := by
  unfold addNumbers at h
  split at h
  · cases h
    exact refs_ofSum _
  · cases ha : a.toNumeric with
    | error m => rw [ha] at h; cases h
    | ok a' =>
      cases hb : b.toNumeric with
      | error m => rw [ha, hb] at h; cases h
      | ok b' =>
        rw [ha, hb] at h
        exact refs_addNumeric h

lemma refs_add {a b c : Value} (h : a.add b = .ok c) : c.refs = [] := by
  unfold add at h
  split at h
  · cases hb : b.toText with
    | error m => rw [hb] at h; cases h
    | ok t => rw [hb] at h; cases h; rfl
  · cases ha : a.toText with
    | error m => rw [ha] at h; cases h
    | ok t => rw [ha] at h; cases h; rfl
  · exact refs_addNumbers h

end Value

/-! ### What an object is -/

/-- A kind without the length of an array, which may change. -/
def ObjectKind.shape : ObjectKind → ObjectKind
  | .array _ => .array 0
  | kind => kind

/-- What an object stays as long as it is there. -/
def Object.sort (o : Object) : ObjectKind × Option Slot := (o.kind.shape, o.entry)

/-- Whether a kind has nothing to do with a host entry. -/
def ObjectKind.isPlain : ObjectKind → Bool
  | .proxy .. | .builtin (.token _) | .builtin (.readEntry _) | .builtin (.writeEntry _)
  | .builtin (.callEntry _) => false
  | _ => true

/-- An object that has nothing to do with a host entry. -/
def Object.IsPlain (o : Object) : Prop := o.kind.isPlain = true ∧ o.entry = none

/-- An object that keeps no slot and stands for no host entry. -/
structure Object.IsInert (o : Object) : Prop where
  slot : o.slot? = none
  entry : o.entry = none
  kind : ∀ s t, o.kind ≠ .proxy s t

/-- The places that a kind refers to, but for the token of a stand-in. -/
def ObjectKind.links : ObjectKind → List Ref
  | .proxy .. => []
  | kind => kind.refs

/-- The places that an object refers to, but for the token of a stand-in. -/
def Object.links (o : Object) : List Ref :=
  o.parent.toList ++ o.kind.links ++ o.properties.flatMap fun p => p.2.refs

lemma ObjectKind.shape_eq_proxy {kind : ObjectKind} {s : Slot} {t : Ref} :
    kind.shape = .proxy s t ↔ kind = .proxy s t := by
  cases kind <;> simp [shape]

lemma ObjectKind.isPlain_shape (kind : ObjectKind) : kind.shape.isPlain = kind.isPlain := by
  cases kind <;> rfl

namespace Object

variable {o o' : Object}

lemma slot?_eq_some {s : Slot} : o.slot? = some s ↔ o.kind = .builtin (.token s) := by
  unfold slot?
  split
  · next heq => simp [heq]
  · next hne => exact ⟨nofun, fun h => absurd h (hne s)⟩

lemma slot?_congr (h : o'.sort = o.sort) : o'.slot? = o.slot? := by
  have hkind : o'.kind.shape = o.kind.shape := congrArg Prod.fst h
  unfold slot?
  revert hkind
  cases o.kind <;> cases o'.kind <;> simp [ObjectKind.shape]
  rintro rfl
  rfl

lemma kind_proxy_congr {s : Slot} {t : Ref} (h : o'.sort = o.sort) :
    o'.kind = .proxy s t ↔ o.kind = .proxy s t := by
  have hkind : o'.kind.shape = o.kind.shape := congrArg Prod.fst h
  rw [← ObjectKind.shape_eq_proxy, hkind, ObjectKind.shape_eq_proxy]

lemma isPlain_congr (h : o'.sort = o.sort) (hp : o.IsPlain) : o'.IsPlain := by
  have hkind : o'.kind.shape = o.kind.shape := congrArg Prod.fst h
  have hentry : o'.entry = o.entry := congrArg Prod.snd h
  refine ⟨?_, hentry.trans hp.2⟩
  rw [← ObjectKind.isPlain_shape, hkind, ObjectKind.isPlain_shape]
  exact hp.1

lemma isInert_congr (h : o'.sort = o.sort) (hi : o.IsInert) : o'.IsInert where
  slot := (slot?_congr h).trans hi.slot
  entry := (congrArg Prod.snd h).trans hi.entry
  kind := fun s t hk => hi.kind s t ((kind_proxy_congr h).1 hk)

lemma IsPlain.isInert (h : o.IsPlain) : o.IsInert where
  slot := by
    cases hs : o.slot? with
    | none => rfl
    | some s =>
      have hplain := h.1
      rw [slot?_eq_some.1 hs] at hplain
      cases hplain
  entry := h.2
  kind := fun s t hk => by
    have hplain := h.1
    rw [hk] at hplain
    cases hplain

lemma isPlain_ofKind {kind : ObjectKind} (h : kind.isPlain = true) (parent : Option Ref)
    (properties : List (Key × Property)) : (ofKind kind parent properties).IsPlain := ⟨h, rfl⟩

@[simp] lemma sort_define (o : Object) (key : Key) (p : Property) :
    (o.define key p).sort = o.sort := by
  simp only [sort, define]
  split
  · next heq => simp [heq, ObjectKind.shape]
  · rfl

@[simp] lemma sort_resize (o : Object) (n : Nat) : (o.resize n).sort = o.sort := by
  unfold resize
  split
  · next heq => simp [sort, heq, ObjectKind.shape]
  · rfl

lemma mem_links {l : Ref} :
    l ∈ o.links ↔ o.parent = some l ∨ l ∈ o.kind.links ∨ ∃ p ∈ o.properties, l ∈ p.2.refs := by
  simp [links]

lemma mem_refs {l : Ref} :
    l ∈ o.refs ↔ o.parent = some l ∨ l ∈ o.kind.refs ∨ ∃ p ∈ o.properties, l ∈ p.2.refs := by
  simp [refs]

lemma links_define {key : Key} {p : Property} {l : Ref} (h : l ∈ (o.define key p).links) :
    l ∈ o.links ∨ l ∈ p.refs := by
  have hkind : (o.define key p).kind.links = o.kind.links := by
    simp only [define]
    split
    · next heq => rw [heq]; rfl
    · rfl
  rw [mem_links, hkind] at h
  rw [mem_links]
  rcases h with h | h | ⟨q, hq, hl⟩
  · exact .inl (.inl h)
  · exact .inl (.inr (.inl h))
  · simp only [define] at hq
    split at hq
    · obtain ⟨⟨k, q'⟩, hq', he⟩ := List.mem_map.1 hq
      dsimp only at he
      split at he <;> subst he
      · exact .inr hl
      · exact .inl (.inr (.inr ⟨_, hq', hl⟩))
    · rcases List.mem_append.1 hq with hq | hq
      · exact .inl (.inr (.inr ⟨q, hq, hl⟩))
      · rw [List.mem_singleton] at hq
        subst hq
        exact .inr hl

lemma links_resize {n : Nat} {l : Ref} (h : l ∈ (o.resize n).links) : l ∈ o.links := by
  unfold resize at h
  split at h
  · next heq =>
    rw [mem_links] at h ⊢
    rcases h with h | h | ⟨p, hp, hl⟩
    · exact .inl h
    · exact absurd h List.not_mem_nil
    · exact .inr (.inr ⟨p, (List.mem_filter.1 hp).1, hl⟩)
  · exact h

/-- What is not stored refers to nothing. -/
lemma refs_implied? {kind : ObjectKind} {key : Key} {p : Property}
    (h : kind.implied? key = some p) : p.refs = [] := by
  unfold ObjectKind.implied? at h
  split at h
  · cases h
    exact Value.refs_ofCount _
  · cases h
    rfl
  · cases h
    rfl
  · cases h
    rfl
  · cases h
    exact Value.refs_ofCount _
  · rw [Option.map_eq_some_iff] at h
    obtain ⟨u, -, rfl⟩ := h
    rfl
  · cases h

lemma refs_own? {key : Key} {p : Property} {l : Ref} (h : o.own? key = some p)
    (hl : l ∈ p.refs) : l ∈ o.links := by
  unfold own? at h
  split at h
  · next q hq =>
    cases h
    have hm : (key, p) ∈ o.properties := by
      obtain ⟨l₁, l₂, heq, -⟩ := List.lookup_eq_some_iff.1 hq
      rw [heq]
      simp
    exact mem_links.2 (.inr (.inr ⟨_, hm, hl⟩))
  · rw [refs_implied? h] at hl
    cases hl

end Object

namespace Heap

variable {h h' h'' : Heap} {r : Ref} {o : Object}

/-! ### Growing -/

/-- What is on one heap stays what it is on another one, as long as it is there. -/
structure Keeps (h h' : Heap) : Prop where
  next_le : h.next ≤ h'.next
  kept : ∀ r < h.next, (h'.get? r).map Object.sort = (h.get? r).map Object.sort

namespace Keeps

@[refl] lemma refl (h : Heap) : Keeps h h := ⟨Nat.le_refl _, fun _ _ => rfl⟩

lemma trans (h₁ : Keeps h h') (h₂ : Keeps h' h'') : Keeps h h'' where
  next_le := Nat.le_trans h₁.next_le h₂.next_le
  kept := fun r hr => (h₂.kept r (Nat.lt_of_lt_of_le hr h₁.next_le)).trans (h₁.kept r hr)

lemma alloc (h : Heap) (o : Object) : Keeps h (h.alloc o).2 where
  next_le := Nat.le_succ _
  kept := fun r hr => by rw [get?_alloc, if_neg (Nat.ne_of_lt hr)]

/-- What is there later was there before, if its place was taken. -/
lemma get?_of_lt (hk : Keeps h h') (hlt : r < h.next) (hr : h'.get? r = some o) :
    ∃ p, h.get? r = some p ∧ p.sort = o.sort := by
  have hsort := hk.kept r hlt
  rw [hr, Option.map_some, eq_comm, Option.map_eq_some_iff] at hsort
  exact hsort

/-- What is there stays what it is. -/
lemma get?_sort (hk : Keeps h h') (hs : h.Sound) (hr : h.get? r = some o) :
    ∃ p, h'.get? r = some p ∧ p.sort = o.sort := by
  have hsort := hk.kept r (hs.lt_of_get? hr)
  rwa [hr, Option.map_some, Option.map_eq_some_iff] at hsort

end Keeps

/-- One heap comes from another one without a collection: what is there stays, and what is
new keeps no slot and stands for no host entry. -/
structure Grows (h h' : Heap) : Prop extends Keeps h h' where
  sound : h.Sound → h'.Sound
  slots : slotsOf h'.objects = slotsOf h.objects
  fresh : ∀ r o, h.next ≤ r → h.Sound → h'.get? r = some o → o.IsInert

lemma slotsOf_update (h : Heap) (r : Ref) {f : Object → Object}
    (hf : ∀ o, (f o).slot? = o.slot?) :
    slotsOf (h.update r f).objects = slotsOf h.objects := by
  simp only [slotsOf, Heap.update, List.filterMap_map]
  refine List.filterMap_congr fun p _ => ?_
  simp only [Function.comp_apply]
  split
  · exact hf _
  · rfl

namespace Grows

@[refl] lemma refl (h : Heap) : Grows h h where
  toKeeps := .refl h
  sound := id
  slots := rfl
  fresh := fun r o hr hs hg => by
    rw [hs.get?_eq_none hr] at hg
    cases hg

lemma trans (h₁ : Grows h h') (h₂ : Grows h' h'') : Grows h h'' where
  toKeeps := h₁.toKeeps.trans h₂.toKeeps
  sound := h₂.sound ∘ h₁.sound
  slots := h₂.slots.trans h₁.slots
  fresh := fun r o hr hs hg => by
    by_cases hr' : r < h'.next
    · obtain ⟨o', hg', hsort⟩ := h₂.get?_of_lt hr' hg
      exact Object.isInert_congr hsort.symm (h₁.fresh r o' hr hs hg')
    · exact h₂.fresh r o (Nat.not_lt.1 hr') (h₁.sound hs) hg

lemma alloc (h : Heap) (ho : o.IsInert) : Grows h (h.alloc o).2 where
  toKeeps := .alloc h o
  sound := fun hs => hs.alloc o
  slots := by
    simp only [slotsOf, Heap.alloc, List.filterMap_cons, ho.slot]
  fresh := fun r p hr hs hg => by
    rw [get?_alloc] at hg
    split at hg
    · cases hg
      exact ho
    · rw [hs.get?_eq_none hr] at hg
      cases hg

lemma update (h : Heap) (r : Ref) {f : Object → Object} (hf : ∀ o, (f o).sort = o.sort) :
    Grows h (h.update r f) where
  next_le := Nat.le_refl _
  sound := fun hs => hs.update r f
  slots := slotsOf_update h r fun o => Object.slot?_congr (hf o)
  kept := fun s _ => by
    rw [get?_update]
    split
    · rw [Option.map_map]
      exact congrArg (Option.map · _) (funext hf)
    · rfl
  fresh := fun s o hs hsound hg => by
    rw [(hsound.update r f).get?_eq_none hs] at hg
    cases hg

lemma symbol (h : Heap) : Grows h { h with next := h.next + 1 } where
  next_le := Nat.le_succ _
  sound := fun hs => ⟨hs.nodup, fun r hr => Nat.lt_succ_of_lt (hs.lt_next r hr)⟩
  slots := rfl
  kept := fun _ _ => rfl
  fresh := fun r o hr hs hg => by
    exact absurd (hs.lt_of_get? (h := h) hg) (Nat.not_lt.2 hr)

end Grows

/-! ### Hidden tokens -/

variable {P : Prop}

/-- Script may refer to a place: it is taken, and where tokens are hidden not by one. -/
def Shows (P : Prop) (h : Heap) (r : Ref) : Prop :=
  P → r < h.next ∧ (h.get? r).bind Object.slot? = none

/-- What objects refer to is shown, but for the tokens of stand-ins. -/
def Linked (P : Prop) (h : Heap) : Prop :=
  ∀ r o, h.get? r = some o → ∀ l ∈ o.links, h.Shows P l

lemma Shows.keeps (hr : h.Shows P r) (hk : Keeps h h') : h'.Shows P r := fun hP => by
  obtain ⟨hlt, hslot⟩ := hr hP
  refine ⟨Nat.lt_of_lt_of_le hlt hk.next_le, ?_⟩
  cases hg' : h'.get? r with
  | none => rfl
  | some o' =>
    obtain ⟨o, ho, hsort⟩ := hk.get?_of_lt hlt hg'
    rw [ho] at hslot
    exact (Object.slot?_congr hsort.symm).trans hslot

lemma Shows.grows (hr : h.Shows P r) (hg : Grows h h') : h'.Shows P r := hr.keeps hg.toKeeps

lemma shows_alloc (h : Heap) (ho : o.slot? = none) : (h.alloc o).2.Shows P h.next := fun _ =>
  ⟨Nat.lt_succ_self _, by rw [get?_alloc, if_pos rfl]; exact ho⟩

lemma Linked.alloc (hl : h.Linked P) (hlinks : ∀ l ∈ o.links, (h.alloc o).2.Shows P l) :
    (h.alloc o).2.Linked P := by
  intro r p hg l hp
  rw [get?_alloc] at hg
  split at hg
  · cases hg
    exact hlinks l hp
  · exact (hl r p hg l hp).keeps (.alloc h o)

lemma Linked.update (hl : h.Linked P) {f : Object → Object} (hf : ∀ o, (f o).sort = o.sort)
    (hlinks : ∀ o, h.get? r = some o → ∀ l ∈ (f o).links, h.Shows P l) :
    (h.update r f).Linked P := by
  intro s p hg l hp
  rw [get?_update] at hg
  split at hg
  · next heq =>
    subst heq
    rw [Option.map_eq_some_iff] at hg
    obtain ⟨o, ho, rfl⟩ := hg
    exact (hlinks o ho l hp).grows (.update h s hf)
  · exact (hl s p hg l hp).grows (.update h r hf)

lemma Linked.symbol (hl : h.Linked P) : Linked P { h with next := h.next + 1 } :=
  fun r o hg l hp => (hl r o hg l hp).grows (.symbol h)

/-! ### Searching -/

end Heap

/-- The places that what a search came to refers to. -/
def Found.refs : Found → List Ref
  | .property holder p => holder :: p.refs
  | .standIn r _ => [r]
  | .nothing => []

namespace Heap

variable {h : Heap} {P : Prop} {r : Ref} {key : Key}

/-- A search that comes to a stand-in has found one. -/
def FoundIn (P : Prop) (h : Heap) (f : Found) : Prop :=
  (∀ l ∈ f.refs, h.Shows P l) ∧
    ∀ r s, f = .standIn r s → ∃ o t, h.get? r = some o ∧ o.kind = .proxy s t

lemma foundIn_nothing : FoundIn P h .nothing := ⟨by simp [Found.refs], by simp⟩

lemma foundIn_standIn {o : Object} {s : Slot} {t : Ref} (hr : h.Shows P r)
    (hg : h.get? r = some o) (hk : o.kind = .proxy s t) : FoundIn P h (.standIn r s) := by
  refine ⟨by simpa [Found.refs] using hr, fun r' s' he => ?_⟩
  cases he
  exact ⟨o, t, hg, hk⟩

lemma foundIn_property {p : Property} (hr : h.Shows P r) (hp : ∀ l ∈ p.refs, h.Shows P l) :
    FoundIn P h (.property r p) := by
  refine ⟨fun l hl => ?_, fun r' s' he => by cases he⟩
  rcases List.mem_cons.1 hl with rfl | hl
  · exact hr
  · exact hp l hl

lemma Linked.own? {o : Object} {p : Property} (hl : h.Linked P) (hg : h.get? r = some o)
    (hp : o.own? key = some p) : ∀ l ∈ p.refs, h.Shows P l :=
  fun l hm => hl r o hg l (Object.refs_own? hp hm)

lemma Linked.parent {o : Object} {q : Ref} (hl : h.Linked P) (hg : h.get? r = some o)
    (hq : o.parent = some q) : h.Shows P q :=
  hl r o hg q (Object.mem_links.2 (.inl hq))

lemma Linked.search (hl : h.Linked P) (fuel : Nat) (hr : h.Shows P r) :
    FoundIn P h (h.search key fuel r) := by
  induction fuel generalizing r with
  | zero => exact foundIn_nothing
  | succ fuel ih =>
    unfold Heap.search
    split
    · exact foundIn_nothing
    · next o ho =>
      split
      · next hk => exact foundIn_standIn hr ho hk
      · next hp _ => exact foundIn_property hr (hl.own? ho hp)
      · next hparent _ => exact ih (hl.parent ho hparent)
      · exact foundIn_nothing

lemma Linked.find (hl : h.Linked P) (hr : h.Shows P r) : FoundIn P h (h.find r key) :=
  hl.search _ hr

lemma Linked.searchTaker (hl : h.Linked P) (fuel : Nat) {parent : Option Ref}
    (hr : ∀ r, parent = some r → h.Shows P r) : FoundIn P h (h.searchTaker key fuel parent) := by
  induction fuel generalizing parent with
  | zero => exact foundIn_nothing
  | succ fuel ih =>
    cases parent with
    | none => exact foundIn_nothing
    | some r =>
      unfold Heap.searchTaker
      split
      · exact foundIn_nothing
      · next o ho =>
        split
        · next hk => exact foundIn_standIn (hr r rfl) ho hk
        · exact foundIn_nothing
        · next hp => exact foundIn_property (hr r rfl) (hl.own? ho hp)
        · next hp => exact foundIn_property (hr r rfl) (hl.own? ho hp)
        · exact ih fun q hq => hl.parent ho hq

lemma Linked.findTaker (hl : h.Linked P) {parent : Option Ref}
    (hr : ∀ r, parent = some r → h.Shows P r) : FoundIn P h (h.findTaker parent key) :=
  hl.searchTaker _ hr

end Heap

end ScriptBridge.Script
