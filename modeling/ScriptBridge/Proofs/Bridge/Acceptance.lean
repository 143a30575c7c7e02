/-
# Which records stand for values

A record stands for a value when each of its leaves does: the value is then made up of what
the leaves stand for, in the same places.  Otherwise the record fails with the error of the
first leaf, from left to right, that stands for none.
-/
import ScriptBridge.Proofs.Bridge.Leases

namespace ScriptBridge

open ScriptBridge.Bridge ScriptBridge.Host ScriptBridge.Table ScriptBridge.Wire

/-! ### Views of errors -/

/-- Whether a view is that of an error. -/
def Wire.View.isError : View → Bool
  | .managedError _ | .foreignError _ | .unknownError _ => true
  | _ => false

namespace Wire.Record

lemma eq_of_readNull {α : Type} {kind : Kind} {length : Int32} {empty v : α}
    (h : readNull kind length empty = .ok v) : v = empty := by
  unfold readNull at h
  split at h
  · cases h
  · split at h <;> cases h
    rfl

lemma isError_of_viewPlain {kind : Kind} {bits : UInt64} {length : Int32} {v : View}
    (h : viewPlain kind bits length = .ok v) : kind.isError = v.isError := by
  have hmap : ∀ {α : Type} {f : α → View} {x : Except ProtocolError α},
      f <$> x = .ok v → ∃ y, v = f y := by
    intro α f x hx
    cases x with
    | error e => cases hx
    | ok y => exact ⟨y, (Except.ok.inj hx).symm⟩
  cases kind with
  | string | array | unknownError =>
    rw [eq_of_readNull h]
    rfl
  | managedRef | foreignRef | managedError | foreignError =>
    obtain ⟨y, rfl⟩ := hmap h
    rfl
  | _ =>
    cases h
    rfl

/-- What reads as an error has the type code of one, and nothing else that can be read has. -/
lemma isError_of_view {r : Record} {v : View} (h : r.view = .ok v) : r.isError = v.isError := by
  cases r with
  | array items =>
    cases h
    rfl
  | text kind bytes =>
    simp only [view, viewText] at h
    split at h
    · cases h
    · cases kind <;> cases h <;> rfl
  | plain code bits length =>
    simp only [view] at h
    rw [isError, tag]
    split at h
    · exact isError_of_viewPlain h
    · cases h

end Wire.Record

namespace Bridge

variable {bridge next : Nat} {a : Arena Entry} {r leaf : Record} {v : HostValue} {f : Fault}

/-- A leaf that stands for no value. -/
inductive Barred (a : Arena Entry) (leaf : Record) : Prop
  /-- It has the type code of an error. -/
  | failed (h : leaf.isError = true)
  /-- It cannot be read. -/
  | unreadable {e : ProtocolError} (h : leaf.view = .error e)
  /-- It is an empty handle. -/
  | empty (h : leaf.view = .ok (.foreignRef none))
  /-- It names a slot that is vacant. -/
  | vacant {slot : Slot} (h : leaf.view = .ok (.managedRef slot)) (ha : a.get? slot = none)
  /-- It names a slot that holds a method. -/
  | method {slot : Slot} {o : HostObject} {name : String} (h : leaf.view = .ok (.managedRef slot))
    (ha : a.get? slot = some (.method o name))
  /-- It names a slot that holds a failure. -/
  | error {slot : Slot} {e : HostError} (h : leaf.view = .ok (.managedRef slot))
    (ha : a.get? slot = some (.error e))
  /-- It is a date that is a number, but none that the calendar of the host has. -/
  | date {millis : Number.Binary64} (h : leaf.view = .ok (.date millis))
    (hn : millis.isNaN = false) (ht : Date.toInstant? millis = none)

/-- What is wrong with a leaf that stands for no value. -/
inductive Flaw (a : Arena Entry) (leaf : Record) : Fault → Prop
  /-- It cannot be read. -/
  | unreadable {e : ProtocolError} (h : leaf.view = .error e) : Flaw a leaf (.known (.protocol e))
  /-- It is an empty handle, of an error or not. -/
  | empty (h : leaf.view = .ok (.foreignRef none) ∨ leaf.view = .ok (.foreignError none)) :
    Flaw a leaf (.known (.interop .emptyHandle))
  /-- It names a slot that is vacant. -/
  | vacant {slot : Slot}
    (h : leaf.view = .ok (.managedRef slot) ∨ leaf.view = .ok (.managedError slot))
    (ha : a.get? slot = none) : Flaw a leaf (.known (.ofHost (.invalidSlot slot)))
  /-- It names a slot that holds a failure. -/
  | error {slot : Slot} {e : HostError}
    (h : leaf.view = .ok (.managedRef slot) ∨ leaf.view = .ok (.managedError slot))
    (ha : a.get? slot = some (.error e)) : Flaw a leaf (.known (.ofHost e))
  /-- It names a slot that holds a method. -/
  | method {slot : Slot} {o : HostObject} {name : String} (h : leaf.view = .ok (.managedRef slot))
    (ha : a.get? slot = some (.method o name)) :
    Flaw a leaf (.known (.interop (.unrepresentable "a host method reference")))
  /-- Script threw what is no failure. -/
  | thrownEntry {slot : Slot} {entry : Entry} (h : leaf.view = .ok (.managedError slot))
    (ha : a.get? slot = some entry) (he : ∀ e, entry ≠ .error e) :
    Flaw a leaf (scriptFault ("script threw a host " ++ entry.typeName))
  /-- It is a date that is a number, but none that the calendar of the host has. -/
  | date {millis : Number.Binary64} (h : leaf.view = .ok (.date millis))
    (hn : millis.isNaN = false) (ht : Date.toInstant? millis = none) :
    Flaw a leaf (.known (.interop (.unrepresentable "a date outside the host calendar")))
  /-- Script threw an object of its own. -/
  | thrown {h : Handle} (hv : leaf.view = .ok (.foreignError (some h))) : Flaw a leaf (.thrown h)
  /-- Script threw something that is known by its text at most. -/
  | unknown {m : Option String} (h : leaf.view = .ok (.unknownError m)) :
    Flaw a leaf (scriptFault (m.getD "script raised an unknown error"))

/-- What a leaf says and the value that it stands for. -/
inductive Denotes (bridge : Nat) (a : Arena Entry) : View → HostValue → Prop
  | null : Denotes bridge a .null .null
  | bool (b : Bool) : Denotes bridge a (.boolean b) (.bool b)
  | int (n : Int32) : Denotes bridge a (.integer n) (.int n)
  | number (x : Number.Binary64) : Denotes bridge a (.number x) (.number x)
  | string (s : String) : Denotes bridge a (.string s) (.string s)
  /-- An instant of the host's calendar. -/
  | date {millis : Number.Binary64} {t : Calendar.Instant} (hn : millis.isNaN = false)
    (ht : Date.toInstant? millis = some t) : Denotes bridge a (.date millis) (.date t)
  /-- A date that is not a number has no instant. -/
  | invalidDate {millis : Number.Binary64} (hn : millis.isNaN = true) :
    Denotes bridge a (.date millis) .null
  /-- An array that owns no buffer. -/
  | empty : Denotes bridge a (.array []) (.array [])
  /-- The very object that the slot keeps alive. -/
  | object {slot : Slot} {o : HostObject} (ha : a.get? slot = some (.object o)) :
    Denotes bridge a (.managedRef slot) (.object o)
  /-- A script object of the bridge. -/
  | foreign (lease : Nat) (h : Handle) :
    Denotes bridge a (.foreignRef (some h)) (.foreign ⟨lease, h, bridge⟩)

/-- A value is the image of a record, leaf by leaf. -/
inductive Portrays (bridge : Nat) (a : Arena Entry) : Record → HostValue → Prop
  | leaf {r : Record} {view : View} {v : HostValue} (hr : ∀ items, r ≠ .array items)
    (h : r.view = .ok view) (hv : Denotes bridge a view v) : Portrays bridge a r v
  | array {items : List Record} {vs : List HostValue}
    (h : List.Forall₂ (Portrays bridge a) items vs) :
    Portrays bridge a (.array items) (.array vs)

/-! ### The first leaf that stands for no value -/

/-- The first of some leaves that stands for no value has a flaw. -/
inductive FirstFlaw (a : Arena Entry) : List Record → Fault → Prop
  /-- It is the first of all. -/
  | here {leaf : Record} {rest : List Record} {f : Fault} (hb : Barred a leaf)
    (h : Flaw a leaf f) : FirstFlaw a (leaf :: rest) f
  /-- It comes after a leaf that stands for a value. -/
  | later {leaf : Record} {rest : List Record} {f : Fault} (hb : ¬ Barred a leaf)
    (h : FirstFlaw a rest f) : FirstFlaw a (leaf :: rest) f

lemma Flaw.barred (h : Flaw a leaf f) : Barred a leaf := by
  cases h with
  | unreadable h => exact .unreadable h
  | empty h =>
    rcases h with h | h
    · exact .empty h
    · exact .failed (Record.isError_of_view h)
  | vacant h ha =>
    rcases h with h | h
    · exact .vacant h ha
    · exact .failed (Record.isError_of_view h)
  | error h ha =>
    rcases h with h | h
    · exact .error h ha
    · exact .failed (Record.isError_of_view h)
  | method h ha => exact .method h ha
  | thrownEntry h ha he => exact .failed (Record.isError_of_view h)
  | date h hn ht => exact .date h hn ht
  | thrown h => exact .failed (Record.isError_of_view h)
  | unknown h => exact .failed (Record.isError_of_view h)

/-- What stands for a value is not barred. -/
lemma Denotes.not_barred {view : View} (h : Denotes bridge a view v) (hr : r.view = .ok view) :
    ¬ Barred a r := by
  intro hb
  have hview : ∀ {w}, r.view = .ok w → w = view := fun hw => Except.ok.inj (hw.symm.trans hr)
  cases hb with
  | failed hf =>
    rw [Record.isError_of_view hr] at hf
    cases h <;> cases hf
  | unreadable hf => rw [hr] at hf; cases hf
  | empty hf => obtain rfl := hview hf; cases h
  | vacant hf ha =>
    obtain rfl := hview hf
    cases h with
    | object ha' => rw [ha] at ha'; cases ha'
  | method hf ha =>
    obtain rfl := hview hf
    cases h with
    | object ha' => rw [ha] at ha'; cases ha'
  | error hf ha =>
    obtain rfl := hview hf
    cases h with
    | object ha' => rw [ha] at ha'; cases ha'
  | date hf hn ht =>
    obtain rfl := hview hf
    cases h with
    | date hn' ht' => rw [ht] at ht'; cases ht'
    | invalidDate hn' => rw [hn] at hn'; cases hn'

/-- A leaf has one flaw at most. -/
lemma Flaw.unique {g : Fault} (h : Flaw a leaf f) (h' : Flaw a leaf g) : f = g := by
  cases h <;> cases h' <;> grind

lemma FirstFlaw.append_right {l l' : List Record} (hl : ∀ leaf ∈ l, ¬ Barred a leaf)
    (h : FirstFlaw a l' f) : FirstFlaw a (l ++ l') f := by
  induction l with
  | nil => exact h
  | cons leaf l ih =>
    obtain ⟨hleaf, hl⟩ := List.forall_mem_cons.1 hl
    exact .later hleaf (ih hl)

lemma FirstFlaw.append_left {l : List Record} (h : FirstFlaw a l f) (l' : List Record) :
    FirstFlaw a (l ++ l') f := by
  induction h with
  | here hb h => exact .here hb h
  | later hb h ih => exact .later hb ih

lemma FirstFlaw.exists_barred {l : List Record} (h : FirstFlaw a l f) :
    ∃ leaf ∈ l, Barred a leaf := by
  induction h with
  | here hb h => exact ⟨_, List.mem_cons_self .., hb⟩
  | later hb h ih =>
    obtain ⟨leaf, hleaf, hbarred⟩ := ih
    exact ⟨leaf, List.mem_cons_of_mem _ hleaf, hbarred⟩

lemma FirstFlaw.unique {l : List Record} {g : Fault} (h : FirstFlaw a l f)
    (h' : FirstFlaw a l g) : f = g := by
  induction h with
  | here hb h =>
    cases h' with
    | here hb' h' => exact h.unique h'
    | later hb' h' => exact absurd hb hb'
  | later hb h ih =>
    cases h' with
    | here hb' h' => exact absurd hb' hb
    | later hb' h' => exact ih h'

/-! ### What decoding comes to -/

/-- The outcome that a record has to have. -/
inductive Judges (bridge : Nat) (a : Arena Entry) (r : Record) : Except Fault HostValue → Prop
  /-- All of its leaves stand for values. -/
  | accepts {v : HostValue} (hr : ∀ leaf ∈ r.leaves, ¬ Barred a leaf)
    (hv : Portrays bridge a r v) : Judges bridge a r (.ok v)
  /-- One of them does not. -/
  | refuses {f : Fault} (h : FirstFlaw a r.leaves f) : Judges bridge a r (.error f)

lemma judges_of_view {view : View} (hr : ∀ items, r ≠ .array items) (hview : r.view = .ok view)
    (hv : Denotes bridge a view v) : Judges bridge a r (.ok v) := by
  refine .accepts ?_ (.leaf hr hview hv)
  rw [Record.leaves_of_ne hr]
  exact List.forall_mem_singleton.2 (hv.not_barred hview)

lemma judges_of_flaw (hr : ∀ items, r ≠ .array items) (hf : Flaw a r f) :
    Judges bridge a r (.error f) := by
  refine .refuses ?_
  rw [Record.leaves_of_ne hr]
  exact .here hf.barred hf

lemma judges_entryValue {slot : Slot} (hr : ∀ items, r ≠ .array items)
    (hview : r.view = .ok (.managedRef slot)) :
    Judges bridge a r (plainValue a (.managedRef slot)) := by
  rw [plainValue]
  cases ha : a.get? slot with
  | none => exact judges_of_flaw hr (.vacant (.inl hview) ha)
  | some entry =>
    cases entry with
    | object o => exact judges_of_view hr hview (.object ha)
    | method o name => exact judges_of_flaw hr (.method hview ha)
    | error e => exact judges_of_flaw hr (.error (.inl hview) ha)

lemma judges_entryFault {slot : Slot} (hr : ∀ items, r ≠ .array items)
    (hview : r.view = .ok (.managedError slot)) :
    Judges bridge a r (plainValue a (.managedError slot)) := by
  rw [plainValue]
  cases ha : a.get? slot with
  | none => exact judges_of_flaw hr (.vacant (.inr hview) ha)
  | some entry =>
    cases entry with
    | object o => exact judges_of_flaw hr (.thrownEntry hview ha (by simp))
    | method o name => exact judges_of_flaw hr (.thrownEntry hview ha (by simp))
    | error e => exact judges_of_flaw hr (.error (.inr hview) ha)

lemma judges_dateValue {millis : Number.Binary64} (hr : ∀ items, r ≠ .array items)
    (hview : r.view = .ok (.date millis)) : Judges bridge a r (dateValue millis) := by
  unfold dateValue
  split
  · next hn => exact judges_of_view hr hview (.invalidDate hn)
  · next hn =>
    rw [Bool.not_eq_true] at hn
    split
    · next t ht => exact judges_of_view hr hview (.date hn ht)
    · next ht => exact judges_of_flaw hr (.date hview hn ht)

lemma judges_decodeLeaf (next : Nat) (hr : ∀ items, r ≠ .array items) :
    Judges bridge a r (decodeLeaf bridge a next r).result := by
  unfold decodeLeaf
  split
  · next e hview => exact judges_of_flaw hr (.unreadable hview)
  · next h hview => exact judges_of_view hr hview (.foreign next h)
  · next h hview => exact judges_of_flaw hr (.thrown hview)
  · next view hforeign herror hview =>
    cases view with
    | null => exact judges_of_view hr hview .null
    | boolean b => exact judges_of_view hr hview (.bool b)
    | integer n => exact judges_of_view hr hview (.int n)
    | number x => exact judges_of_view hr hview (.number x)
    | string s => exact judges_of_view hr hview (.string s)
    | date millis => exact judges_dateValue hr hview
    | managedRef slot => exact judges_entryValue hr hview
    | managedError slot => exact judges_entryFault hr hview
    | unknownError m => exact judges_of_flaw hr (.unknown hview)
    | foreignRef h =>
      cases h with
      | none => exact judges_of_flaw hr (.empty (.inl hview))
      | some h => exact absurd rfl (hforeign h)
    | foreignError h =>
      cases h with
      | none => exact judges_of_flaw hr (.empty (.inr hview))
      | some h => exact absurd rfl (herror h)
    | array items =>
      -- A leaf that reads as an array owns no elements.
      cases r with
      | plain tag bits length =>
        obtain rfl := Record.view_plain_ne_array hview
        exact judges_of_view hr hview .empty
      | text kind bytes =>
        rcases Record.view_text_isString hview with ⟨s, hs⟩ | ⟨s, hs⟩ <;> cases hs
      | array items => exact absurd rfl (hr items)

mutual
/-- **A record has the outcome that it has to have.** -/
theorem judges_decode (bridge : Nat) (a : Arena Entry) (next : Nat) : ∀ r : Record,
    Judges bridge a r (decode bridge a next r).result
  | .plain tag bits length => judges_decodeLeaf next nofun
  | .text kind bytes => judges_decodeLeaf next nofun
  | .array items => by
    rw [decode, decodedArray]
    rcases judges_decodeItems bridge a next items with ⟨vs, hvs, hleaves, hportrays⟩ |
      ⟨f, before, after, hfault, hfirst⟩
    · rw [hvs]
      exact .accepts hleaves (.array hportrays)
    · rw [hfault]
      exact .refuses hfirst

/-- Elements have the outcomes that they have to have: the first leaf that stands for no value
is in the first element that fails. -/
theorem judges_decodeItems (bridge : Nat) (a : Arena Entry) (next : Nat) : ∀ items : List Record,
    (∃ vs, gather (decodeItems bridge a next items).result = .ok vs ∧
      (∀ leaf ∈ Record.leavesOf items, ¬ Barred a leaf) ∧
      List.Forall₂ (Portrays bridge a) items vs) ∨
    ∃ f before after, gather (decodeItems bridge a next items).result =
      .error (f, before, after) ∧ FirstFlaw a (Record.leavesOf items) f
  | [] => .inl ⟨[], rfl, List.forall_mem_nil _, .nil⟩
  | r :: rs => by
    have hfirst := judges_decode bridge a next r
    have hrest := judges_decodeItems bridge a (decode bridge a next r).next rs
    rw [decodeItems, Record.leavesOf]
    dsimp only
    cases hresult : (decode bridge a next r).result with
    | error f =>
      rw [hresult] at hfirst
      cases hfirst with
      | refuses h => exact .inr ⟨f, _, _, rfl, h.append_left _⟩
    | ok v =>
      rw [hresult] at hfirst
      cases hfirst with
      | accepts hleaves hv =>
        rw [gather]
        rcases hrest with ⟨vs, hvs, hleaves', hportrays⟩ | ⟨f, before, after, hfault, h⟩
        · rw [hvs]
          exact .inl ⟨v :: vs, rfl, List.forall_mem_append.2 ⟨hleaves, hleaves'⟩,
            .cons hv hportrays⟩
        · rw [hfault]
          exact .inr ⟨f, v :: before, after, rfl, h.append_right hleaves⟩
end

/-- A record has a value if all of its leaves stand for values. -/
lemma exists_value_iff : (∃ v, (decode bridge a next r).result = .ok v) ↔
    ∀ leaf ∈ r.leaves, ¬ Barred a leaf := by
  have hjudges := judges_decode bridge a next r
  constructor
  · rintro ⟨v, hv⟩
    rw [hv] at hjudges
    cases hjudges with
    | accepts hr => exact hr
  · intro hr
    cases hresult : (decode bridge a next r).result with
    | ok v => exact ⟨v, rfl⟩
    | error f =>
      rw [hresult] at hjudges
      cases hjudges with
      | refuses h =>
        obtain ⟨leaf, hleaf, hbarred⟩ := h.exists_barred
        exact absurd hbarred (hr leaf hleaf)

/-- The value of a record is its image. -/
lemma portrays_decode (h : (decode bridge a next r).result = .ok v) : Portrays bridge a r v := by
  have hjudges := judges_decode bridge a next r
  rw [h] at hjudges
  cases hjudges with
  | accepts hr hv => exact hv

/-- A record fails with the flaw of the first leaf that stands for no value. -/
lemma result_eq_error_iff : (decode bridge a next r).result = .error f ↔
    FirstFlaw a r.leaves f := by
  have hjudges := judges_decode bridge a next r
  constructor
  · intro h
    rw [h] at hjudges
    cases hjudges with
    | refuses h => exact h
  · intro h
    cases hresult : (decode bridge a next r).result with
    | ok v =>
      rw [hresult] at hjudges
      cases hjudges with
      | accepts hr =>
        obtain ⟨leaf, hleaf, hbarred⟩ := h.exists_barred
        exact absurd hbarred (hr leaf hleaf)
    | error g =>
      rw [hresult] at hjudges
      cases hjudges with
      | refuses h' => rw [h'.unique h]

end Bridge

end ScriptBridge
