/-
# Values and records over arenas with other slots

A host value becomes the same record over two arenas that go together, but for the slots, and a
record becomes the same host value, as long as its slots are occupied.
-/
import ScriptBridge.Proofs.Bridge.Mints
import ScriptBridge.Proofs.Table.Tracking
import ScriptBridge.Proofs.Wire.Renaming

namespace ScriptBridge

open ScriptBridge.Bridge ScriptBridge.Host ScriptBridge.Table ScriptBridge.Wire

namespace Bridge

variable {a a' a₀ : Arena Entry} {f : Slot → Slot} {n : Nat}

/-! ### Monotonic arenas -/

/-- A monotonic arena stays one, and no cell is taken off its far end. -/
structure Endures (a a' : Arena Entry) : Prop where
  monotonic : a'.policy = .monotonic
  finish_le : a.finish ≤ a'.finish

lemma Endures.trans {a'' : Arena Entry} (h : Endures a a') (h' : Endures a' a'') : Endures a a'' :=
  ⟨h'.monotonic, Nat.le_trans h.finish_le h'.finish_le⟩

lemma endures_pin (hp : a.policy = .monotonic) (entry : Entry) : Endures a (pin a entry).2 := by
  unfold pin
  split
  · next slot a' ha =>
    exact ⟨(Arena.policy_add ha).trans hp, (Arena.finish_le_of_add ha).1⟩
  · exact ⟨hp, Nat.le_refl _⟩

lemma endures_takeAll (hp : a.policy = .monotonic) (slots : List Slot) :
    Endures a (takeAll a slots) := by
  induction slots generalizing a with
  | nil => exact ⟨hp, Nat.le_refl _⟩
  | cons s slots ih =>
    change Endures a (takeAll ((a.take s).elim a Prod.snd) slots)
    cases ht : a.take s with
    | none => exact ih hp
    | some p =>
      have hp' := (Arena.policy_take ht).trans hp
      exact .trans ⟨hp', Nat.le_of_eq (Arena.finish_take hp ht).symm⟩ (ih hp')

mutual
theorem endures_encode (bridge : Nat) {a : Arena Entry} (hp : a.policy = .monotonic) :
    ∀ v : HostValue, Endures a (encode bridge a v).2
  | .null | .bool _ | .int _ | .number _ | .string _ | .date _ | .foreign _ => by
    rw [encode]
    exact ⟨hp, Nat.le_refl _⟩
  | .array items => by
    have hitems := endures_encodeItems bridge hp [] items
    rw [encode]
    split
    · exact ⟨hp, Nat.le_refl _⟩
    · split <;> next h => rwa [h] at hitems
  | .object o => by
    have hpin := endures_pin hp (.object o)
    rw [encode]
    split <;> next h => rwa [h] at hpin

theorem endures_encodeItems (bridge : Nat) {a : Arena Entry} (hp : a.policy = .monotonic)
    (done : List Record) : ∀ vs : List HostValue, Endures a (encodeItems bridge a done vs).2
  | [] => by
    rw [encodeItems]
    exact ⟨hp, Nat.le_refl _⟩
  | v :: vs => by
    have hfirst := endures_encode bridge hp v
    rw [encodeItems]
    split
    · next e a' h =>
      rw [h] at hfirst
      exact hfirst.trans (endures_takeAll hfirst.monotonic _)
    · next r a' h =>
      rw [h] at hfirst
      exact hfirst.trans (endures_encodeItems bridge hfirst.monotonic _ vs)
end

/-! ### Values as records -/

/-- What came of entering something in two arenas is the same but for the slots. -/
structure Corresponds {β ε : Type} (n : Nat) (f : Slot → Slot) (ρ : β → β)
    (x y : Except ε β × Arena Entry) : Prop where
  result : x.1 = y.1.map ρ
  tracks : Arena.Tracks f x.2 y.2
  foresees : ∀ r, y.1 = .ok r → Arena.Foresees n f x.2 y.2

lemma Corresponds.plain {β ε : Type} {ρ : β → β} {r : Except ε β} (h : Arena.Tracks f a a')
    (hf : Arena.Foresees n f a a') (hr : r.map ρ = r) : Corresponds n f ρ (r, a) (r, a') :=
  ⟨hr.symm, h, fun _ _ => hf⟩

/-- What is entered gets slots that go together, as long as there are any. -/
lemma corresponds_pin (h : Arena.Tracks f a a') (hf : Arena.Foresees n f a a')
    (hl : n < 0x80000000) (entry : Entry) (hn : (pin a' entry).2.finish ≤ n) :
    Corresponds n f f (pin a entry) (pin a' entry) := by
  cases ha : a'.add entry with
  | none =>
    have hfull := (h.orderly'.add_eq_none h.regular' ha).1
    rw [pin, ha] at hn
    exact absurd (hfull ▸ hn) (Nat.not_le_of_lt hl)
  | some p =>
    obtain ⟨t, b'⟩ := p
    rw [pin, ha] at hn
    obtain ⟨b, hb, htracks, hforesees⟩ := h.add hf ha hn
    rw [pin, pin, ha, hb]
    exact ⟨rfl, htracks, fun _ _ => hforesees⟩

/-- Slots that are occupied can be given up in both arenas. -/
lemma tracks_takeAll {slots : List Slot} (h : Arena.Tracks f a a') (hm : a₀.Mints a' slots) :
    Arena.Tracks f (takeAll a (slots.map f)) (takeAll a' slots) := by
  induction slots generalizing a a' with
  | nil => exact h
  | cons s slots ih =>
    obtain ⟨v, hv⟩ := Option.isSome_iff_exists.1 (hm.fresh s (List.mem_cons_self ..)).2
    obtain ⟨b', hb'⟩ := Arena.take_of_get? hv
    obtain ⟨b, hb, htracks⟩ := h.take hb'
    have hm' := hm.untake
    rw [hb', Option.elim_some] at hm'
    change Arena.Tracks f (takeAll ((a.take (f s)).elim a Prod.snd) (slots.map f))
      (takeAll ((a'.take s).elim a' Prod.snd) slots)
    rw [hb, hb']
    exact ih htracks hm'

mutual
/-- **A value becomes the same record over both arenas**, but for the slots. -/
theorem corresponds_encode (bridge : Nat) (hl : n < 0x80000000) {a a' : Arena Entry}
    (h : Arena.Tracks f a a') (hf : Arena.Foresees n f a a') :
    ∀ v : HostValue, (encode bridge a' v).2.finish ≤ n →
      Corresponds n f (Record.rename f) (encode bridge a v) (encode bridge a' v)
  | .null => fun _ => by
    rw [encode, encode]
    exact .plain h hf (congrArg Except.ok (Record.rename_null f))
  | .bool b => fun _ => by
    rw [encode, encode]
    exact .plain h hf (congrArg Except.ok (Record.rename_boolean f b))
  | .int i => fun _ => by
    rw [encode, encode]
    exact .plain h hf (congrArg Except.ok (Record.rename_integer f i))
  | .number x => fun _ => by
    rw [encode, encode]
    exact .plain h hf (congrArg Except.ok (Record.rename_number f x))
  | .string s => fun _ => by
    rw [encode, encode]
    exact .plain h hf (congrArg Except.ok (Record.rename_string f s))
  | .date t => fun _ => by
    rw [encode, encode]
    exact .plain h hf (congrArg Except.ok (Record.rename_date f _))
  | .array items => fun hn => by
    rw [encode] at hn
    rw [encode, encode]
    split
    · exact .plain h hf rfl
    · next hlength =>
      rw [if_neg hlength] at hn
      -- The bound holds of the arena that the elements have left, even if one of them has failed.
      have hle : (encodeItems bridge a' [] items).2.finish ≤ n := by
        split at hn <;> next heq => rwa [heq]
      obtain ⟨hresult, htracks, hforesees⟩ :=
        corresponds_encodeItems bridge hl h hf (.refl a') items hle
      rw [List.map_nil] at hresult htracks hforesees
      generalize encodeItems bridge a [] items = x at hresult htracks hforesees ⊢
      generalize encodeItems bridge a' [] items = y at hresult htracks hforesees ⊢
      obtain ⟨rx, b⟩ := x
      obtain ⟨ry, b'⟩ := y
      cases ry with
      | error e =>
        cases hresult
        exact ⟨rfl, htracks, nofun⟩
      | ok rs =>
        cases hresult
        exact ⟨congrArg Except.ok (Record.rename_array f rs).symm, htracks,
          fun _ _ => hforesees rs rfl⟩
  | .object o => fun hn => by
    rw [encode] at hn
    rw [encode, encode]
    obtain ⟨hresult, htracks, hforesees⟩ := corresponds_pin h hf hl (.object o) (by
      split at hn <;> next heq => rwa [heq])
    generalize pin a (.object o) = x at hresult htracks hforesees ⊢
    generalize pin a' (.object o) = y at hresult htracks hforesees ⊢
    obtain ⟨rx, b⟩ := x
    obtain ⟨ry, b'⟩ := y
    cases ry with
    | error e =>
      cases hresult
      exact ⟨rfl, htracks, nofun⟩
    | ok slot =>
      cases hresult
      exact ⟨congrArg Except.ok (Record.rename_managed f slot).symm, htracks,
        fun _ _ => hforesees slot rfl⟩
  | .foreign g => fun _ => by
    rw [encode, encode]
    refine .plain h hf ?_
    cases handleOf bridge g with
    | error e => rfl
    | ok handle => exact congrArg Except.ok (Record.rename_foreign f handle)

theorem corresponds_encodeItems (bridge : Nat) (hl : n < 0x80000000) {a₀ a a' : Arena Entry}
    (h : Arena.Tracks f a a') (hf : Arena.Foresees n f a a') {done : List Record}
    (hm : a₀.Mints a' (Record.slotsOfItems done.reverse)) :
    ∀ vs : List HostValue, (encodeItems bridge a' done vs).2.finish ≤ n →
      Corresponds n f (List.map (Record.rename f))
        (encodeItems bridge a (done.map (Record.rename f)) vs) (encodeItems bridge a' done vs)
  | [] => fun _ => by
    rw [encodeItems, encodeItems]
    exact ⟨congrArg Except.ok (List.map_reverse ..).symm, h, fun _ _ => hf⟩
  | v :: vs => fun hn => by
    have hmints := hm.trans (mints_encode bridge a' v)
    have hfirst := corresponds_encode bridge hl h hf v (by
      rw [encodeItems] at hn
      have hp := (endures_encode bridge h.monotonic v).monotonic
      refine Nat.le_trans ?_ hn
      split
      · next e b' heq =>
        rw [heq] at hp ⊢
        exact (endures_takeAll hp _).finish_le
      · next r b' heq =>
        rw [heq] at hp ⊢
        exact (endures_encodeItems bridge hp _ vs).finish_le)
    rw [encodeItems] at hn
    rw [encodeItems, encodeItems]
    obtain ⟨hresult, htracks, hforesees⟩ := hfirst
    generalize encode bridge a v = x at hresult htracks hforesees ⊢
    generalize encode bridge a' v = y at hresult htracks hforesees hmints hn ⊢
    obtain ⟨rx, b⟩ := x
    obtain ⟨ry, b'⟩ := y
    cases ry with
    | error e =>
      cases hresult
      rw [slotsOfResult, List.append_nil] at hmints
      refine ⟨rfl, ?_, nofun⟩
      dsimp only
      rw [← List.map_reverse, Record.slotsOfItems_rename]
      exact tracks_takeAll htracks hmints
    | ok r =>
      cases hresult
      have hm' : a₀.Mints b' (Record.slotsOfItems (r :: done).reverse) := by
        rw [List.reverse_cons, Record.slotsOfItems_append]
        simpa [Record.slotsOfItems, slotsOfResult] using hmints
      exact corresponds_encodeItems bridge hl htracks (hforesees r rfl) hm' vs hn
end

/-! ### Records as values -/

lemma plainValue_rename (h : Arena.Tracks f a a') {v : View}
    (hv : ∀ s ∈ v.slots, (a'.get? s).isSome) : plainValue a (v.rename f) = plainValue a' v := by
  have hget : ∀ s, v.slots = [s] → ∃ w, a.get? (f s) = some w ∧ a'.get? s = some w :=
    fun s hs => by
      obtain ⟨w, hw⟩ := Option.isSome_iff_exists.1 (hv s (hs ▸ List.mem_singleton_self s))
      exact ⟨w, h.get? s w hw, hw⟩
  cases v with
  | managedRef s =>
    obtain ⟨w, hw, hw'⟩ := hget s rfl
    rw [View.rename, plainValue, plainValue, hw, hw']
  | managedError s =>
    obtain ⟨w, hw, hw'⟩ := hget s rfl
    rw [View.rename, plainValue, plainValue, hw, hw']
  | _ => rfl

lemma decodeLeaf_rename (bridge : Nat) (h : Arena.Tracks f a a') (next : Nat) {r : Record}
    (hr : ∀ s ∈ r.slots, (a'.get? s).isSome) :
    decodeLeaf bridge a next (r.rename f) = decodeLeaf bridge a' next r := by
  unfold decodeLeaf
  rw [Record.view_rename]
  cases hv : r.view with
  | error e => rfl
  | ok v =>
    rw [Record.slots_of_view hv] at hr
    have hplain := plainValue_rename h hr
    cases v with
    | foreignRef handle =>
      cases handle with
      | none => exact congrArg (Decoded.mk · [] next) hplain
      | some handle => rfl
    | foreignError handle =>
      cases handle with
      | none => exact congrArg (Decoded.mk · [] next) hplain
      | some handle => rfl
    | _ => exact congrArg (Decoded.mk · [] next) hplain

mutual
/-- **A record whose slots are occupied becomes the same value over both arenas.** -/
theorem decode_rename (bridge : Nat) (h : Arena.Tracks f a a') (next : Nat) :
    ∀ r : Record, (∀ s ∈ r.slots, (a'.get? s).isSome) →
      decode bridge a next (r.rename f) = decode bridge a' next r
  | .plain tag bits length => fun hr => by
    have hleaf := decodeLeaf_rename bridge h next hr
    obtain ⟨bits', heq⟩ := Record.exists_rename_plain f tag bits length
    rw [heq] at hleaf ⊢
    rw [decode, decode]
    exact hleaf
  | .text kind bytes => fun hr => by
    have hleaf := decodeLeaf_rename bridge h next hr
    rw [Record.rename_text] at hleaf ⊢
    rw [decode, decode]
    exact hleaf
  | .array items => fun hr => by
    rw [Record.rename_array, decode, decode,
      decodeItems_rename bridge h next items (by rwa [Record.slots_array] at hr)]

theorem decodeItems_rename (bridge : Nat) (h : Arena.Tracks f a a') (next : Nat) :
    ∀ rs : List Record, (∀ s ∈ Record.slotsOfItems rs, (a'.get? s).isSome) →
      decodeItems bridge a next (rs.map (Record.rename f)) = decodeItems bridge a' next rs
  | [] => fun _ => rfl
  | r :: rs => fun hr => by
    rw [Record.slotsOfItems, List.forall_mem_append] at hr
    rw [List.map_cons, decodeItems, decodeItems, decode_rename bridge h next r hr.1,
      decodeItems_rename bridge h _ rs hr.2]
end

lemma textOf?_rename (f : Slot → Slot) (r : Record) : textOf? (r.rename f) = textOf? r := by
  unfold textOf?
  rw [Record.view_rename]
  cases r.view with
  | error e => rfl
  | ok v => cases v <;> rfl

end Bridge

namespace Session

open ScriptBridge.Bridge

variable {a a' : Arena Entry} {f : Slot → Slot} {n : Nat}

lemma endures_failureRecord (hp : a.policy = .monotonic) (e : HostError) :
    Endures a (failureRecord a e).2 := by
  have hpin := endures_pin hp (.error e)
  unfold failureRecord
  split
  · exact ⟨hp, Nat.le_refl _⟩
  · split <;> next h => rwa [h] at hpin

/-- The record of a failure is the same over both arenas, but for its slot. -/
lemma failureRecord_rename (h : Arena.Tracks f a a') (hf : Arena.Foresees n f a a')
    (hl : n < 0x80000000) (e : HostError) (hn : (failureRecord a' e).2.finish ≤ n) :
    (failureRecord a e).1 = (failureRecord a' e).1.rename f ∧
      Arena.Tracks f (failureRecord a e).2 (failureRecord a' e).2 := by
  cases e with
  | invalidSlot s =>
    refine ⟨?_, h⟩
    rw [failureRecord, failureRecord, Record.rename_unknownError]
  | _ =>
    unfold failureRecord at hn ⊢
    dsimp only at hn ⊢
    obtain ⟨hresult, htracks, -⟩ := corresponds_pin h hf hl (.error _) (by
      split at hn <;> next heq => rwa [heq])
    generalize pin a (.error _) = x at hresult htracks ⊢
    generalize pin a' (.error _) = y at hresult htracks ⊢
    obtain ⟨rx, b⟩ := x
    obtain ⟨ry, b'⟩ := y
    cases ry with
    | error err =>
      cases hresult
      refine ⟨?_, htracks⟩
      rw [Record.rename_unknownError]
    | ok slot =>
      cases hresult
      exact ⟨(Record.rename_managedError f slot).symm, htracks⟩

end Session

end ScriptBridge
