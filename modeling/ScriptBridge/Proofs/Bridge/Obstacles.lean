/-
# What keeps a value from becoming a record

A host value has no record where a foreign object of another bridge occurs in it, where an
array in it is too long, or where the slots run out on the way.  The error says which of
these it was, and every slot that had been handed out by then is vacant again.
-/
import ScriptBridge.Proofs.Bridge.Leases
import ScriptBridge.Proofs.Bridge.RoundTrip
import ScriptBridge.Proofs.Table.Arena

namespace ScriptBridge

open ScriptBridge.Bridge ScriptBridge.Host ScriptBridge.Table ScriptBridge.Wire

/-! ### How many slots are in use -/

namespace Table.Arena

variable {α : Type} {a a' : Arena α} {slots : List Slot}

/-- The slots that are occupied once some have been handed out. -/
lemma Mints.perm_occupied (h : a.Mints a' slots) : a'.occupied.Perm (a.occupied ++ slots) := by
  have hdisjoint : ∀ s ∈ a.occupied, ∀ t ∈ slots, s ≠ t := by
    rintro s hs _ ht rfl
    simp [(h.fresh s ht).1, mem_occupied] at hs
  refine (List.perm_ext_iff_of_nodup a'.nodup_occupied
    (List.nodup_append.2 ⟨a.nodup_occupied, h.nodup, hdisjoint⟩)).2 fun s => ?_
  rw [List.mem_append, mem_occupied, mem_occupied]
  by_cases hs : s ∈ slots
  · simp [hs, (h.fresh s hs).2]
  · rw [h.kept s hs, or_iff_left hs]

/-- Each slot that has been handed out counts once. -/
lemma Mints.used (h : a.Mints a' slots) (hr : a.IsRegular) :
    a'.occupancy.used = a.occupancy.used + slots.length := by
  rw [← length_occupied hr, ← length_occupied (h.regular hr), h.perm_occupied.length_eq,
    List.length_append]

end Table.Arena

/-! ### Arrays -/

namespace Host.HostValue

mutual
/-- The lengths of the arrays in a value. -/
def lengths : HostValue → List Nat
  | .array items => items.length :: lengthsOf items
  | _ => []

/-- The lengths of the arrays in some values. -/
def lengthsOf : List HostValue → List Nat
  | [] => []
  | v :: vs => lengths v ++ lengthsOf vs
end

lemma mem_lengthsOf {n : Nat} {v : HostValue} {vs : List HostValue} (hv : v ∈ vs)
    (hn : n ∈ v.lengths) : n ∈ lengthsOf vs := by
  induction vs with
  | nil => cases hv
  | cons w ws ih =>
    rw [lengthsOf, List.mem_append]
    rcases List.mem_cons.1 hv with rfl | hv
    · exact .inl hn
    · exact .inr (ih hv)

end Host.HostValue

/-! ### Obstacles -/

namespace Bridge

variable {bridge : Nat} {a a' : Arena Entry} {v : HostValue} {vs : List HostValue}
  {e : BridgeError} {slots : List Slot}

/-- Why a value has no record, and the error that says so. -/
inductive Bars (bridge : Nat) (a : Arena Entry) (v : HostValue) : BridgeError → Prop
  /-- A foreign object of another bridge occurs in it. -/
  | stray {f : ForeignObject} (hf : f ∈ v.foreigns) (hb : f.bridge ≠ bridge) :
    Bars bridge a v (.interop .foreignBridge)
  /-- No slot was left for a host object in it. -/
  | exhausted {a' : Arena Entry} {slots : List Slot} {o : HostObject} (ho : o ∈ v.objects)
    (hm : a.Mints a' slots) (ha : a'.add (.object o) = none) :
    Bars bridge a v (.interop .arenaExhausted)
  /-- An array in it is too long. -/
  | long {n : Nat} (hn : n ∈ v.lengths) (hmax : Record.maxLength < n) :
    Bars bridge a v (.interop (.allocation n))

/-- What keeps an element from becoming a record keeps the array from it. -/
lemma Bars.array (h : Bars bridge a' v e) (hm : a.Mints a' slots) (hv : v ∈ vs) :
    Bars bridge a (.array vs) e := by
  cases h with
  | stray hf hb => exact .stray (HostValue.mem_foreignsOf.2 ⟨v, hv, hf⟩) hb
  | exhausted ho hm' ha =>
    exact .exhausted (HostValue.mem_objectsOf.2 ⟨v, hv, ho⟩) (hm.trans hm') ha
  | long hn hmax => exact .long (List.mem_cons_of_mem _ (HostValue.mem_lengthsOf hv hn)) hmax

mutual
/-- **The error of a value that has no record says why.** -/
theorem bars_encode (bridge : Nat) (a : Arena Entry) {e : BridgeError} : ∀ v : HostValue,
    (encode bridge a v).1 = .error e → Bars bridge a v e
  | .null, h | .bool _, h | .int _, h | .number _, h | .string _, h | .date _, h => by cases h
  | .array items, h => by
    rw [encode] at h
    split at h
    · next hlong =>
      cases h
      exact .long (List.mem_cons_self ..) hlong
    · split at h
      · cases h
      · next hitems =>
        cases h
        obtain ⟨v, hv, a', slots, hm, hbars⟩ :=
          bars_encodeItems bridge a [] items (congrArg Prod.fst hitems)
        exact hbars.array hm hv
  | .object o, h => by
    rw [encode] at h
    split at h
    · cases h
    · next hpin =>
      cases h
      rw [pin] at hpin
      split at hpin
      · cases hpin
      · next hadd =>
        cases hpin
        exact .exhausted (by simp [HostValue.objects]) (.refl a) hadd
  | .foreign f, h => by
    rw [encode, handleOf] at h
    split at h
    · cases h
    · next hbridge =>
      cases h
      exact .stray (by simp [HostValue.foreigns]) hbridge

/-- The error of elements that have no records says why one of them has none. -/
theorem bars_encodeItems (bridge : Nat) (a : Arena Entry) (done : List Record)
    {e : BridgeError} : ∀ vs : List HostValue, (encodeItems bridge a done vs).1 = .error e →
      ∃ v ∈ vs, ∃ a' slots, a.Mints a' slots ∧ Bars bridge a' v e
  | [], h => by cases h
  | v :: vs, h => by
    rw [encodeItems] at h
    split at h
    · next hfirst =>
      cases h
      exact ⟨v, List.mem_cons_self .., a, [], .refl a,
        bars_encode bridge a v (congrArg Prod.fst hfirst)⟩
    · next r a₁ hfirst =>
      have hm := mints_encode bridge a v
      rw [hfirst] at hm
      obtain ⟨w, hw, a', slots, hm', hbars⟩ := bars_encodeItems bridge a₁ (r :: done) vs h
      exact ⟨w, List.mem_cons_of_mem _ hw, a', _, hm.trans hm', hbars⟩
end

end Bridge

end ScriptBridge
