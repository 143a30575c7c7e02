/-
# What arenas come to contain

An arena only ever contains what was entered: host objects of the values that became records,
methods and failures.  And a record only ever stands for host objects that the arena contains.
-/
import ScriptBridge.Bridge.Decode
import ScriptBridge.Bridge.Encode
import ScriptBridge.Proofs.Bridge.Leases
import ScriptBridge.Proofs.Table.Arena

namespace ScriptBridge

open ScriptBridge.Bridge ScriptBridge.Host ScriptBridge.Table ScriptBridge.Wire

/-! ### Arenas -/

namespace Table.Arena

variable {α : Type} {a a' : Arena α} {s : Slot} {v w : α}

lemma mem_values_iff : v ∈ a.values ↔ ∃ i, a.entryAt? i = some v := by
  rw [← map_snd_toList, List.mem_map]
  exact ⟨fun ⟨⟨i, _⟩, hi, heq⟩ => ⟨i, heq ▸ mem_toList.1 hi⟩,
    fun ⟨i, hi⟩ => ⟨(i, v), mem_toList.2 hi, rfl⟩⟩

lemma mem_values_of_get? (h : a.get? s = some v) : v ∈ a.values := mem_values_iff.2 ⟨_, h⟩

lemma mem_values_of_take (h : a.take s = some (v, a')) (hw : w ∈ a'.values) : w ∈ a.values := by
  obtain ⟨i, hi⟩ := mem_values_iff.1 hw
  have hs := get?_of_take h
  have hb : a.base ≤ s.index := by
    by_contra hlt
    rw [get?, entryAt?_of_lt (by omega)] at hs
    cases hs
  have hf : s.index < a.finish := by
    by_contra hle
    rw [get?, entryAt?_of_finish_le (by omega)] at hs
    cases hs
  unfold take at h
  rw [hs] at h
  cases h
  rw [entryAt?_vacate hb hf] at hi
  split at hi
  · cases hi
  · exact mem_values_iff.2 ⟨i, hi⟩

lemma mem_values_of_add (h : a.add v = some (s, a')) (hw : w ∈ a'.values) :
    w = v ∨ w ∈ a.values := by
  obtain ⟨i, hi⟩ := mem_values_iff.1 hw
  rw [entryAt?_add h] at hi
  split at hi
  · exact .inl (Option.some.inj hi).symm
  · exact .inr (mem_values_iff.2 ⟨i, hi⟩)

end Table.Arena

open Table.Arena

/-! ### Records of values -/

namespace Bridge

variable {a : Arena Entry} {entry : Entry} {bridge : Nat}

lemma mem_values_of_pin {e : Entry} (h : entry ∈ (pin a e).2.values) :
    entry = e ∨ entry ∈ a.values := by
  unfold pin at h
  split at h
  · next hadd => exact mem_values_of_add hadd h
  · exact .inr h

lemma mem_values_of_takeAll {slots : List Slot} (h : entry ∈ (takeAll a slots).values) :
    entry ∈ a.values := by
  induction slots generalizing a with
  | nil => exact h
  | cons s slots ih =>
    have hrest : entry ∈ ((a.take s).elim a Prod.snd).values := ih h
    cases htake : a.take s with
    | none => rwa [htake] at hrest
    | some taken =>
      rw [htake] at hrest
      exact mem_values_of_take htake hrest

mutual
/-- **A value that becomes a record brings its own host objects into an arena.** -/
theorem mem_values_of_encode (a : Arena Entry) : ∀ v : HostValue,
    entry ∈ (encode bridge a v).2.values → entry ∈ a.values ∨ ∃ o ∈ v.objects, entry = .object o
  | .null | .bool _ | .int _ | .number _ | .string _ | .date _ | .foreign _ => fun h => by
    rw [encode] at h
    exact .inl h
  | .array items => fun h => by
    rw [encode] at h
    split at h
    · exact .inl h
    · have hitems := mem_values_of_encodeItems a [] items
      split at h <;> next heq => exact hitems (by rw [heq]; exact h)
  | .object o => fun h => by
    have hpin : entry ∈ (pin a (.object o)).2.values → entry = .object o ∨ entry ∈ a.values :=
      mem_values_of_pin
    rw [encode] at h
    split at h <;> next heq =>
      rw [heq] at hpin
      exact (hpin h).symm.imp_right fun heq => ⟨o, List.mem_singleton_self o, heq⟩

theorem mem_values_of_encodeItems (a : Arena Entry) (done : List Record) :
    ∀ vs : List HostValue, entry ∈ (encodeItems bridge a done vs).2.values →
      entry ∈ a.values ∨ ∃ o ∈ HostValue.objectsOf vs, entry = .object o
  | [] => fun h => by
    rw [encodeItems] at h
    exact .inl h
  | v :: vs => fun h => by
    have hfirst := mem_values_of_encode a v
    rw [encodeItems] at h
    have hearly : (∃ o ∈ v.objects, entry = .object o) →
        ∃ o ∈ HostValue.objectsOf (v :: vs), entry = .object o := fun ⟨o, ho, heq⟩ =>
      ⟨o, List.mem_append_left _ ho, heq⟩
    split at h
    · next heq =>
      rw [heq] at hfirst
      exact (hfirst (mem_values_of_takeAll h)).imp_right hearly
    · next a' heq =>
      rw [heq] at hfirst
      rcases mem_values_of_encodeItems a' _ vs h with hmem | ⟨o, ho, heq⟩
      · exact (hfirst hmem).imp_right hearly
      · exact .inr ⟨o, List.mem_append_right _ ho, heq⟩
end

/-! ### Values of records -/

lemma mem_objects_of_plainValue {view : View} {v : HostValue} {o : HostObject}
    (h : plainValue a view = .ok v) (ho : o ∈ v.objects) : .object o ∈ a.values := by
  unfold plainValue at h
  split at h
  case h_6 millis =>
    unfold dateValue at h
    split at h
    · cases h
      cases ho
    · split at h <;> cases h
      cases ho
  case h_8 slot =>
    split at h
    · next e he =>
      cases e <;> cases h
      obtain rfl := List.mem_singleton.1 ho
      exact mem_values_of_get? he
    · cases h
  case h_9 slot => split at h <;> cases h
  all_goals
    cases h
    try cases ho

lemma mem_objects_of_decodeLeaf {next : Nat} {r : Record} {v : HostValue} {o : HostObject}
    (h : (decodeLeaf bridge a next r).result = .ok v) (ho : o ∈ v.objects) :
    .object o ∈ a.values := by
  unfold decodeLeaf at h
  split at h
  · cases h
  · cases h
    cases ho
  · cases h
  · exact mem_objects_of_plainValue h ho

lemma gather_eq_ok {rs : List (Except Fault HostValue)} {vs : List HostValue}
    (h : gather rs = .ok vs) : rs = vs.map .ok := by
  induction rs generalizing vs with
  | nil =>
    cases h
    rfl
  | cons r rs ih =>
    cases r with
    | error f => cases h
    | ok v =>
      rw [gather] at h
      split at h
      · next hrest =>
        cases h
        rw [ih hrest, List.map_cons]
      · cases h

mutual
/-- **A record only stands for host objects that the arena contains.** -/
theorem mem_objects_of_decode (next : Nat) {v : HostValue} {o : HostObject} : ∀ r : Record,
    (decode bridge a next r).result = .ok v → o ∈ v.objects → .object o ∈ a.values
  | .plain _ _ _ => fun h ho => mem_objects_of_decodeLeaf h ho
  | .text _ _ => fun h ho => mem_objects_of_decodeLeaf h ho
  | .array items => fun h ho => by
    rw [decode, decodedArray] at h
    split at h
    · next vs hvs =>
      cases h
      obtain ⟨w, hw, how⟩ := HostValue.mem_objectsOf.1 ho
      refine mem_objects_of_decodeItems next items (v := w) ?_ how
      rw [gather_eq_ok hvs]
      exact List.mem_map_of_mem hw
    · cases h

theorem mem_objects_of_decodeItems (next : Nat) {v : HostValue} {o : HostObject} :
    ∀ rs : List Record, .ok v ∈ (decodeItems bridge a next rs).result → o ∈ v.objects →
      .object o ∈ a.values
  | [] => fun h _ => by cases h
  | r :: rs => fun h ho => by
    rcases List.mem_cons.1 h with h | h
    · exact mem_objects_of_decode next r h.symm ho
    · exact mem_objects_of_decodeItems _ rs h ho
end

end Bridge

end ScriptBridge
