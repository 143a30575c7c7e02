/-
# Slots that are handed out

Entering something gives a slot that was vacant, and leaves all others alone.  A host value
that becomes a record is entered as a whole: the slots in the record are those that were
handed out for it, and where it fails none is left.
-/
import ScriptBridge.Bridge.Encode
import ScriptBridge.Proofs.Table.Arena
import ScriptBridge.Proofs.Wire.Leaves
import ScriptBridge.Session.Serve

namespace ScriptBridge

open ScriptBridge.Bridge ScriptBridge.Host ScriptBridge.Table ScriptBridge.Wire

namespace Table.Arena

variable {α : Type} {a a' a'' : Arena α} {slots more : List Slot} {s : Slot} {v : α}

/-- Some vacant slots have been handed out, and no others. -/
structure Mints (a a' : Arena α) (slots : List Slot) : Prop where
  nodup : slots.Nodup
  fresh : ∀ s ∈ slots, a.get? s = none ∧ (a'.get? s).isSome
  kept : ∀ s, s ∉ slots → a'.get? s = a.get? s
  regular : a.IsRegular → a'.IsRegular

namespace Mints

lemma refl (a : Arena α) : Mints a a [] where
  nodup := List.nodup_nil
  fresh := by simp
  kept := fun _ _ => rfl
  regular := id

lemma trans (h₁ : Mints a a' slots) (h₂ : Mints a' a'' more) : Mints a a'' (slots ++ more) where
  nodup := by
    refine List.nodup_append.2 ⟨h₁.nodup, h₂.nodup, fun s hs t ht heq => ?_⟩
    subst heq
    have hsome := (h₁.fresh s hs).2
    rw [(h₂.fresh s ht).1] at hsome
    cases hsome
  fresh := fun s hs => by
    by_cases hm : s ∈ more
    · by_cases hs' : s ∈ slots
      · exact ⟨(h₁.fresh s hs').1, (h₂.fresh s hm).2⟩
      · exact ⟨(h₁.kept s hs').symm.trans (h₂.fresh s hm).1, (h₂.fresh s hm).2⟩
    · have hs' := (List.mem_append.1 hs).resolve_right hm
      exact ⟨(h₁.fresh s hs').1, by rw [h₂.kept s hm]; exact (h₁.fresh s hs').2⟩
  kept := fun s hs => by
    rw [List.mem_append, not_or] at hs
    exact (h₂.kept s hs.2).trans (h₁.kept s hs.1)
  regular := h₂.regular ∘ h₁.regular

lemma add (h : a.add v = some (s, a')) : Mints a a' [s] where
  nodup := by simp
  fresh := fun t ht => by
    rw [List.mem_singleton] at ht
    subst ht
    exact ⟨get?_of_add h, by rw [get?_add h, if_pos rfl]; rfl⟩
  kept := fun t ht => by
    rw [List.mem_singleton] at ht
    rw [get?_add h, if_neg ht]
  regular := fun hi => hi.add h

/-- The slot handed out last can be given up again. -/
lemma untake (h : Mints a a' (s :: slots)) : Mints a ((a'.take s).elim a' Prod.snd) slots := by
  obtain ⟨hs, hnodup⟩ := List.nodup_cons.1 h.nodup
  obtain ⟨v, hv⟩ := Option.isSome_iff_exists.1 (h.fresh s (List.mem_cons_self ..)).2
  obtain ⟨b, hb⟩ := take_of_get? hv
  rw [hb, Option.elim_some]
  refine ⟨hnodup, fun t ht => ?_, fun t ht => ?_, fun hi => (h.regular hi).take hb⟩
  · have hne : t ≠ s := fun heq => hs (heq ▸ ht)
    rw [get?_take hb, if_neg hne]
    exact h.fresh t (List.mem_cons_of_mem _ ht)
  · rw [get?_take hb]
    by_cases heq : t = s
    · rw [if_pos heq, heq]
      exact (h.fresh s (List.mem_cons_self ..)).1.symm
    · rw [if_neg heq]
      exact h.kept t fun hm => (List.mem_cons.1 hm).elim heq ht

end Mints

end Table.Arena

namespace Bridge

variable {a a₀ : Arena Entry}

/-- What was handed out can all be given up again. -/
lemma mints_takeAll {slots : List Slot} (h : a₀.Mints a slots) : a₀.Mints (takeAll a slots) [] := by
  induction slots generalizing a with
  | nil => exact h
  | cons s slots ih => exact ih h.untake

/-- The slots of a record, none where there is no record. -/
def slotsOfResult {ε : Type} : Except ε Record → List Slot
  | .ok r => r.slots
  | .error _ => []

@[simp] lemma slotsOfResult_mapError {ε ε' : Type} (f : ε → ε') (r : Except ε Record) :
    slotsOfResult (r.mapError f) = slotsOfResult r := by
  cases r <;> rfl

lemma mints_pin (a : Arena Entry) (entry : Entry) :
    a.Mints (pin a entry).2 (slotsOfResult ((pin a entry).1.map .managed)) := by
  unfold pin
  split
  · next slot a' h =>
    rw [show slotsOfResult (Except.map .managed (.ok slot : Except BridgeError Slot)) = [slot] from
      Record.slots_managed slot]
    exact .add h
  · exact .refl a

/-- The slots of what has been done so far when elements become records. -/
def slotsOfItemsResult {ε : Type} : Except ε (List Record) → List Slot
  | .ok rs => Record.slotsOfItems rs
  | .error _ => []

mutual
/-- **The slots in the record of a value are those that were handed out for it**, and none
is left where the value has no record. -/
theorem mints_encode (bridge : Nat) (a : Arena Entry) : ∀ v : HostValue,
    a.Mints (encode bridge a v).2 (slotsOfResult (encode bridge a v).1)
  | .null => by
    rw [encode, slotsOfResult, Record.slots_null]
    exact .refl a
  | .bool b => by
    rw [encode, slotsOfResult, Record.slots_boolean]
    exact .refl a
  | .int n => by
    rw [encode, slotsOfResult, Record.slots_integer]
    exact .refl a
  | .number x => by
    rw [encode, slotsOfResult, Record.slots_number]
    exact .refl a
  | .string s => by
    rw [encode, slotsOfResult, Record.slots_string]
    exact .refl a
  | .date t => by
    rw [encode, slotsOfResult, Record.slots_date]
    exact .refl a
  | .array items => by
    rw [encode]
    split
    · exact .refl a
    · have hitems := mints_encodeItems bridge a a [] (.refl a) items
      split
      · next rs a' h =>
        rw [h] at hitems
        exact hitems
      · next e a' h =>
        rw [h] at hitems
        exact hitems
  | .object o => by
    have hpin := mints_pin a (.object o)
    rw [encode]
    split
    · next slot a' h =>
      rw [h] at hpin
      exact hpin
    · next e a' h =>
      rw [h] at hpin
      exact hpin
  | .foreign f => by
    rw [encode, handleOf]
    split
    · rw [show slotsOfResult (Except.map .foreign (.ok f.handle : Except BridgeError Handle)) = []
        from Record.slots_foreign f.handle]
      exact .refl a
    · exact .refl a

/-- The slots in the records of elements are those handed out for them, along with those of
the elements before them. -/
theorem mints_encodeItems (bridge : Nat) (a₀ a : Arena Entry) (done : List Record)
    (h : a₀.Mints a (Record.slotsOfItems done.reverse)) : ∀ vs : List HostValue,
    a₀.Mints (encodeItems bridge a done vs).2
      (slotsOfItemsResult (encodeItems bridge a done vs).1)
  | [] => by
    rw [encodeItems]
    exact h
  | v :: vs => by
    have hfirst := mints_encode bridge a v
    rw [encodeItems]
    split
    · next e a' he =>
      rw [he] at hfirst
      have hall := h.trans hfirst
      rw [slotsOfResult, List.append_nil] at hall
      exact mints_takeAll hall
    · next r a' he =>
      rw [he] at hfirst
      refine mints_encodeItems bridge a₀ a' (r :: done) ?_ vs
      rw [List.reverse_cons, Record.slotsOfItems_append]
      have hall := h.trans hfirst
      rw [slotsOfResult] at hall
      simpa [Record.slotsOfItems] using hall
end

end Bridge

namespace Session

open ScriptBridge.Bridge

lemma mints_failureRecord (a : Arena Entry) (e : HostError) :
    a.Mints (failureRecord a e).2 (failureRecord a e).1.slots := by
  have hplain : a.Mints a (Record.unknownError (some e.message)).slots := by
    rw [Record.slots_unknownError]
    exact .refl a
  have hpin := mints_pin a (.error e)
  unfold failureRecord
  split
  · exact hplain
  · split
    · next slot a' h =>
      rw [h] at hpin
      rw [Record.slots_managedError]
      simpa [Except.map, slotsOfResult] using hpin
    · next err a' h =>
      rw [h] at hpin
      dsimp only
      rw [Record.slots_unknownError]
      exact hpin

end Session

end ScriptBridge
