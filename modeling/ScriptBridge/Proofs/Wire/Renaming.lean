/-
# Other slots in a record

A record in which slots are exchanged for others.  It says the same but for the slots.
-/
import ScriptBridge.Proofs.Wire.Leaves

namespace ScriptBridge.Wire

variable {f g : Slot → Slot} {r : Record} {rs : List Record}

/-- A slot as the payload of a record. -/
def Slot.bits (s : Slot) : UInt64 := s.toInt32.toUInt32.toUInt64

namespace Record

mutual
/-- A record with other slots. -/
def rename (f : Slot → Slot) : Record → Record
  | .plain tag bits length =>
    match (Record.plain tag bits length).view with
    | .ok (.managedRef s) => .plain tag (f s).bits length
    | .ok (.managedError s) => .plain tag (f s).bits length
    | _ => .plain tag bits length
  | .text kind bytes => .text kind bytes
  | .array items => .array (renameItems f items)

/-- Records with other slots. -/
def renameItems (f : Slot → Slot) : List Record → List Record
  | [] => []
  | r :: rs => rename f r :: renameItems f rs
end

@[simp] lemma renameItems_eq_map (f : Slot → Slot) (rs : List Record) :
    renameItems f rs = rs.map (rename f) := by
  induction rs with
  | nil => rfl
  | cons r rs ih => rw [renameItems, ih, List.map_cons]

end Record

/-- A view with other slots. -/
def View.rename (f : Slot → Slot) : View → View
  | .managedRef s => .managedRef (f s)
  | .managedError s => .managedError (f s)
  | .array items => .array (items.map (Record.rename f))
  | v => v

namespace Record

@[simp] lemma rename_array (f : Slot → Slot) (items : List Record) :
    (array items).rename f = array (items.map (rename f)) := by
  rw [rename, renameItems_eq_map]

@[simp] lemma rename_text (f : Slot → Slot) (kind : TextKind) (bytes : ByteArray) :
    (text kind bytes).rename f = text kind bytes := by
  rw [rename]

lemma exists_rename_plain (f : Slot → Slot) (tag : Int32) (bits : UInt64) (length : Int32) :
    ∃ bits', (plain tag bits length).rename f = plain tag bits' length := by
  rw [rename]
  split <;> exact ⟨_, rfl⟩

/-- The payload of a record that names a slot is that slot. -/
lemma view_plain_bits {tag : Int32} {bits : UInt64} {length : Int32} {s : Slot} (t : Slot) :
    ((plain tag bits length).view = .ok (.managedRef s) →
      (plain tag t.bits length).view = .ok (.managedRef t)) ∧
    ((plain tag bits length).view = .ok (.managedError s) →
      (plain tag t.bits length).view = .ok (.managedError t)) := by
  have hread : ∀ kind, readSlot kind t.bits = .ok t := fun kind => readSlot_toUInt64 kind t
  unfold view
  dsimp only
  cases Kind.ofCode? tag with
  | none => exact ⟨(by simp), (by simp)⟩
  | some kind =>
    cases kind <;> dsimp only [viewPlain, readNull, Functor.map, Except.map] <;>
      first
        | (rw [hread]; exact ⟨fun _ => rfl, by cases readSlot _ bits <;> simp⟩)
        | (rw [hread]; exact ⟨by cases readSlot _ bits <;> simp, fun _ => rfl⟩)
        | grind

/-- **A record with other slots says the same but for the slots.** -/
theorem view_rename (f : Slot → Slot) (r : Record) :
    (r.rename f).view = r.view.map (View.rename f) := by
  cases r with
  | plain tag bits length =>
    rw [rename]
    cases hv : (plain tag bits length).view with
    | error e =>
      dsimp only
      rw [hv]
      rfl
    | ok v =>
      cases v with
      | managedRef s => exact (view_plain_bits (f s)).1 hv
      | managedError s => exact (view_plain_bits (f s)).2 hv
      | array items =>
        dsimp only
        rw [hv, view_plain_ne_array hv]
        rfl
      | _ =>
        dsimp only
        rw [hv]
        rfl
  | text kind bytes =>
    rw [rename_text]
    cases hv : (text kind bytes).view with
    | error e => rfl
    | ok v => rcases view_text_isString hv with ⟨s, rfl⟩ | ⟨s, rfl⟩ <;> rfl
  | array items =>
    rw [rename_array]
    rfl

@[simp] lemma tag_rename (f : Slot → Slot) (r : Record) : (r.rename f).tag = r.tag := by
  cases r with
  | plain tag bits length =>
    rw [rename]
    split <;> rfl
  | text kind bytes => rw [rename_text]
  | array items =>
    rw [rename_array]
    rfl

@[simp] lemma isError_rename (f : Slot → Slot) (r : Record) :
    (r.rename f).isError = r.isError := by
  rw [isError, isError, tag_rename]

/-! ### The slots of a record -/

mutual
/-- A record with other slots names those in the place of its own. -/
theorem slots_rename (f : Slot → Slot) : ∀ r : Record, (r.rename f).slots = r.slots.map f
  | .plain tag bits length => by
    cases hv : (plain tag bits length).view with
    | error e => rw [slots_of_view_error hv, slots_of_view_error (by rw [view_rename, hv]; rfl),
        List.map_nil]
    | ok v =>
      rw [slots_of_view hv, slots_of_view (by rw [view_rename, hv]; rfl)]
      cases v with
      | array items =>
        rw [view_plain_ne_array hv]
        rfl
      | _ => rfl
  | .text kind bytes => by
    rw [rename_text, slots]
    rfl
  | .array items => by
    rw [rename_array, slots_array, slots_array]
    exact slotsOfItems_rename f items

theorem slotsOfItems_rename (f : Slot → Slot) :
    ∀ rs : List Record, slotsOfItems (rs.map (rename f)) = (slotsOfItems rs).map f
  | [] => rfl
  | r :: rs => by
    rw [List.map_cons, slotsOfItems, slotsOfItems, List.map_append, slots_rename,
      slotsOfItems_rename]
end

mutual
/-- Only the slots that a record names matter. -/
theorem rename_congr : ∀ r : Record, (∀ s ∈ r.slots, f s = g s) → r.rename f = r.rename g
  | .plain tag bits length => fun h => by
    rw [rename, rename]
    split
    · next s hv => rw [h s (by rw [slots_of_view hv]; exact List.mem_singleton_self s)]
    · next s hv => rw [h s (by rw [slots_of_view hv]; exact List.mem_singleton_self s)]
    · rfl
  | .text kind bytes => fun _ => by rw [rename_text, rename_text]
  | .array items => fun h => by
    rw [rename_array, rename_array]
    exact congrArg array (renameItems_congr items (by rwa [slots_array] at h))

theorem renameItems_congr :
    ∀ rs : List Record, (∀ s ∈ slotsOfItems rs, f s = g s) →
      rs.map (rename f) = rs.map (rename g)
  | [] => fun _ => rfl
  | r :: rs => fun h => by
    rw [slotsOfItems] at h
    rw [List.map_cons, List.map_cons, rename_congr r fun s hs => h s (List.mem_append_left _ hs),
      renameItems_congr rs fun s hs => h s (List.mem_append_right _ hs)]
end

mutual
/-- A record without slots stays as it is. -/
theorem rename_of_slots : ∀ r : Record, r.slots = [] → r.rename f = r
  | .plain tag bits length => fun h => by
    rw [rename]
    split
    · next s hv =>
      rw [slots_of_view hv] at h
      cases h
    · next s hv =>
      rw [slots_of_view hv] at h
      cases h
    · rfl
  | .text kind bytes => fun _ => rename_text ..
  | .array items => fun h => by
    rw [rename_array, renameItems_of_slots items (by rwa [slots_array] at h)]

theorem renameItems_of_slots :
    ∀ rs : List Record, slotsOfItems rs = [] → rs.map (rename f) = rs
  | [] => fun _ => rfl
  | r :: rs => fun h => by
    rw [slotsOfItems, List.append_eq_nil_iff] at h
    rw [List.map_cons, rename_of_slots r h.1, renameItems_of_slots rs h.2]
end

/-! ### Built records -/

@[simp] lemma rename_managed (f : Slot → Slot) (s : Slot) :
    (managed s).rename f = managed (f s) := by
  have hview := view_managed s
  unfold managed scalar at hview ⊢
  rw [rename, hview]
  rfl

@[simp] lemma rename_managedError (f : Slot → Slot) (s : Slot) :
    (managedError s).rename f = managedError (f s) := by
  have hview := view_managedError s
  unfold managedError scalar at hview ⊢
  rw [rename, hview]
  rfl

@[simp] lemma rename_null (f : Slot → Slot) : null.rename f = null := rename_of_slots _ slots_null

@[simp] lemma rename_boolean (f : Slot → Slot) (b : Bool) : (boolean b).rename f = boolean b :=
  rename_of_slots _ (slots_boolean b)

@[simp] lemma rename_integer (f : Slot → Slot) (n : Int32) : (integer n).rename f = integer n :=
  rename_of_slots _ (slots_integer n)

@[simp] lemma rename_number (f : Slot → Slot) (x : Number.Binary64) :
    (number x).rename f = number x := rename_of_slots _ (slots_number x)

@[simp] lemma rename_date (f : Slot → Slot) (x : Number.Binary64) :
    (date x).rename f = date x := rename_of_slots _ (slots_date x)

@[simp] lemma rename_string (f : Slot → Slot) (s : String) : (string s).rename f = string s :=
  rename_of_slots _ (slots_string s)

@[simp] lemma rename_foreign (f : Slot → Slot) (h : Handle) :
    (foreign h).rename f = foreign h := rename_of_slots _ (slots_foreign h)

@[simp] lemma rename_foreignError (f : Slot → Slot) (h : Handle) :
    (foreignError h).rename f = foreignError h := rename_of_slots _ (slots_foreignError h)

@[simp] lemma rename_unknownError (f : Slot → Slot) (m : Option String) :
    (unknownError m).rename f = unknownError m := rename_of_slots _ (slots_unknownError m)

@[simp] lemma rename_nulls (f : Slot → Slot) (n : Nat) : (nulls n).rename f = nulls n :=
  rename_of_slots _ (slots_nulls n)

/-! ### Handles -/

mutual
/-- A record with other slots names the same script objects. -/
theorem handles_rename (f : Slot → Slot) : ∀ r : Record, (r.rename f).handles = r.handles
  | .plain tag bits length => by
    cases hv : (plain tag bits length).view with
    | error e =>
      rw [handles_of_view_error hv, handles_of_view_error (by rw [view_rename, hv]; rfl)]
    | ok v =>
      rw [handles_of_view hv, handles_of_view (by rw [view_rename, hv]; rfl)]
      cases v with
      | array items =>
        rw [view_plain_ne_array hv]
        rfl
      | _ => rfl
  | .text kind bytes => by rw [rename_text]
  | .array items => by
    rw [rename_array, handles_array, handles_array]
    exact handlesOfItems_rename f items

theorem handlesOfItems_rename (f : Slot → Slot) :
    ∀ rs : List Record, handlesOfItems (rs.map (rename f)) = handlesOfItems rs
  | [] => rfl
  | r :: rs => by
    rw [List.map_cons, handlesOfItems, handlesOfItems, handles_rename, handlesOfItems_rename]
end

end Record

end ScriptBridge.Wire
