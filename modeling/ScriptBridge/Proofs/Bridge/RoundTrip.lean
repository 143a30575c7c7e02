/-
# Host values that come back

The record of a host value says all that the value holds, host objects by slots of their own.
A record of scalars, host objects and arrays that has been in script stands for the same value
when it is decoded, but for one thing: a number that is whole has become an integer.
-/
import ScriptBridge.Proofs.Bridge.Leases
import ScriptBridge.Proofs.Bridge.Mints
import ScriptBridge.Proofs.Engine.Echo

namespace ScriptBridge

open ScriptBridge.Bridge ScriptBridge.Host ScriptBridge.Script ScriptBridge.Table
  ScriptBridge.Wire

/-! ### Values that have been in script -/

namespace Host.HostValue

mutual
/-- What comes back for a value that has been in script: numbers that are whole are integers. -/
def rounded : HostValue → HostValue
  | .number x =>
    match x.toInt32? with
    | some i => if x.isNegativeZero then .number x else .int i
    | none => .number x
  | .array items => .array (roundedItems items)
  | v => v

/-- What comes back for elements. -/
def roundedItems : List HostValue → List HostValue
  | [] => []
  | v :: vs => rounded v :: roundedItems vs
end

mutual
/-- A value of scalars, host objects and arrays, which are nested no deeper and are no longer than
given, and all of which a length field can count. -/
def Fits (length : Nat) : Nat → HostValue → Prop
  | 0, .array _ => False
  | depth + 1, .array items => items.length ≤ length ∧ items.length ≤ Record.maxLength ∧
    AllFit length depth items
  | _, .string s => s.utf8ByteSize ≤ Record.maxLength
  | _, .date _ => False
  | _, .foreign _ => False
  | _, _ => True

/-- All of some values are such. -/
def AllFit (length : Nat) : Nat → List HostValue → Prop
  | _, [] => True
  | depth, v :: vs => Fits length depth v ∧ AllFit length depth vs
end

/-- What holds of everything but arrays, and of arrays where it holds of their elements, holds of
every value. -/
theorem array_induction {P : HostValue → Prop} (leaf : ∀ v, (∀ vs, v ≠ .array vs) → P v)
    (array : ∀ vs, (∀ v ∈ vs, P v) → P (.array vs)) : ∀ v, P v
  | .array vs => array vs fun v _ => array_induction leaf array v
  | .null => leaf _ nofun
  | .bool _ => leaf _ nofun
  | .int _ => leaf _ nofun
  | .number _ => leaf _ nofun
  | .string _ => leaf _ nofun
  | .date _ => leaf _ nofun
  | .object _ => leaf _ nofun
  | .foreign _ => leaf _ nofun

lemma allFit_iff {length depth : Nat} {vs : List HostValue} :
    AllFit length depth vs ↔ ∀ v ∈ vs, v.Fits length depth := by
  induction vs with
  | nil => simp [AllFit]
  | cons v vs ih => rw [AllFit, ih, List.forall_mem_cons]

lemma roundedItems_eq_map (vs : List HostValue) : roundedItems vs = vs.map rounded := by
  induction vs with
  | nil => rfl
  | cons v vs ih => rw [roundedItems, ih, List.map_cons]

end Host.HostValue

namespace Bridge

variable {a a' : Arena Entry} {length depth : Nat}

/-! ### Records of host values -/

mutual
/-- A record says what a host value holds, where its slots are those of the objects in it. -/
def Renders (a : Arena Entry) : HostValue → Record → Prop
  | .null, r => r = .null
  | .bool b, r => r = .boolean b
  | .int n, r => r = .integer n
  | .number x, r => r = .number x
  | .string s, r => r = .string s
  | .date t, r => r = .date (Date.ofInstant t)
  | .array vs, r => ∃ rs, r = .array rs ∧ RendersAll a vs rs
  | .object o, r => ∃ s, r = .managed s ∧ a.get? s = some (.object o)
  | .foreign f, r => r = .foreign f.handle

/-- Records say what host values hold, one by one. -/
def RendersAll (a : Arena Entry) : List HostValue → List Record → Prop
  | [], rs => rs = []
  | v :: vs, rs => ∃ r rest, rs = r :: rest ∧ Renders a v r ∧ RendersAll a vs rest
end

/-- What a view says about a value that is no array. -/
inductive LeafView (a : Arena Entry) : HostValue → View → Prop
  | null : LeafView a .null .null
  | bool (b : Bool) : LeafView a (.bool b) (.boolean b)
  | int (n : Int32) : LeafView a (.int n) (.integer n)
  | number (x : Number.Binary64) : LeafView a (.number x) (.number x)
  | string (s : String) : LeafView a (.string s) (.string (Record.clip s))
  | date (t : Calendar.Instant) : LeafView a (.date t) (.date (Date.ofInstant t))
  | object {o : HostObject} {s : Slot} (hs : a.get? s = some (.object o)) :
    LeafView a (.object o) (.managedRef s)
  | foreign (f : ForeignObject) : LeafView a (.foreign f) (.foreignRef (some f.handle))

variable {v : HostValue} {r : Record} {vs : List HostValue} {rs : List Record}

lemma Renders.leaf (h : Renders a v r) (hv : ∀ vs, v ≠ .array vs) :
    (∀ items, r ≠ .array items) ∧ ∃ view, r.view = .ok view ∧ LeafView a v view := by
  cases v with
  | array vs => exact absurd rfl (hv vs)
  | null => subst h; exact ⟨nofun, _, Record.view_null, .null⟩
  | bool b => subst h; exact ⟨nofun, _, Record.view_boolean b, .bool b⟩
  | int n => subst h; exact ⟨nofun, _, Record.view_integer n, .int n⟩
  | number x => subst h; exact ⟨nofun, _, Record.view_number x, .number x⟩
  | string s => subst h; exact ⟨nofun, _, Record.view_string s, .string s⟩
  | date t => subst h; exact ⟨nofun, _, Record.view_date _, .date t⟩
  | object o =>
    obtain ⟨s, rfl, hs⟩ := h
    exact ⟨nofun, _, Record.view_managed s, .object hs⟩
  | foreign f => subst h; exact ⟨nofun, _, Record.view_foreign f.handle, .foreign f⟩

lemma RendersAll.exists_of_mem (h : RendersAll a vs rs) (hr : r ∈ rs) :
    ∃ v ∈ vs, Renders a v r := by
  induction vs generalizing rs with
  | nil =>
    subst h
    cases hr
  | cons v vs ih =>
    obtain ⟨r', rest, rfl, hr', hrest⟩ := h
    rcases List.mem_cons.1 hr with rfl | hr
    · exact ⟨v, List.mem_cons_self .., hr'⟩
    · obtain ⟨w, hw, hwr⟩ := ih hrest hr
      exact ⟨w, List.mem_cons_of_mem _ hw, hwr⟩

lemma RendersAll.length_eq (h : RendersAll a vs rs) : rs.length = vs.length := by
  induction vs generalizing rs with
  | nil =>
    subst h
    rfl
  | cons v vs ih =>
    obtain ⟨r, rest, rfl, -, hrest⟩ := h
    rw [List.length_cons, List.length_cons, ih hrest]

/-- What a record says does not change as long as its slots keep their entries. -/
theorem Renders.mono (h : Renders a v r) (hk : ∀ s ∈ r.slots, a'.get? s = a.get? s) :
    Renders a' v r := by
  induction v using HostValue.array_induction generalizing r with
  | leaf v hv =>
    cases v with
    | array vs => exact absurd rfl (hv vs)
    | object o =>
      obtain ⟨s, rfl, hs⟩ := h
      exact ⟨s, rfl, (hk s (by simp)).trans hs⟩
    | _ => exact h
  | array vs ih =>
    obtain ⟨rs, rfl, hrs⟩ := h
    refine ⟨rs, rfl, ?_⟩
    rw [Record.slots_array] at hk
    induction vs generalizing rs with
    | nil => exact hrs
    | cons v vs ihs =>
      obtain ⟨r, rest, rfl, hr, hrest⟩ := hrs
      rw [Record.slotsOfItems] at hk
      exact ⟨r, rest, rfl,
        ih v (List.mem_cons_self ..) hr fun s hs => hk s (List.mem_append_left _ hs),
        ihs (fun w hw => ih w (List.mem_cons_of_mem _ hw)) rest hrest
          fun s hs => hk s (List.mem_append_right _ hs)⟩

/-- What elements become does not depend on those before them. -/
lemma encodeItems_eq_ok {bridge : Nat} {vs : List HostValue} {done rs : List Record}
    (h : encodeItems bridge a done vs = (.ok rs, a')) :
    ∃ rest, rs = done.reverse ++ rest ∧
      ∀ done', encodeItems bridge a done' vs = (.ok (done'.reverse ++ rest), a') := by
  induction vs generalizing a done with
  | nil =>
    rw [encodeItems] at h
    cases h
    exact ⟨[], (List.append_nil _).symm, fun done' => by rw [encodeItems, List.append_nil]⟩
  | cons v vs ih =>
    rw [encodeItems] at h
    split at h
    · cases h
    · next r a₁ hfirst =>
      obtain ⟨rest, hrs, hall⟩ := ih h
      refine ⟨r :: rest, by rw [hrs, List.reverse_cons, List.append_assoc]; rfl, fun done' => ?_⟩
      rw [encodeItems, hfirst]
      dsimp only
      rw [hall, List.reverse_cons, List.append_assoc]
      rfl

mutual
/-- **The record of a host value says what it holds.** -/
theorem renders_encode (bridge : Nat) : ∀ {a a' : Arena Entry} {v : HostValue} {r : Record},
    encode bridge a v = (.ok r, a') → Renders a' v r
  | a, a', .null, r, h => by cases h; rfl
  | a, a', .bool b, r, h => by cases h; rfl
  | a, a', .int n, r, h => by cases h; rfl
  | a, a', .number x, r, h => by cases h; rfl
  | a, a', .string s, r, h => by cases h; rfl
  | a, a', .date t, r, h => by cases h; rfl
  | a, a', .array vs, r, h => by
    rw [encode] at h
    split at h
    · cases h
    · split at h
      · next rs a₁ hitems =>
        cases h
        exact ⟨rs, rfl, renders_encodeItems bridge hitems⟩
      · cases h
  | a, a', .object o, r, h => by
    rw [encode, pin] at h
    cases hadd : a.add (.object o) with
    | none =>
      rw [hadd] at h
      cases h
    | some x =>
      obtain ⟨slot, a₁⟩ := x
      rw [hadd] at h
      cases h
      exact ⟨slot, rfl, (Arena.get?_add hadd slot).trans (if_pos rfl)⟩
  | a, a', .foreign f, r, h => by
    rw [encode, handleOf] at h
    split at h <;> cases h
    rfl

/-- The records of elements say what those hold. -/
theorem renders_encodeItems (bridge : Nat) : ∀ {a a' : Arena Entry} {vs : List HostValue}
    {rs : List Record}, encodeItems bridge a [] vs = (.ok rs, a') → RendersAll a' vs rs
  | a, a', [], rs, h => by
    rw [encodeItems] at h
    cases h
    rfl
  | a, a', v :: vs, rs, h => by
    rw [encodeItems] at h
    split at h
    · cases h
    · next r a₁ hfirst =>
      obtain ⟨rest, rfl, hall⟩ := encodeItems_eq_ok h
      have hrest : encodeItems bridge a₁ [] vs = (.ok rest, a') := hall []
      refine ⟨r, rest, rfl, (renders_encode bridge hfirst).mono fun s hs => ?_,
        renders_encodeItems bridge hrest⟩
      -- The slots of the first element are not handed out again.
      have hmints := mints_encode bridge a v
      have hmore := mints_encodeItems bridge a₁ a₁ [] (.refl a₁) vs
      rw [hfirst] at hmints
      rw [hrest] at hmore
      refine hmore.kept s fun hm => ?_
      have hsome := (hmints.fresh s hs).2
      rw [(hmore.fresh s hm).1] at hsome
      cases hsome
end

/-! ### What such records are like -/

/-- The record of a host value can be read. -/
lemma Renders.isReadable (h : Renders a v r) : r.IsReadable := by
  induction v using HostValue.array_induction generalizing r with
  | leaf v hv =>
    obtain ⟨hn, view, hview, -⟩ := h.leaf hv
    exact Record.isReadable_of_view hn hview
  | array vs ih =>
    obtain ⟨rs, rfl, hrs⟩ := h
    refine Record.areReadable_iff.2 fun r hr => ?_
    obtain ⟨v, hv, hvr⟩ := hrs.exists_of_mem hr
    exact ih v hv hvr

/-- The record of a host value is not that of an error. -/
lemma Renders.isError (h : Renders a v r) : r.isError = false := by
  cases v with
  | array vs =>
    obtain ⟨rs, rfl, -⟩ := h
    rfl
  | object o =>
    obtain ⟨s, rfl, -⟩ := h
    rfl
  | _ =>
    obtain rfl := h
    rfl

/-- **The record of a host value has a slot for each host object in it**, which holds that
object. -/
lemma Renders.entries (h : Renders a v r) :
    r.slots.map a.get? = v.objects.map fun o => some (.object o) := by
  induction v using HostValue.array_induction generalizing r with
  | leaf v hv =>
    obtain ⟨hn, view, hview, hsays⟩ := h.leaf hv
    rw [Record.slots_of_view hview]
    cases hsays with
    | object hs => exact congrArg ([·]) hs
    | _ => rfl
  | array vs ih =>
    obtain ⟨rs, rfl, hrs⟩ := h
    rw [Record.slots_array, HostValue.objects]
    induction vs generalizing rs with
    | nil =>
      subst hrs
      rfl
    | cons v vs ihs =>
      obtain ⟨r, rest, rfl, hr, hrest⟩ := hrs
      rw [Record.slotsOfItems, HostValue.objectsOf, List.map_append, List.map_append,
        ih v (List.mem_cons_self ..) hr,
        ihs (fun w hw => ih w (List.mem_cons_of_mem _ hw)) rest hrest]

/-- The record of a value of scalars, host objects and arrays is one of scalars, slots and
arrays. -/
lemma Renders.fits (h : Renders a v r) (hv : v.Fits length depth) : r.Fits length depth := by
  induction v using HostValue.array_induction generalizing r depth with
  | leaf v hleaf =>
    obtain ⟨hn, view, hview, hsays⟩ := h.leaf hleaf
    have hscalar : view.isScalar = true := by
      cases hsays <;> first | rfl | (cases depth <;> cases hv)
    cases r with
    | array items => exact absurd rfl (hn items)
    | _ => cases depth <;> exact ⟨view, hview, hscalar⟩
  | array vs ih =>
    obtain ⟨rs, rfl, hrs⟩ := h
    cases depth with
    | zero => cases hv
    | succ depth =>
      obtain ⟨hlength, hmax, hall⟩ := hv
      rw [Record.Fits, hrs.length_eq]
      refine ⟨hlength, hmax, Record.allFit_iff.2 fun r hr => ?_⟩
      obtain ⟨v, hm, hvr⟩ := hrs.exists_of_mem hr
      exact ih v hm hvr (HostValue.allFit_iff.1 hall v hm)

/-- The record of a value of scalars, host objects and arrays names no handle. -/
lemma Renders.handles_eq_nil (h : Renders a v r) (hv : v.Fits length depth) : r.handles = [] := by
  induction v using HostValue.array_induction generalizing r depth with
  | leaf v hleaf =>
    obtain ⟨hn, view, hview, hsays⟩ := h.leaf hleaf
    rw [Record.handles_of_view hview]
    cases hsays <;> first | rfl | (cases depth <;> cases hv)
  | array vs ih =>
    obtain ⟨rs, rfl, hrs⟩ := h
    cases depth with
    | zero => cases hv
    | succ depth =>
      rw [Record.handles_array, List.eq_nil_iff_forall_not_mem]
      intro g hg
      obtain ⟨r, hr, hg⟩ := Record.mem_handlesOfItems.1 hg
      obtain ⟨v, hm, hvr⟩ := hrs.exists_of_mem hr
      rw [ih v hm hvr (HostValue.allFit_iff.1 hv.2.2 v hm)] at hg
      cases hg

mutual
/-- Such a value becomes a record, unless the slots run out. -/
theorem encode_of_fits (bridge : Nat) : ∀ {length depth : Nat} (a : Arena Entry) (v : HostValue),
    v.Fits length depth → (encode bridge a v).1 ≠ .error (.interop .arenaExhausted) →
      ∃ r a', encode bridge a v = (.ok r, a')
  | _, _, a, .null, _, _ => ⟨_, _, rfl⟩
  | _, _, a, .bool _, _, _ => ⟨_, _, rfl⟩
  | _, _, a, .int _, _, _ => ⟨_, _, rfl⟩
  | _, _, a, .number _, _, _ => ⟨_, _, rfl⟩
  | _, _, a, .string _, _, _ => ⟨_, _, rfl⟩
  | _, depth, a, .date _, hv, _ => by cases depth <;> cases hv
  | _, depth, a, .foreign _, hv, _ => by cases depth <;> cases hv
  | _, 0, a, .array _, hv, _ => by cases hv
  | _, depth + 1, a, .array vs, ⟨_, hmax, hall⟩, hroom => by
    rw [encode, if_neg (Nat.not_lt.2 hmax)] at hroom ⊢
    obtain ⟨rs, a', hitems⟩ := encodeItems_of_allFit bridge a [] vs hall fun herror => by
      rw [show encodeItems bridge a [] vs = (_, (encodeItems bridge a [] vs).2) from
        Prod.ext herror rfl] at hroom
      exact hroom rfl
    exact ⟨_, _, by rw [hitems]⟩
  | _, depth, a, .object o, _, hroom => by
    rw [encode, pin] at hroom ⊢
    cases hadd : a.add (.object o) with
    | none =>
      rw [hadd] at hroom
      exact absurd rfl hroom
    | some x => exact ⟨_, _, rfl⟩

/-- Such values become records, unless the slots run out. -/
theorem encodeItems_of_allFit (bridge : Nat) : ∀ {length depth : Nat} (a : Arena Entry)
    (done : List Record) (vs : List HostValue), HostValue.AllFit length depth vs →
      (encodeItems bridge a done vs).1 ≠ .error (.interop .arenaExhausted) →
        ∃ rs a', encodeItems bridge a done vs = (.ok rs, a')
  | _, _, a, done, [], _, _ => ⟨_, _, by rw [encodeItems]⟩
  | _, _, a, done, v :: vs, hall, hroom => by
    rw [encodeItems] at hroom ⊢
    obtain ⟨r, a', hfirst⟩ := encode_of_fits bridge a v hall.1 fun herror => by
      rw [show encode bridge a v = (_, (encode bridge a v).2) from Prod.ext herror rfl] at hroom
      exact hroom rfl
    rw [hfirst] at hroom ⊢
    exact encodeItems_of_allFit bridge a' (r :: done) vs hall.2 hroom
end

/-- What comes back for such a value names no script object either. -/
lemma foreigns_rounded (hv : v.Fits length depth) : v.rounded.foreigns = [] := by
  induction v using HostValue.array_induction generalizing depth with
  | leaf v hleaf =>
    cases v with
    | array vs => exact absurd rfl (hleaf vs)
    | date t => cases depth <;> cases hv
    | foreign f => cases depth <;> cases hv
    | number x =>
      rw [HostValue.rounded]
      split
      · split <;> rfl
      · rfl
    | _ => rfl
  | array vs ih =>
    cases depth with
    | zero => cases hv
    | succ depth =>
      rw [HostValue.rounded, HostValue.roundedItems_eq_map, HostValue.foreigns,
        HostValue.foreignsOf_eq_flatMap, List.flatMap_map, List.flatMap_eq_nil_iff]
      exact fun v hm => ih v hm (HostValue.allFit_iff.1 hv.2.2 v hm)

/-! ### Decoding what comes back -/

variable {bridge next : Nat}

lemma decode_of_isScalar {view : View} (hr : r.view = .ok view) (hs : view.isScalar = true) :
    decode bridge a next r = ⟨plainValue a view, [], next⟩ := by
  have hleaf : decodeLeaf bridge a next r = ⟨plainValue a view, [], next⟩ := by
    rw [decodeLeaf, hr]
    cases view <;> first | rfl | cases hs
  cases r with
  | array items =>
    cases hr
    cases hs
  | plain => rw [decode, hleaf]
  | text => rw [decode, hleaf]

lemma gather_ok (vs : List HostValue) : gather (vs.map .ok) = .ok vs := by
  induction vs with
  | nil => rfl
  | cons v vs ih => rw [List.map_cons, gather, ih]

/-- What comes back for a record of a host value stands for the value, but for numbers that are
whole. -/
theorem Renders.decode_echo (h : Renders a v r) (hv : v.Fits length depth) (next : Nat) :
    decode bridge a next r.echo = ⟨.ok v.rounded, [], next⟩ := by
  induction v using HostValue.array_induction generalizing r depth next with
  | leaf v hleaf =>
    obtain ⟨hn, view, hview, hsays⟩ := h.leaf hleaf
    rw [Record.echo_of_view hn hview]
    cases hsays with
    | null => exact decode_of_isScalar Record.view_null rfl
    | bool b => exact decode_of_isScalar (Record.view_boolean b) rfl
    | int n => exact decode_of_isScalar (Record.view_integer n) rfl
    | number x =>
      rw [View.echo, Record.wholeNumber, Value.ofWhole, HostValue.rounded]
      cases x.toInt32? with
      | none => exact decode_of_isScalar (Record.view_number x) rfl
      | some i =>
        cases hx : x.isNegativeZero
        · exact decode_of_isScalar (Record.view_integer i) rfl
        · exact decode_of_isScalar (Record.view_number x) rfl
    | string s =>
      have hs : s.utf8ByteSize ≤ Record.maxLength := by cases depth <;> exact hv
      rw [View.echo, Record.clip_of_le hs,
        decode_of_isScalar (Record.view_string s) rfl, Record.clip_of_le hs]
      rfl
    | object hs =>
      rw [View.echo, decode_of_isScalar (Record.view_managed _) rfl, plainValue, hs]
      rfl
    | date t => cases depth <;> cases hv
    | foreign f => cases depth <;> cases hv
  | array vs ih =>
    obtain ⟨rs, rfl, hrs⟩ := h
    cases depth with
    | zero => cases hv
    | succ depth =>
      have hall := HostValue.allFit_iff.1 hv.2.2
      -- Each element comes back by itself, and uses up no number of a lease.
      have hitems : decodeItems bridge a next (Record.echoItems rs) =
          ⟨(vs.map HostValue.rounded).map .ok, [], next⟩ := by
        clear hv
        induction vs generalizing rs with
        | nil =>
          subst hrs
          rw [Record.echoItems, decodeItems]
          rfl
        | cons v vs ihs =>
          obtain ⟨r, rest, rfl, hr, hrest⟩ := hrs
          rw [Record.echoItems, decodeItems, ih v (List.mem_cons_self ..) hr
            (hall v (List.mem_cons_self ..)),
            ihs (fun w hw => ih w (List.mem_cons_of_mem _ hw)) rest hrest
              fun w hw => hall w (List.mem_cons_of_mem _ hw)]
          rfl
      rw [Record.echo, decode, hitems, decodedArray, gather_ok, HostValue.rounded,
        HostValue.roundedItems_eq_map]

end Bridge

end ScriptBridge
