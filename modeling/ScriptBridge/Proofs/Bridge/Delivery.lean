/-
# Values that script sends

What the host gets for a record of a script value: scalars as they are, the objects at the slots,
a lease for each script object, and lists of these.  Such a value becomes a record again, unless
the slots run out, and what script gets for that is what it sent: equal scalars, the same script
objects, new stand-ins for the same host objects, and copies of arrays.
-/
import ScriptBridge.Proofs.Bridge.Obstacles
import ScriptBridge.Proofs.Bridge.RoundTrip
import ScriptBridge.Proofs.Engine.Departure
import ScriptBridge.Proofs.Number.Whole

namespace ScriptBridge

open ScriptBridge.Bridge ScriptBridge.Host ScriptBridge.Script ScriptBridge.Table ScriptBridge.Wire

namespace Bridge

variable {b length depth : Nat} {a a' : Arena Entry} {t t' : Handles Ref} {c : Content}
  {cs : List Content} {v : HostValue} {vs : List HostValue} {r : Record} {rs : List Record}
  {f : ForeignObject}

/-! ### What the host gets -/

mutual
/-- A host value is what a script value consists of, with the objects at its slots and with leases
of a bridge for its script objects. -/
def Delivers (b : Nat) (a : Arena Entry) (t : Handles Ref) : Content → HostValue → Prop
  | .null, v => v = .null
  | .bool x, v => v = .bool x
  | .int n, v => v = .int n
  | .number x, v => v = .number x
  | .string s, v => v = .string s
  | .entry s, v => ∃ o, v = .object o ∧ a.get? s = some (.object o)
  | .object q, v => ∃ f, v = .foreign f ∧ f.bridge = b ∧ t.get? f.handle = some q
  | .array cs, v => ∃ vs, v = .array vs ∧ DeliversAll b a t cs vs

/-- Host values are what elements consist of, one by one. -/
def DeliversAll (b : Nat) (a : Arena Entry) (t : Handles Ref) : List Content →
    List HostValue → Prop
  | [], vs => vs = []
  | c :: cs, vs => ∃ v rest, vs = v :: rest ∧ Delivers b a t c v ∧ DeliversAll b a t cs rest
end

/-- The slots of what a value consists of have objects. -/
def Stocked (a : Arena Entry) (cs : List Content) : Prop :=
  ∀ s, .entry s ∈ cs → ∃ o, a.get? s = some (.object o)

lemma Stocked.of_cons (h : Stocked a (Content.leavesOf (c :: cs))) :
    Stocked a c.leaves ∧ Stocked a (Content.leavesOf cs) := by
  rw [Content.leavesOf] at h
  exact ⟨fun s hs => h s (List.mem_append_left _ hs), fun s hs => h s (List.mem_append_right _ hs)⟩

lemma decode_foreign (next : Nat) (g : Handle) :
    decode b a next (.foreign g) = ⟨.ok (.foreign ⟨next, g, b⟩), [], next + 1⟩ := by
  change decodeLeaf b a next (.foreign g) = _
  rw [decodeLeaf, Record.view_foreign]

lemma decode_of_spells_leaf (h : Engine.Spells t c r) (hc : ∀ cs, c ≠ .array cs)
    (hf : c.Fits length depth) (ha : Stocked a c.leaves) (next : Nat) :
    ∃ v n, decode b a next r = ⟨.ok v, [], n⟩ ∧ Delivers b a t c v := by
  cases c with
  | null => cases h; exact ⟨_, _, decode_of_isScalar Record.view_null rfl, rfl⟩
  | bool x => cases h; exact ⟨_, _, decode_of_isScalar (Record.view_boolean x) rfl, rfl⟩
  | int n => cases h; exact ⟨_, _, decode_of_isScalar (Record.view_integer n) rfl, rfl⟩
  | number x => cases h; exact ⟨_, _, decode_of_isScalar (Record.view_number x) rfl, rfl⟩
  | string s =>
    cases h
    have hs : s.utf8ByteSize ≤ Record.maxLength := by cases depth <;> exact hf
    refine ⟨.string s, next, ?_, rfl⟩
    rw [decode_of_isScalar (Record.view_string s) rfl, Record.clip_of_le hs]
    rfl
  | entry s =>
    cases h
    obtain ⟨o, ho⟩ := ha s (List.mem_singleton_self _)
    refine ⟨.object o, next, ?_, o, rfl, ho⟩
    rw [decode_of_isScalar (Record.view_managed s) rfl, plainValue, ho]
    rfl
  | object q =>
    obtain ⟨g, rfl, hg⟩ := h
    exact ⟨_, _, decode_foreign next g, _, rfl, rfl, hg⟩
  | array cs => exact absurd rfl (hc cs)

mutual
/-- **The host gets what a script value consists of**, if the slots of it have objects. -/
theorem decode_of_spells : ∀ {c : Content} {depth : Nat} {r : Record}, Engine.Spells t c r →
    c.Fits length depth → Stocked a c.leaves → ∀ next,
      ∃ v n, decode b a next r = ⟨.ok v, [], n⟩ ∧ Delivers b a t c v
  | .array cs, 0, _, _, hf, _, _ => hf.elim
  | .array cs, depth + 1, r, h, hf, ha, next => by
    obtain ⟨rs, rfl, hrs⟩ := h
    obtain ⟨vs, n, hdecode, hvs⟩ := decodeItems_of_spells hrs hf.2.2 ha next
    refine ⟨.array vs, n, ?_, vs, rfl, hvs⟩
    rw [decode, hdecode, decodedArray]
    dsimp only
    rw [gather_ok]
  | .null, _, _, h, hf, ha, next => decode_of_spells_leaf h nofun hf ha next
  | .bool _, _, _, h, hf, ha, next => decode_of_spells_leaf h nofun hf ha next
  | .int _, _, _, h, hf, ha, next => decode_of_spells_leaf h nofun hf ha next
  | .number _, _, _, h, hf, ha, next => decode_of_spells_leaf h nofun hf ha next
  | .string _, _, _, h, hf, ha, next => decode_of_spells_leaf h nofun hf ha next
  | .entry _, _, _, h, hf, ha, next => decode_of_spells_leaf h nofun hf ha next
  | .object _, _, _, h, hf, ha, next => decode_of_spells_leaf h nofun hf ha next

/-- The host gets what elements consist of. -/
theorem decodeItems_of_spells : ∀ {cs : List Content} {depth : Nat} {rs : List Record},
    Engine.SpellsAll t cs rs → Content.AllFit length depth cs → Stocked a (Content.leavesOf cs) →
      ∀ next, ∃ vs n, decodeItems b a next rs = ⟨vs.map .ok, [], n⟩ ∧ DeliversAll b a t cs vs
  | [], _, _, h, _, _, next => by
    cases h
    exact ⟨[], next, rfl, rfl⟩
  | c :: cs, depth, rs, h, hf, ha, next => by
    obtain ⟨r, rest, rfl, hr, hrest⟩ := h
    obtain ⟨hac, hacs⟩ := ha.of_cons
    obtain ⟨v, n, hdecode, hv⟩ := decode_of_spells hr hf.1 hac next
    obtain ⟨vs, n', hdecodes, hvs⟩ := decodeItems_of_spells hrest hf.2 hacs n
    refine ⟨v :: vs, n', ?_, v, vs, rfl, hv, hvs⟩
    rw [decodeItems, hdecode]
    dsimp only
    rw [hdecodes]
    rfl
end

/-! ### What the host has -/

mutual
/-- The leases are of the bridge, and their handles keep script objects. -/
lemma Delivers.foreigns : ∀ {c : Content} {v : HostValue}, Delivers b a t c v →
    ∀ f ∈ v.foreigns, f.bridge = b ∧ (t.get? f.handle).isSome
  | .null, _, rfl | .bool _, _, rfl | .int _, _, rfl | .number _, _, rfl | .string _, _, rfl
  | .entry _, _, ⟨_, rfl, _⟩ => nofun
  | .object q, _, ⟨f, rfl, hb, hf⟩ => by
    intro g hg
    obtain rfl := List.mem_singleton.1 hg
    exact ⟨hb, by rw [hf]; rfl⟩
  | .array _, _, ⟨_, rfl, h⟩ => DeliversAll.foreigns h

lemma DeliversAll.foreigns : ∀ {cs : List Content} {vs : List HostValue}, DeliversAll b a t cs vs →
    ∀ f ∈ HostValue.foreignsOf vs, f.bridge = b ∧ (t.get? f.handle).isSome
  | [], _, rfl => nofun
  | _ :: _, _, ⟨_, _, rfl, hv, hrest⟩ => fun f hf =>
    (List.mem_append.1 hf).elim (Delivers.foreigns hv f) (DeliversAll.foreigns hrest f)
end

mutual
/-- It stays the same as long as the handles keep their script objects. -/
lemma Delivers.mono : ∀ {c : Content} {v : HostValue}, Delivers b a t c v →
    (∀ f ∈ v.foreigns, t'.get? f.handle = t.get? f.handle) → Delivers b a t' c v
  | .null, _, h, _ | .bool _, _, h, _ | .int _, _, h, _ | .number _, _, h, _ | .string _, _, h, _
  | .entry _, _, h, _ => h
  | .object q, _, ⟨f, hv, hb, hf⟩, hk => by
    subst hv
    exact ⟨f, rfl, hb, (hk f (List.mem_singleton_self f)).trans hf⟩
  | .array _, _, ⟨vs, hv, h⟩, hk => by
    subst hv
    exact ⟨vs, rfl, DeliversAll.mono h hk⟩

lemma DeliversAll.mono : ∀ {cs : List Content} {vs : List HostValue}, DeliversAll b a t cs vs →
    (∀ f ∈ HostValue.foreignsOf vs, t'.get? f.handle = t.get? f.handle) → DeliversAll b a t' cs vs
  | [], _, h, _ => h
  | _ :: _, _, ⟨v, rest, hvs, hv, hrest⟩, hk => by
    subst hvs
    exact ⟨v, rest, rfl, hv.mono fun f hf => hk f (List.mem_append_left _ hf),
      hrest.mono fun f hf => hk f (List.mem_append_right _ hf)⟩
end

lemma DeliversAll.length_eq (h : DeliversAll b a t cs vs) : vs.length = cs.length := by
  induction cs generalizing vs with
  | nil => cases h; rfl
  | cons c cs ih =>
    obtain ⟨v, rest, rfl, -, hrest⟩ := h
    exact congrArg (· + 1) (ih hrest)

mutual
/-- A length field can count its arrays. -/
lemma Delivers.lengths_le : ∀ {c : Content} {depth : Nat} {v : HostValue}, Delivers b a t c v →
    c.Fits length depth → ∀ n ∈ v.lengths, n ≤ Record.maxLength
  | .null, _, _, rfl, _ | .bool _, _, _, rfl, _ | .int _, _, _, rfl, _ | .number _, _, _, rfl, _
  | .string _, _, _, rfl, _ | .entry _, _, _, ⟨_, rfl, _⟩, _ | .object _, _, _, ⟨_, rfl, _⟩, _ =>
    nofun
  | .array _, 0, _, _, hf => hf.elim
  | .array cs, depth + 1, _, ⟨vs, hv, h⟩, hf => by
    subst hv
    intro n hn
    rcases List.mem_cons.1 hn with rfl | hn
    · rw [h.length_eq]
      exact hf.2.1
    · exact DeliversAll.lengths_le h hf.2.2 n hn

lemma DeliversAll.lengths_le : ∀ {cs : List Content} {depth : Nat} {vs : List HostValue},
    DeliversAll b a t cs vs → Content.AllFit length depth cs →
      ∀ n ∈ HostValue.lengthsOf vs, n ≤ Record.maxLength
  | [], _, _, rfl, _ => nofun
  | _ :: _, _, _, ⟨_, _, rfl, hv, hrest⟩, hf => fun n hn =>
    (List.mem_append.1 hn).elim (hv.lengths_le hf.1 n) (hrest.lengths_le hf.2 n)
end

/-- Nothing but a lack of slots keeps it from becoming a record. -/
lemma Delivers.exists_encode (h : Delivers b a t c v) (hf : c.Fits length depth)
    (hroom : (encode b a' v).1 ≠ .error (.interop .arenaExhausted)) :
    ∃ r a'', encode b a' v = (.ok r, a'') := by
  cases hencode : encode b a' v with
  | mk result a'' =>
    cases result with
    | ok r => exact ⟨r, a'', rfl⟩
    | error e =>
      rw [hencode] at hroom
      cases bars_encode b a' v (congrArg Prod.fst hencode) with
      | stray hforeign hne => exact absurd (h.foreigns _ hforeign).1 hne
      | exhausted => exact absurd rfl hroom
      | long hn hmax => exact absurd (h.lengths_le hf _ hn) (Nat.not_le.2 hmax)

lemma isCalm_of_view {view : View} (hr : r.view = .ok view) (hn : ∀ rs, r ≠ .array rs)
    (hc : view.isCalm = true) : r.IsCalm := by
  cases r with
  | array rs => exact absurd rfl (hn rs)
  | plain | text =>
    intro w hw
    obtain rfl := Except.ok.inj (hr.symm.trans hw)
    exact hc

mutual
/-- No part of its record is a date or an error. -/
lemma Delivers.isCalm : ∀ {c : Content} {v : HostValue} {r : Record}, Delivers b a t c v →
    Renders a' v r → r.IsCalm
  | .null, _, _, rfl, rfl => isCalm_of_view Record.view_null nofun rfl
  | .bool x, _, _, rfl, rfl => isCalm_of_view (Record.view_boolean x) nofun rfl
  | .int n, _, _, rfl, rfl => isCalm_of_view (Record.view_integer n) nofun rfl
  | .number x, _, _, rfl, rfl => isCalm_of_view (Record.view_number x) nofun rfl
  | .string s, _, _, rfl, rfl => isCalm_of_view (Record.view_string s) nofun rfl
  | .entry _, _, _, ⟨_, rfl, _⟩, ⟨s, rfl, _⟩ => isCalm_of_view (Record.view_managed s) nofun rfl
  | .object _, _, _, ⟨f, rfl, _⟩, rfl => isCalm_of_view (Record.view_foreign f.handle) nofun rfl
  | .array _, _, _, ⟨_, rfl, h⟩, ⟨_, rfl, hrs⟩ => DeliversAll.areCalm h hrs

lemma DeliversAll.areCalm : ∀ {cs : List Content} {vs : List HostValue} {rs : List Record},
    DeliversAll b a t cs vs → RendersAll a' vs rs → Record.AreCalm rs
  | [], _, _, rfl, rfl => trivial
  | _ :: _, _, _, ⟨_, _, rfl, hv, hrest⟩, ⟨_, _, rfl, hr, hrs⟩ =>
    ⟨hv.isCalm hr, hrest.areCalm hrs⟩
end

lemma DeliversAll.getElem? (h : DeliversAll b a t cs vs) {i : Nat} (hc : cs[i]? = some c) :
    ∃ v, vs[i]? = some v ∧ Delivers b a t c v := by
  induction cs generalizing vs i with
  | nil => cases hc
  | cons d cs ih =>
    obtain ⟨v, rest, rfl, hv, hrest⟩ := h
    cases i with
    | zero =>
      cases hc
      exact ⟨v, rfl, hv⟩
    | succ i => exact ih hrest hc

lemma RendersAll.getElem? (h : RendersAll a vs rs) {i : Nat} (hv : vs[i]? = some v) :
    ∃ r, rs[i]? = some r ∧ Renders a v r := by
  induction vs generalizing rs i with
  | nil => cases hv
  | cons w vs ih =>
    obtain ⟨r, rest, rfl, hr, hrest⟩ := h
    cases i with
    | zero =>
      cases hv
      exact ⟨r, rfl, hr⟩
    | succ i => exact ih hrest hv

end Bridge

namespace Engine

open ScriptBridge.Bridge

variable {b : Nat} {h h' : Heap} {a a' : Arena Entry} {t : Handles Ref} {n : Ref} {c : Content}
  {v : HostValue} {r : Record} {w w' : Value}

/-! ### What script gets -/

/-- What script gets for a value that the host has had, on its heap and from its arena later: null
for what is nothing, the same boolean and string, an equal number, the very same script object, a
stand-in for the same host object, and a copy of an array. -/
inductive Alike (h : Heap) (a : Arena Entry) (h' : Heap) (a' : Arena Entry) : Value → Value → Prop
  | undefined : Alike h a h' a' .undefined .null
  | null : Alike h a h' a' .null .null
  | bool (b : Bool) : Alike h a h' a' (.bool b) (.bool b)
  | string (units : Text.Units) : Alike h a h' a' (.string units) (.string units)
  | number {v w : Value} (hv : v.asNumber.isSome) (hw : v.agrees w) : Alike h a h' a' v w
  | object {q : Ref} {o : Object} (hq : h.get? q = some o) (ho : o.entry = none)
    (hk : ∀ length, o.kind ≠ .array length) : Alike h a h' a' (.object q) (.object q)
  | entry {q q' : Ref} {o o' : Object} {s s' : Slot} {token : Ref} {p : HostObject}
    (hq : h.get? q = some o) (ho : o.entry = some s) (hs : a.get? s = some (.object p))
    (hq' : h'.get? q' = some o') (hk' : o'.kind = .proxy s' token) (ho' : o'.entry = some s')
    (hs' : a'.get? s' = some (.object p)) : Alike h a h' a' (.object q) (.object q')
  | array {q q' : Ref} {o o' : Object} {length : Nat} {vs ws : List Value}
    (hq : h.get? q = some o) (hk : o.kind = .array length) (hvs : vs.length = length)
    (helements : ∀ (i : Nat) v, vs[i]? = some v → Element h q i v)
    (hq' : h'.get? q' = some o') (hk' : o'.kind = .array length) (hws : ws.length = length)
    (helements' : ∀ (i : Nat) w, ws[i]? = some w → Element h' q' i w)
    (hitems : ∀ (i : Nat) v w, vs[i]? = some v → ws[i]? = some w → Alike h a h' a' v w) :
    Alike h a h' a' (.object q) (.object q')

/-- The value of a view that needs nothing but itself. -/
def plain? : View → Option Value
  | .null => some .null
  | .boolean b => some (.bool b)
  | .integer n => some (.int n)
  | .number x => some (.ofWhole x)
  | .string s => some (.text s)
  | _ => none

lemma Depicts.eq_of_plain? {view : View} (hd : Depicts n h t view w) (hw : plain? view = some w') :
    w = w' := by
  cases hd with
  | standIn hv | vacant hv | pinned hv => rcases hv with rfl | rfl <;> cases hw
  | date | empty | error => cases hw
  | _ => exact Option.some.inj hw

lemma Depicts.exists_standIn {s : Slot} (hd : Depicts n h t (.managedRef s) w) :
    ∃ q o token, w = .object q ∧ h.get? q = some o ∧ o.kind = .proxy s token ∧
    o.entry = some s := by
  cases hd with
  | standIn hv hq _ hk ho =>
    rcases hv with hv | hv <;> cases hv
    exact ⟨_, _, _, rfl, hq, hk, ho⟩
  | vacant hv | pinned hv => rcases hv with hv | hv <;> cases hv

lemma Depicts.get?_foreign {g : Handle} (hd : Depicts n h t (.foreignRef (some g)) w) :
    ∃ q, w = .object q ∧ t.get? g = some q := by
  cases hd with
  | pinned hv hq =>
    rcases hv with hv | hv <;> cases hv
    exact ⟨_, rfl, hq⟩
  | standIn hv | vacant hv => rcases hv with hv | hv <;> cases hv

/-- **What the host has got comes back to script.** -/
theorem Means.alike {length : Nat} (hm : Means h w c) {depth : Nat} (hf : c.Fits length depth)
    (hd : Delivers b a t c v) (hr : Renders a' v r) (hback : Mirrors n h' t r w') :
    Alike h a h' a' w w' := by
  induction hm generalizing v r w' depth with
  | undefined =>
    obtain rfl := hd
    obtain rfl := hr
    obtain rfl := (hback.depicts nofun Record.view_null).eq_of_plain? rfl
    exact .undefined
  | null =>
    obtain rfl := hd
    obtain rfl := hr
    obtain rfl := (hback.depicts nofun Record.view_null).eq_of_plain? rfl
    exact .null
  | bool x =>
    obtain rfl := hd
    obtain rfl := hr
    obtain rfl := (hback.depicts nofun (Record.view_boolean x)).eq_of_plain? rfl
    exact .bool x
  | int n =>
    obtain rfl := hd
    obtain rfl := hr
    obtain rfl := (hback.depicts nofun (Record.view_integer n)).eq_of_plain? rfl
    exact .number rfl (Value.agrees_int n)
  | number x =>
    obtain rfl := hd
    obtain rfl := hr
    obtain rfl := (hback.depicts nofun (Record.view_number x)).eq_of_plain? rfl
    exact .number rfl (Value.agrees_ofWhole x)
  | @string units s hs =>
    obtain rfl := hd
    obtain rfl := hr
    have hmax : s.utf8ByteSize ≤ Record.maxLength := by cases depth <;> exact hf
    obtain rfl := (hback.depicts nofun (Record.view_string s)).eq_of_plain? rfl
    rw [Record.clip_of_le hmax, Value.text, Text.Units.ofString_of_toString hs]
    exact .string units
  | entry hq ho =>
    obtain ⟨p, rfl, hs⟩ := hd
    obtain ⟨s', rfl, hs'⟩ := hr
    obtain ⟨q', o', token, rfl, hq', hk', ho'⟩ :=
      (hback.depicts nofun (Record.view_managed s')).exists_standIn
    exact .entry hq ho hs hq' hk' ho' hs'
  | object hq ho hk =>
    obtain ⟨f, rfl, -, hpinned⟩ := hd
    obtain rfl := hr
    obtain ⟨q', rfl, hq'⟩ := (hback.depicts nofun (Record.view_foreign f.handle)).get?_foreign
    obtain rfl := Option.some.inj (hpinned.symm.trans hq')
    exact .object hq ho hk
  -- Four things correspond element by element: the script array, what it consists of, what the host
  -- has got, and what comes back.
  | @array items values q o hq ho hk hlength helements hitems ih =>
    obtain ⟨vs, rfl, hvs⟩ := hd
    obtain ⟨rs, rfl, hrs⟩ := hr
    cases depth with
    | zero => cases hf
    | succ depth =>
    rw [Content.Fits] at hf
    cases hback with
    | leaf hn => exact absurd rfl (hn rs)
    | @array _ ws q' o' hq' hn' hk' ho' hlength' hown' hitems' =>
      have hsame : rs.length = items.length := hrs.length_eq.trans hvs.length_eq
      refine .array hq hk hlength helements hq' (hsame ▸ hk') (hlength'.trans hsame)
        (fun i w hw => .own hq' (hown' i w hw)) fun i v w hv hw => ?_
      have hi : i < items.length := hlength ▸ (List.getElem?_eq_some_iff.1 hv).1
      have hc := List.getElem?_eq_getElem hi
      obtain ⟨x, hx, hdx⟩ := hvs.getElem? hc
      obtain ⟨r, hr, hrx⟩ := hrs.getElem? hx
      exact ih i v _ hv hc (hf.2.2.of_mem (List.mem_of_getElem? hc)) hdx hrx (hitems' i r w hr hw)

end Engine

end ScriptBridge
