/-
# Values on their way to the host

What a script value consists of when it goes to the host: scalars, host entries, script objects
that stay where they are, and arrays of these, a missing element being null.  Such a value becomes
a record without any script seeing it, and each script object in it gets a handle of its own.
-/
import ScriptBridge.Proofs.Engine.Echo
import ScriptBridge.Proofs.Table.Handles

namespace ScriptBridge

open ScriptBridge.Number ScriptBridge.Script ScriptBridge.Table ScriptBridge.Wire

/-! ### What goes to the host -/

/-- What a script value consists of when it goes to the host. -/
inductive Script.Content where
  | null
  | bool (b : Bool)
  | int (n : Int32)
  | number (x : Binary64)
  | string (s : String)
  /-- What stands for the host entry at a slot. -/
  | entry (slot : Slot)
  /-- A script object that stays where it is. -/
  | object (q : Ref)
  /-- A copy of an array. -/
  | array (items : List Content)

namespace Script.Content

mutual
/-- The parts that are no arrays, in their order. -/
def leaves : Content → List Content
  | .array items => leavesOf items
  | c => [c]

/-- The parts of elements that are no arrays. -/
def leavesOf : List Content → List Content
  | [] => []
  | c :: cs => leaves c ++ leavesOf cs
end

/-- The script object that stays where it is. -/
def object? : Content → Option Ref
  | .object q => some q
  | _ => none

/-- The script objects that stay where they are, once for each time they occur. -/
def objects (c : Content) : List Ref := c.leaves.filterMap object?

/-- The script objects in elements. -/
def objectsOf (cs : List Content) : List Ref := (leavesOf cs).filterMap object?

mutual
/-- Arrays are nested no deeper and are no longer than given, and a length field can count all of
them and the bytes of all strings. -/
def Fits (length : Nat) : Nat → Content → Prop
  | 0, .array _ => False
  | depth + 1, .array items => items.length ≤ length ∧ items.length ≤ Record.maxLength ∧
    AllFit length depth items
  | _, .string s => s.utf8ByteSize ≤ Record.maxLength
  | _, _ => True

/-- The same for elements. -/
def AllFit (length : Nat) : Nat → List Content → Prop
  | _, [] => True
  | depth, c :: cs => Fits length depth c ∧ AllFit length depth cs
end

variable {c : Content} {cs : List Content} {length depth : Nat}

@[simp] lemma objectsOf_nil : objectsOf [] = [] := rfl

@[simp] lemma objectsOf_cons : objectsOf (c :: cs) = c.objects ++ objectsOf cs := by
  rw [objectsOf, leavesOf, List.filterMap_append]
  rfl

lemma objects_array : (array cs).objects = objectsOf cs := by
  rw [objects, leaves]
  rfl

lemma mem_objectsOf {q : Ref} (hc : c ∈ cs) (hq : q ∈ c.objects) : q ∈ objectsOf cs := by
  induction cs with
  | nil => cases hc
  | cons d ds ih =>
    rw [objectsOf_cons, List.mem_append]
    rcases List.mem_cons.1 hc with rfl | hc
    · exact .inl hq
    · exact .inr (ih hc)

lemma AllFit.of_mem (hf : AllFit length depth cs) (hc : c ∈ cs) : c.Fits length depth := by
  induction cs with
  | nil => cases hc
  | cons d ds ih =>
    rw [AllFit] at hf
    rcases List.mem_cons.1 hc with rfl | hc
    · exact hf.1
    · exact ih hf.2 hc

end Script.Content

namespace Engine

variable {e e' : Engine} {h h' : Heap} {t t' : Handles Ref} {r : Record} {v w : Value} {c : Content}
  {cs : List Content} {base : List Frame} {q : Ref} {i : Nat} {length : Nat}

/-! ### What a value consists of -/

/-- What script reads as an element of an array: the value of the array's own element, or undefined
where neither the array nor anything that it inherits from has such an element. -/
inductive Element (h : Heap) (q : Ref) (i : Nat) : Value → Prop
  | own {o : Object} {v : Value} (hq : h.get? q = some o)
    (ho : o.own? (.index i) = some (.data v)) : Element h q i v
  | hole (hf : h.find q (.index i) = .nothing) : Element h q i .undefined

/-- What a script value consists of when it goes to the host. -/
inductive Means (h : Heap) : Value → Content → Prop
  | undefined : Means h .undefined .null
  | null : Means h .null .null
  | bool (b : Bool) : Means h (.bool b) (.bool b)
  | int (n : Int32) : Means h (.int n) (.int n)
  | number (x : Binary64) : Means h (.number x) (.number x)
  | string {units : Text.Units} {s : String} (hs : units.toString = .ok s) :
    Means h (.string units) (.string s)
  | entry {q : Ref} {o : Object} {s : Slot} (hq : h.get? q = some o) (ho : o.entry = some s) :
    Means h (.object q) (.entry s)
  | object {q : Ref} {o : Object} (hq : h.get? q = some o) (ho : o.entry = none)
    (hk : ∀ length, o.kind ≠ .array length) : Means h (.object q) (.object q)
  | array {items : List Content} (vs : List Value) {q : Ref} {o : Object} (hq : h.get? q = some o)
    (ho : o.entry = none) (hk : o.kind = .array items.length) (hlength : vs.length = items.length)
    (helements : ∀ (i : Nat) v, vs[i]? = some v → Element h q i v)
    (hitems : ∀ (i : Nat) v c, vs[i]? = some v → items[i]? = some c → Means h v c) :
    Means h (.object q) (.array items)

/-- An object goes to the host as itself: the class of dates is in its place, and the object is no
instance of it. -/
def StaysPut (e : Engine) (q : Ref) : Prop :=
  e.isIntact .date = true ∧ e.isHeir Intrinsic.dateParent q = false

/-! ### Finding out what a value consists of -/

/-- What script reads as an element of an array, if that runs no script. -/
def element? (h : Heap) (q : Ref) (i : Nat) : Option Value :=
  match (h.get? q).bind (·.own? (.index i)), h.find q (.index i) with
  | some (.data v), _ => some v
  | none, .nothing => some .undefined
  | _, _ => none

lemma element_of_element? (he : element? h q i = some v) : Element h q i v := by
  unfold element? at he
  split at he
  · next hown =>
    obtain rfl := Option.some.inj he
    obtain ⟨o, hq, ho⟩ := Option.bind_eq_some_iff.1 hown
    exact .own hq ho
  · next hfind =>
    obtain rfl := Option.some.inj he
    exact .hole hfind
  · cases he

/-- What a script value consists of, if its arrays are nested less deep than given. -/
def content? (h : Heap) : Nat → Value → Option Content
  | 0, _ => none
  | _ + 1, .undefined | _ + 1, .null => some .null
  | _ + 1, .bool b => some (.bool b)
  | _ + 1, .int n => some (.int n)
  | _ + 1, .number x => some (.number x)
  | _ + 1, .string units => units.toString.toOption.map .string
  | _ + 1, .symbol .. | _ + 1, .bigint _ => none
  | depth + 1, .object q =>
    (h.get? q).bind fun o =>
      match o.entry, o.kind with
      | some s, _ => some (.entry s)
      | none, .array length =>
        let items := (List.range length).map fun i => (element? h q i).bind (content? h depth)
        if items.all Option.isSome then some (.array (items.map (·.getD .null))) else none
      | none, _ => some (.object q)

/-- What is found out is what a value consists of. -/
theorem means_of_content? {depth : Nat} (hc : content? h depth v = some c) : Means h v c := by
  induction depth generalizing v c with
  | zero => cases hc
  | succ depth ih =>
    cases v with
    | undefined => cases hc; exact .undefined
    | null => cases hc; exact .null
    | bool b => cases hc; exact .bool b
    | int n => cases hc; exact .int n
    | number x => cases hc; exact .number x
    | string units =>
      rw [content?, Option.map_eq_some_iff] at hc
      obtain ⟨s, hs, rfl⟩ := hc
      exact .string (by cases hu : units.toString <;> rw [hu] at hs <;> cases hs; rfl)
    | symbol | bigint => cases hc
    | object q =>
      rw [content?] at hc
      obtain ⟨o, hq, hc⟩ := Option.bind_eq_some_iff.1 hc
      split at hc
      · next s hs =>
        cases hc
        exact .entry hq hs
      · next length hs hk =>
        dsimp only at hc
        split at hc
        · next hall =>
          cases hc
          -- Every element has been found and looked into.
          have hitem : ∀ i < length, ∃ w d, element? h q i = some w ∧ content? h depth w = some d :=
            fun i hi => by
              have hsome := List.all_eq_true.1 hall _
                (List.mem_map_of_mem (List.mem_range.2 hi))
              obtain ⟨d, hd⟩ := Option.isSome_iff_exists.1 hsome
              obtain ⟨w, hw, hd⟩ := Option.bind_eq_some_iff.1 hd
              exact ⟨w, d, hw, hd⟩
          refine .array ((List.range length).map fun i => (element? h q i).getD .undefined) hq hs
            (by simpa using hk) (by simp) (fun i w hw => ?_) fun i w d hw hd => ?_
          · obtain ⟨hi, rfl⟩ := List.getElem?_eq_some_iff.1 hw
            rw [List.length_map, List.length_range] at hi
            obtain ⟨w, d, hw, -⟩ := hitem i hi
            rw [List.getElem_map, List.getElem_range, hw]
            exact element_of_element? hw
          · obtain ⟨hi, rfl⟩ := List.getElem?_eq_some_iff.1 hw
            obtain ⟨hi', rfl⟩ := List.getElem?_eq_some_iff.1 hd
            rw [List.length_map, List.length_range] at hi
            obtain ⟨w, d, hw, hd⟩ := hitem i hi
            simp only [List.getElem_map, List.getElem_range, hw, Option.getD_some,
              Option.bind_some, hd]
            exact ih hd
        · cases hc
      · next hs hk =>
        cases hc
        exact .object hq hs fun length heq => hk length heq

/-! ### Smaller heaps -/

/-- A search among fewer objects that has no more time finds nothing either. -/
lemma search_eq_nothing {key : Key} (hsub : ∀ q o, h'.get? q = some o → h.get? q = some o)
    {fuel fuel' : Nat} (hle : fuel' ≤ fuel) (hf : h.search key fuel q = .nothing) :
    h'.search key fuel' q = .nothing := by
  induction fuel' generalizing fuel q with
  | zero => rfl
  | succ fuel' ih =>
    obtain ⟨fuel, rfl⟩ := Nat.exists_eq_add_of_le' (Nat.lt_of_lt_of_le (Nat.succ_pos _) hle)
    rw [Heap.search] at hf ⊢
    cases hq : h'.get? q with
    | none => rfl
    | some o =>
      rw [hsub q o hq] at hf
      dsimp only at hf ⊢
      split at hf <;> first | cases hf | skip
      · exact ih (Nat.succ_le_succ_iff.1 hle) hf
      · rfl

lemma length_objects_le (hs : h'.Sound) (hsub : ∀ q o, h'.get? q = some o → h.get? q = some o) :
    h'.objects.length ≤ h.objects.length := by
  have hkeys : h'.objects.map Prod.fst ⊆ h.objects.map Prod.fst := fun q hq => by
    obtain ⟨⟨p, o⟩, hm, rfl⟩ := List.mem_map.1 hq
    exact List.mem_map_of_mem (Heap.mem_of_get? (hsub p o (hs.get?_of_mem hm)))
  simpa using (List.subperm_of_subset hs.nodup hkeys).length_le

/-- Among fewer objects, none is an heir that was none. -/
lemma isHeirWithin_of_sub {ancestor : Ref}
    (hsub : ∀ q o, h'.get? q = some o → h.get? q = some o) {fuel fuel' : Nat} (hle : fuel' ≤ fuel)
    (hf : isHeirWithin h ancestor fuel q = false) : isHeirWithin h' ancestor fuel' q = false := by
  induction fuel' generalizing fuel q with
  | zero => rfl
  | succ fuel' ih =>
    obtain ⟨fuel, rfl⟩ := Nat.exists_eq_add_of_le' (Nat.lt_of_lt_of_le (Nat.succ_pos _) hle)
    rw [isHeirWithin] at hf ⊢
    cases hq : h'.get? q with
    | none => rfl
    | some o =>
      rw [hsub q o hq] at hf
      dsimp only [Option.bind_some] at hf ⊢
      split at hf
      · rfl
      · rw [Bool.or_eq_false_iff] at hf ⊢
        exact hf.imp_right (ih (Nat.succ_le_succ_iff.1 hle))

lemma Spares.length_le (hs : e.Spares h) : h.objects.length ≤ e.heap.objects.length :=
  length_objects_le hs.sound hs.sub

lemma Spares.element (hs : e.Spares h) (he : Element e.heap q i v) (hq : e.Reached q) :
    Element h q i v := by
  cases he with
  | own ho hown => exact .own ((hs.get? q hq).trans ho) hown
  | hole hf => exact .hole (search_eq_nothing hs.sub (Nat.succ_le_succ hs.length_le) hf)

/-- A value goes on to mean the same as long as it can be reached. -/
lemma Spares.means (hs : e.Spares h) (hm : Means e.heap v c) (hv : ∀ q ∈ v.refs, e.Reached q) :
    Means h v c := by
  induction hm with
  | undefined => exact .undefined
  | null => exact .null
  | bool b => exact .bool b
  | int n => exact .int n
  | number x => exact .number x
  | string hunits => exact .string hunits
  | @entry q o s hq ho => exact .entry ((hs.get? q (hv q (List.mem_cons_self ..))).trans hq) ho
  | @object q o hq ho hk =>
    exact .object ((hs.get? q (hv q (List.mem_cons_self ..))).trans hq) ho hk
  | @array items vs q o hq ho hk hlength helements hitems ih =>
    have hreached := hv q (List.mem_cons_self ..)
    refine .array vs ((hs.get? q hreached).trans hq) ho hk hlength
      (fun i v hi => hs.element (helements i v hi) hreached) fun i v c hi hc => ih i v c hi hc ?_
    intro p hp
    cases helements i v hi with
    | own hq' hown =>
      obtain rfl := Option.some.inj (hq.symm.trans hq')
      exact .step hreached hq (refs_subset_of_own? hown hp)
    | hole hf => cases hp

lemma Spares.isIntact (hs : e.Spares h) (k : ObjectClass) :
    ({ e with heap := h } : Engine).isIntact k = e.isIntact k := by
  unfold Engine.isIntact
  rw [show ({ e with heap := h } : Engine).heap.get? Intrinsic.global = e.heap.get? Intrinsic.global
    from hs.get? _ (reached_of_isIntrinsic e Intrinsic.global_lt)]

lemma Spares.staysPut (hs : e.Spares h) (hp : e.StaysPut q) :
    ({ e with heap := h, released := [] } : Engine).StaysPut q :=
  ⟨(hs.isIntact .date).trans hp.1,
    isHeirWithin_of_sub hs.sub (Nat.succ_le_succ hs.length_le) hp.2⟩

/-! ### Becoming a record -/

mutual
/-- A record says what a script value consists of, where script objects have handles. -/
def Spells (t : Handles Ref) : Content → Record → Prop
  | .null, r => r = .null
  | .bool b, r => r = .boolean b
  | .int n, r => r = .integer n
  | .number x, r => r = .number x
  | .string s, r => r = .string s
  | .entry s, r => r = .managed s
  | .object q, r => ∃ g, r = .foreign g ∧ t.get? g = some q
  | .array cs, r => ∃ rs, r = .array rs ∧ SpellsAll t cs rs

/-- Records say what elements consist of, one by one. -/
def SpellsAll (t : Handles Ref) : List Content → List Record → Prop
  | [], rs => rs = []
  | c :: cs, rs => ∃ r rest, rs = r :: rest ∧ Spells t c r ∧ SpellsAll t cs rest
end

mutual
/-- A record goes on to say the same when more handles are handed out. -/
lemma Spells.mono (ht : ∀ g q, t.get? g = some q → t'.get? g = some q) :
    ∀ {c : Content} {r : Record}, Spells t c r → Spells t' c r
  | .null, _, h | .bool _, _, h | .int _, _, h | .number _, _, h | .string _, _, h
  | .entry _, _, h => h
  | .object q, _, ⟨g, hr, hg⟩ => ⟨g, hr, ht g q hg⟩
  | .array _, _, ⟨rs, hr, hrs⟩ => ⟨rs, hr, SpellsAll.mono ht hrs⟩

lemma SpellsAll.mono (ht : ∀ g q, t.get? g = some q → t'.get? g = some q) :
    ∀ {cs : List Content} {rs : List Record}, SpellsAll t cs rs → SpellsAll t' cs rs
  | [], _, h => h
  | _ :: _, _, ⟨r, rest, hrs, hr, hrest⟩ => ⟨r, rest, hrs, hr.mono ht, hrest.mono ht⟩
end

lemma Lasting.mono (hl : Lasting h t base) (ht : t.values ⊆ t'.values) : Lasting h t' base :=
  fun q o hq => (hl q o hq).imp_right (.imp_right (.imp_left fun hm => ht hm))

/-- An element is read without any script seeing it. -/
lemma proceed_read_element {o : Object} (hq : e.heap.get? q = some o) (hk : o.kind = .array length)
    (he : Element e.heap q i v) (st : List Frame) :
    (e.posed st (.read (.object q) (.index i))).proceed = (e.posed st (.ret v), .silent) := by
  cases he with
  | own hq' ho =>
    obtain rfl := Option.some.inj (hq.symm.trans hq')
    exact proceed_own (e := e.posed st (.read (.object q) (.index i))) rfl hq
      (fun slot token h => by rw [hk] at h; cases h) ho
  | hole hf =>
    change ((e.posed st (.read (.object q) (.index i))).giveFound (.object q) (.index i)
      (e.heap.find q (.index i)), Event.silent) = _
    rw [hf]
    rfl

lemma encodeObject_entry {o : Object} {s : Slot} {depth : Nat} (hq : e.heap.get? q = some o)
    (ho : o.entry = some s) : e.encodeObject q depth = e.goto (.encoded (.managed s)) := by
  rw [encodeObject, hq, Option.bind_some, ho]

lemma encodeObject_object {o : Object} {g : Handle} {depth : Nat} (hq : e.heap.get? q = some o)
    (ho : o.entry = none) (hk : ∀ length, o.kind ≠ .array length) (hput : e.StaysPut q)
    (hi : e.handles.insert q = some (g, t)) :
    e.encodeObject q depth = { e with handles := t, control := .encoded (.foreign g) } := by
  have hinstance : e.encodeInstance q (e.isHeir Intrinsic.dateParent q) =
      { e with handles := t, control := .encoded (.foreign g) } := by
    rw [hput.2, encodeInstance, if_neg Bool.false_ne_true, pin, hi]
    rfl
  rw [encodeObject, hq, Option.bind_some, ho, Option.map_some]
  cases hkind : o.kind with
  | array length => exact absurd hkind (hk length)
  | _ =>
    dsimp only
    rw [if_pos hput.1, hinstance]

/-- A part that is no array becomes a record. -/
lemma Means.encodes_leaf {depth : Nat} (hm : Means e.heap w c) (hc : ∀ items, c ≠ .array items)
    (hr : e.released = []) (hput : ∀ q ∈ c.objects, e.StaysPut q) (hl : Lasting e.heap t base)
    (ht : t.IsIndexed) (hpins : t.enterAll c.objects = some t') :
    ∃ r, Spells t' c r ∧ ∀ l : List Frame,
      Runs (({ e with handles := t } : Engine).posed (l ++ base) (.encode w depth))
        (({ e with handles := t' } : Engine).posed (l ++ base) (.encoded r)) := by
  have hsame : c.objects = [] → t' = t := fun hnil => by
    rw [hnil] at hpins
    exact (Option.some.inj hpins).symm
  have hstep : ∀ {r},
      (∀ st, (({ e with handles := t } : Engine).posed st (.encode w depth)).encodeStep
      w depth = ({ e with handles := t' } : Engine).posed st (.encoded r)) → ∀ l : List Frame,
      Runs (({ e with handles := t } : Engine).posed (l ++ base) (.encode w depth))
        (({ e with handles := t' } : Engine).posed (l ++ base) (.encoded r)) :=
    fun heq l => runs_posed hl hr (congrArg (·, Event.silent) (heq _))
  cases hm with
  | undefined | null | bool | int | number =>
    obtain rfl := hsame rfl
    exact ⟨_, rfl, hstep fun st => rfl⟩
  | string hs =>
    obtain rfl := hsame rfl
    refine ⟨_, rfl, hstep fun st => ?_⟩
    rw [encodeStep, hs]
    rfl
  | @entry q o s hq ho =>
    obtain rfl := hsame rfl
    exact ⟨_, rfl, hstep fun st => encodeObject_entry
      (e := ({ e with handles := t' } : Engine).posed st (.encode (.object q) depth)) hq ho⟩
  | @object q o hq ho hk =>
    obtain ⟨⟨g, t₁⟩, hi, hnil⟩ := Option.bind_eq_some_iff.1 hpins
    cases hnil
    exact ⟨.foreign g, ⟨g, rfl, by rw [Handles.get?_insert ht hi, if_pos rfl]⟩,
      hstep fun st => encodeObject_object
        (e := ({ e with handles := t } : Engine).posed st (.encode (.object q) depth)) hq ho hk
        (hput q (List.mem_singleton_self q)) hi⟩
  | array => exact absurd rfl (hc _)

/-- The elements of an array become records one after the other. -/
lemma exists_elements {items : List Content} {vs : List Value} (depth : Nat) {o : Object}
    (hr : e.released = []) (hq : e.heap.get? q = some o) (hk : o.kind = .array items.length)
    (hlength : vs.length = items.length)
    (helements : ∀ (i : Nat) v, vs[i]? = some v → Element e.heap q i v)
    (hitems : ∀ (i : Nat) v c, vs[i]? = some v → items[i]? = some c → ∀ {t t' : Handles Ref},
      Lasting e.heap t base → t.IsIndexed → t.enterAll c.objects = some t' →
        ∃ r, Spells t' c r ∧ ∀ l : List Frame,
          Runs (({ e with handles := t } : Engine).posed (l ++ base) (.encode v (depth + 1)))
            (({ e with handles := t' } : Engine).posed (l ++ base) (.encoded r)))
    (left : List Content) (index : Nat) (hleft : items.drop index = left) (done : List Record)
    {t t' : Handles Ref} (hl : Lasting e.heap t base) (ht : t.IsIndexed)
    (hpins : t.enterAll (Content.objectsOf left) = some t') :
    ∃ rs, SpellsAll t' left rs ∧ ∀ (l : List Frame) (k : Control),
      Runs ((({ e with handles := t } : Engine).posed (l ++ base) k).nextElement q depth
          items.length index done)
        (({ e with handles := t' } : Engine).posed (l ++ base)
          (.encoded (.array (done.reverse ++ rs)))) := by
  induction left generalizing index done t with
  | nil =>
    cases hpins
    refine ⟨[], rfl, fun l k => ?_⟩
    rw [nextElement, if_neg (Nat.not_lt.2 (List.drop_eq_nil_iff.1 hleft)), List.append_nil]
    exact .refl
  | cons c left ih =>
    have hget : items[index]? = some c := by
      rw [← Nat.add_zero index, ← List.getElem?_drop, hleft]
      rfl
    obtain ⟨hindex, -⟩ := List.getElem?_eq_some_iff.1 hget
    obtain ⟨v, hv⟩ : ∃ v, vs[index]? = some v := ⟨_, List.getElem?_eq_getElem (hlength ▸ hindex)⟩
    rw [Content.objectsOf_cons, Handles.enterAll_append] at hpins
    obtain ⟨t₁, hfirst, hrest⟩ := Option.bind_eq_some_iff.1 hpins
    have hgrows := Handles.grows_enterAll ht hfirst
    have hl₁ := hl.mono hgrows.values
    obtain ⟨r, hspells, hruns⟩ := hitems index v c hv hget hl ht hfirst
    have hleft' : items.drop (index + 1) = left := by
      rw [← List.drop_drop, hleft]
      rfl
    obtain ⟨rs, hspells', hruns'⟩ := ih (index + 1) hleft' (r :: done) hl₁ hgrows.indexed hrest
    refine ⟨r :: rs, ⟨r, rs, rfl, hspells.mono (Handles.grows_enterAll hgrows.indexed hrest).get?,
      hspells'⟩, fun l k => ?_⟩
    have hread := proceed_read_element (e := { e with handles := t }) hq hk (helements index v hv)
    have hrest' := hruns' l k
    rw [List.reverse_cons, List.append_assoc] at hrest'
    have hr₁ : ({ e with handles := t₁ } : Engine).released = [] := hr
    exact .trans (runs_element (e := { e with handles := t }) hl hr hl₁ hr₁ hindex hread hruns l)
      hrest'

/-- **A value becomes a record that says what it consists of**, without any script seeing it. Each
script object in it gets a handle. -/
theorem Means.encodes (hm : Means e.heap w c) (hr : e.released = [])
    (hput : ∀ q ∈ c.objects, e.StaysPut q) (room depth : Nat) (hroom : depth + room ≤ e.maxDepth)
    (hf : c.Fits e.maxLength room) {t t' : Handles Ref} (hl : Lasting e.heap t base)
    (ht : t.IsIndexed) (hpins : t.enterAll c.objects = some t') :
    ∃ r, Spells t' c r ∧ ∀ l : List Frame,
      Runs (({ e with handles := t } : Engine).posed (l ++ base) (.encode w depth))
        (({ e with handles := t' } : Engine).posed (l ++ base) (.encoded r)) := by
  induction hm generalizing room depth t t' with
  | @array items vs q o hq ho hk hlength helements hitems ih =>
    cases room with
    | zero => cases hf
    | succ room =>
      rw [Content.Fits] at hf
      obtain ⟨hle, hmax, hf⟩ := hf
      rw [Content.objects_array] at hput hpins
      obtain ⟨rs, hspells, hruns⟩ := exists_elements depth hr hq hk hlength helements
        (fun i v c hi hc t t' hl ht hpins => ih i v c hi hc
          (fun q hq => hput q (Content.mem_objectsOf (List.mem_of_getElem? hc) hq)) room (depth + 1)
          (by omega) (hf.of_mem (List.mem_of_getElem? hc)) hl ht hpins)
        items 0 rfl [] hl ht hpins
      refine ⟨.array rs, ⟨rs, rfl, hspells⟩, fun l => .trans (runs_posed hl hr ?_)
        (hruns l (.encode (.object q) depth))⟩
      exact congrArg (·, Event.silent) (encodeObject_array
        (e := ({ e with handles := t } : Engine).posed (l ++ base) (.encode (.object q) depth))
        hq ho
        hk (show depth < e.maxDepth by omega) hle hmax)
  | undefined => exact encodes_leaf .undefined nofun hr hput hl ht hpins
  | null => exact encodes_leaf .null nofun hr hput hl ht hpins
  | bool b => exact encodes_leaf (.bool b) nofun hr hput hl ht hpins
  | int n => exact encodes_leaf (.int n) nofun hr hput hl ht hpins
  | number x => exact encodes_leaf (.number x) nofun hr hput hl ht hpins
  | string hs => exact encodes_leaf (.string hs) nofun hr hput hl ht hpins
  | entry hq ho => exact encodes_leaf (.entry hq ho) nofun hr hput hl ht hpins
  | object hq ho hk => exact encodes_leaf (.object hq ho hk) nofun hr hput hl ht hpins

end Engine

end ScriptBridge
