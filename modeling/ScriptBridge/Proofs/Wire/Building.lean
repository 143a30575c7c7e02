/-
# Building records

A value of the format is a leaf of one of eleven kinds, or an array of values.  Its record is built
by the constructor of its kind; an array starts as one of nulls, and then positions of it, or of
arrays within it, are written, in any order and any number of times.  What is built in this way is
read back as it was built: a position that was written says what was written last, any other null.
-/
import Mathlib.Data.List.Forall2
import Mathlib.Data.List.Induction
import ScriptBridge.Proofs.Wire.Leaves
import ScriptBridge.Proofs.Wire.Reading

namespace ScriptBridge.Wire

open ScriptBridge.Number

/-! ### Values of the format -/

/-- A value without elements. -/
inductive Leaf where
  | null
  | boolean (b : Bool)
  | integer (n : Int32)
  | number (x : Binary64)
  | string (s : String)
  | date (millis : Binary64)
  | managedRef (slot : Slot)
  | managedError (slot : Slot)
  | foreignRef (handle : Handle)
  | foreignError (handle : Handle)
  | unknownError (message : Option String)
  deriving DecidableEq

/-- A value of the format, all the way down. -/
inductive Tree where
  | leaf (l : Leaf)
  | array (items : List Tree)

/-- The record that the constructor of its kind makes of a leaf. -/
def Leaf.record : Leaf → Record
  | null => .null
  | boolean b => .boolean b
  | integer n => .integer n
  | number x => .number x
  | string s => .string s
  | date millis => .date millis
  | managedRef slot => .managed slot
  | managedError slot => .managedError slot
  | foreignRef handle => .foreign handle
  | foreignError handle => .foreignError handle
  | unknownError message => .unknownError message

/-- The bytes that a leaf keeps in a buffer. -/
def Leaf.size : Leaf → Nat
  | string s => s.utf8ByteSize
  | unknownError (some s) => s.utf8ByteSize
  | _ => 0

/-- What a length field is to count: the bytes of a text, or the elements of an array. -/
def Tree.size : Tree → Nat
  | leaf l => l.size
  | array ts => ts.length

/-- A length field can count what each layer of a value keeps in a buffer. -/
inductive Tree.Fits : Tree → Prop
  | leaf {l : Leaf} (hl : l.size ≤ Record.maxLength) : Fits (.leaf l)
  | array {ts : List Tree} (hlength : ts.length ≤ Record.maxLength) (hts : ∀ t ∈ ts, Fits t) :
    Fits (.array ts)

namespace Tree

variable {t x : Tree} {ts : List Tree} {i : Nat} {path rest other : List Nat}

/-- The elements of an array. -/
def items : Tree → List Tree
  | leaf _ => []
  | array ts => ts

/-- The value at the place that indices lead to, one array after the other. -/
def at? (t : Tree) : List Nat → Option Tree
  | [] => some t
  | i :: path => t.items[i]?.bind fun u => u.at? path

/-- The value with another one at the place that indices lead to, if there is such a place. -/
def put (t : Tree) (path : List Nat) (x : Tree) : Tree :=
  match path, t with
  | [], _ => x
  | _ :: _, leaf l => leaf l
  | i :: path, array ts => array (ts.modify i fun u => u.put path x)

@[simp] lemma at?_nil (t : Tree) : t.at? [] = some t := rfl

@[simp] lemma put_nil (t x : Tree) : t.put [] x = x := by
  cases t <;> rfl

lemma at?_cons : t.at? (i :: path) = t.items[i]?.bind fun u => u.at? path := rfl

lemma items_put : (t.put (i :: path) x).items = t.items.modify i fun u => u.put path x := by
  cases t with
  | leaf l => exact (List.modify_nil _ _).symm
  | array ts => rfl

/-- A value that fits still does after one that fits was written to it. -/
lemma Fits.put (ht : t.Fits) (hx : x.Fits) : (t.put path x).Fits := by
  induction path generalizing t with
  | nil => exact (put_nil t x).symm ▸ hx
  | cons i path ih =>
    cases ht with
    | leaf hl => exact .leaf hl
    | @array ts hlength hts =>
      refine .array (by rwa [List.length_modify]) fun u hu => ?_
      obtain ⟨j, hj, rfl⟩ := List.getElem_of_mem hu
      rw [List.getElem_modify]
      split
      · exact ih (hts _ (List.getElem_mem _))
      · exact hts _ (List.getElem_mem _)

/-- At a place that was written, and below it, there is what was written. -/
theorem at?_put_append (h : (t.at? path).isSome) :
    (t.put path x).at? (path ++ rest) = x.at? rest := by
  induction path generalizing t with
  | nil => rw [put_nil, List.nil_append]
  | cons i path ih =>
    rw [at?_cons] at h
    obtain ⟨u, hu⟩ : ∃ u, t.items[i]? = some u := by
      cases hi : t.items[i]? with
      | none => rw [hi] at h; cases h
      | some u => exact ⟨u, rfl⟩
    rw [hu, Option.bind_some] at h
    rw [List.cons_append, at?_cons, items_put, List.getElem?_modify_eq, hu]
    exact ih h

/-- A write changes no place but those above and below. -/
theorem at?_put_of_disjoint (h : ¬ path <+: other) (h' : ¬ other <+: path) :
    (t.put path x).at? other = t.at? other := by
  induction path generalizing t other with
  | nil => exact absurd List.nil_prefix h
  | cons i path ih =>
    cases other with
    | nil => exact absurd List.nil_prefix h'
    | cons j other =>
      rw [at?_cons, at?_cons, items_put]
      by_cases hij : i = j
      · subst hij
        rw [List.getElem?_modify_eq]
        cases t.items[i]? with
        | none => rfl
        | some u =>
          refine ih (fun hp => h ?_) (fun hp => h' ?_)
          · exact List.cons_prefix_cons.2 ⟨rfl, hp⟩
          · exact List.cons_prefix_cons.2 ⟨rfl, hp⟩
      · rw [List.getElem?_modify_ne _ _ hij]

end Tree

/-! ### Reading all layers -/

/-- The leaf that a view without elements gives.  The empty handle is none. -/
def View.leaf? : View → Option Leaf
  | .null => some .null
  | .boolean b => some (.boolean b)
  | .integer n => some (.integer n)
  | .number x => some (.number x)
  | .string s => some (.string s)
  | .date millis => some (.date millis)
  | .array _ => none
  | .managedRef slot => some (.managedRef slot)
  | .managedError slot => some (.managedError slot)
  | .foreignRef handle => handle.map .foreignRef
  | .foreignError handle => handle.map .foreignError
  | .unknownError message => some (.unknownError message)

/-- The value that a view gives where the elements give these values. -/
def View.tree? (ts : Option (List Tree)) : View → Option Tree
  | .array _ => ts.map .array
  | v => v.leaf?.map .leaf

namespace Record

variable {r item : Record} {rs : List Record} {v : View} {t x : Tree} {ts : List Tree} {i : Nat}
  {path : List Nat}

mutual
/-- The value that a record is read as, layer by layer; none if some layer cannot be read. -/
def tree? : Record → Option Tree
  | .plain tag bits length =>
    (Record.plain tag bits length).view.toOption.bind (View.tree? (some []))
  | .text kind bytes => (Record.text kind bytes).view.toOption.bind (View.tree? (some []))
  | .array items => (treesOf? items).map .array

/-- The values that some records are read as. -/
def treesOf? : List Record → Option (List Tree)
  | [] => some []
  | r :: rs => (tree? r).bind fun t => (treesOf? rs).map (t :: ·)
end

/-- A record whose view is an array is read as its elements are. -/
lemma tree?_of_array (h : r.view = .ok (.array rs)) : r.tree? = (treesOf? rs).map .array := by
  cases r with
  | plain tag bits length =>
    rw [tree?, h, view_plain_ne_array h]
    rfl
  | text kind bytes => rcases view_text_isString h with ⟨s, hs⟩ | ⟨s, hs⟩ <;> cases hs
  | array items =>
    cases h
    rfl

/-- Any other record is read as its view. -/
lemma tree?_of_leaf (h : r.view = .ok v) (hv : ∀ rs, v ≠ .array rs) :
    r.tree? = v.leaf?.map .leaf := by
  have hread : View.tree? (some []) v = v.leaf?.map .leaf := by
    cases v <;> first | rfl | exact absurd rfl (hv _)
  cases r with
  | plain tag bits length => rw [tree?, h, ← hread]; rfl
  | text kind bytes => rw [tree?, h, ← hread]; rfl
  | array items =>
    cases h
    exact absurd rfl (hv _)

lemma tree?_of_error {e : ProtocolError} (h : r.view = .error e) : r.tree? = none := by
  cases r with
  | plain tag bits length => rw [tree?, h]; rfl
  | text kind bytes => rw [tree?, h]; rfl
  | array items => cases h

/-- What is read as an array is an array of what its elements are read as. -/
lemma exists_of_tree?_eq_array (h : r.tree? = some (.array ts)) :
    ∃ rs, r.view = .ok (.array rs) ∧ treesOf? rs = some ts := by
  cases hview : r.view with
  | error e =>
    rw [tree?_of_error hview] at h
    cases h
  | ok v =>
    by_cases hv : ∃ rs, v = .array rs
    · obtain ⟨rs, rfl⟩ := hv
      rw [tree?_of_array hview] at h
      obtain ⟨us, hus, heq⟩ := Option.map_eq_some_iff.1 h
      cases heq
      exact ⟨rs, rfl, hus⟩
    · rw [tree?_of_leaf hview (not_exists.1 hv)] at h
      obtain ⟨l, -, heq⟩ := Option.map_eq_some_iff.1 h
      cases heq

lemma treesOf?_eq_some :
    treesOf? rs = some ts ↔ List.Forall₂ (fun r t => r.tree? = some t) rs ts := by
  induction rs generalizing ts with
  | nil =>
    rw [treesOf?, List.forall₂_nil_left_iff, Option.some_inj, eq_comm]
  | cons r rs ih =>
    rw [treesOf?, List.forall₂_cons_left_iff]
    constructor
    · intro h
      obtain ⟨t, ht, h⟩ := Option.bind_eq_some_iff.1 h
      obtain ⟨us, hus, rfl⟩ := Option.map_eq_some_iff.1 h
      exact ⟨t, us, ht, ih.1 hus, rfl⟩
    · rintro ⟨t, us, ht, hus, rfl⟩
      rw [ht, Option.bind_some, ih.2 hus, Option.map_some]

/-! ### Writing -/

/-- Writes a record to the place in a record that indices lead to, through the elements that may be
written to.  Where there is no such place, nothing is changed. -/
def writeAt (r : Record) (path : List Nat) (item : Record) : Record :=
  match path with
  | [] => item
  | i :: path =>
    match r.elements?.bind (·[i]?) with
    | some old => r.setElement i (old.writeAt path item)
    | none => r

lemma length_writeAt (r : Record) (i : Nat) (path : List Nat) (item : Record) :
    (r.writeAt (i :: path) item).length = r.length := by
  rw [writeAt]
  split
  · cases r with
    | array items => rw [setElement, Record.length, Record.length, List.length_set]
    | _ => rfl
  · rfl

/-- **A write to a record writes to the value that it is read as.** -/
theorem tree?_writeAt (hr : r.tree? = some t) (hx : item.tree? = some x) :
    (r.writeAt path item).tree? = some (t.put path x) := by
  induction path generalizing r t with
  | nil => rw [writeAt, Tree.put_nil, hx]
  | cons i path ih =>
    cases t with
    | leaf l =>
      -- What is read as a leaf has no elements.
      have hnone : r.elements? = none := by
        cases he : r.elements? with
        | none => rfl
        | some rs =>
          rw [tree?_of_array (elements?_eq_some.1 he)] at hr
          obtain ⟨us, -, heq⟩ := Option.map_eq_some_iff.1 hr
          cases heq
      rw [writeAt, hnone]
      exact hr
    | array ts =>
      obtain ⟨rs, hview, hrs⟩ := exists_of_tree?_eq_array hr
      have hitems := treesOf?_eq_some.1 hrs
      rw [writeAt, elements?_eq_some.2 hview, Option.bind_some, Tree.put]
      cases hold : rs[i]? with
      | none =>
        have hlength : ts.length ≤ i := hitems.length_eq ▸ List.getElem?_eq_none_iff.1 hold
        rw [List.modify_eq_self hlength]
        exact hr
      | some old =>
        obtain ⟨hlt, rfl⟩ := List.getElem?_eq_some_iff.1 hold
        have hlt' : i < ts.length := hitems.length_eq ▸ hlt
        have hwritten := ih (hitems.get hlt hlt')
        obtain rfl : r = .array rs := by
          cases r with
          | plain tag bits length => rw [view_plain_ne_array hview] at hlt; cases hlt
          | text kind bytes => rcases view_text_isString hview with ⟨s, hs⟩ | ⟨s, hs⟩ <;> cases hs
          | array items => cases hview; rfl
        change (Record.array (rs.set i (rs[i].writeAt path item))).tree? = _
        rw [tree?, Option.map_eq_some_iff]
        refine ⟨_, treesOf?_eq_some.2 ?_, rfl⟩
        rw [List.forall₂_iff_get] at hitems ⊢
        refine ⟨by simpa using hitems.1, fun j hj hj' => ?_⟩
        simp only [List.get_eq_getElem, List.getElem_set, List.getElem_modify] at hwritten hitems ⊢
        split
        · next hij => subst hij; exact hwritten
        · rw [List.length_set] at hj
          rw [List.length_modify] at hj'
          exact hitems.2 j hj hj'

/-! ### Leaves -/

lemma tree?_leaf {l : Leaf} (hl : l.size ≤ maxLength) : l.record.tree? = some (.leaf l) := by
  cases l with
  | null => exact tree?_of_leaf view_null nofun
  | boolean b => exact tree?_of_leaf (view_boolean b) nofun
  | integer n => exact tree?_of_leaf (view_integer n) nofun
  | number x => exact tree?_of_leaf (view_number x) nofun
  | string s =>
    refine (tree?_of_leaf (view_string s) nofun).trans ?_
    rw [clip_of_le hl]
    rfl
  | date millis => exact tree?_of_leaf (view_date millis) nofun
  | managedRef slot => exact tree?_of_leaf (view_managed slot) nofun
  | managedError slot => exact tree?_of_leaf (view_managedError slot) nofun
  | foreignRef handle => exact tree?_of_leaf (view_foreign handle) nofun
  | foreignError handle => exact tree?_of_leaf (view_foreignError handle) nofun
  | unknownError message =>
    cases message with
    | none => exact tree?_of_leaf (v := .unknownError none) (view_scalar ..) nofun
    | some s =>
      refine (tree?_of_leaf (view_unknownError s) nofun).trans ?_
      rw [clip_of_le hl]
      rfl

lemma toInt_ofNat_length {n : Nat} (hn : n ≤ maxLength) : (Int32.ofNat n).toInt = n :=
  Int32.toInt_ofNat_of_lt (Nat.lt_succ_of_le hn)

lemma length_leaf {l : Leaf} (hl : l.size ≤ maxLength) : l.record.length.toInt = l.size := by
  cases l with
  | string s =>
    rw [Leaf.record, string, length, clip_of_le hl]
    exact toInt_ofNat_length hl
  | unknownError message =>
    cases message with
    | none => rfl
    | some s =>
      rw [Leaf.record, unknownError, length, clip_of_le hl]
      exact toInt_ofNat_length hl
  | _ => rfl

lemma tree?_nulls {n : Nat} (hn : n ≤ maxLength) :
    (nulls n).tree? = some (.array (List.replicate n (.leaf .null))) := by
  rw [nulls, if_pos hn, tree?, Option.map_eq_some_iff]
  refine ⟨_, treesOf?_eq_some.2 ?_, rfl⟩
  induction n with
  | zero => exact .nil
  | succ n ih => exact .cons (tree?_leaf (l := .null) (Nat.zero_le _)) (ih (Nat.le_of_succ_le hn))

end Record

/-! ### Building -/

/-- How a record is built. -/
inductive Recipe where
  /-- By the constructor of its kind. -/
  | leaf (l : Leaf)
  /-- As an array of nulls. -/
  | nulls (n : Nat)
  /-- By writing another one to a place within it. -/
  | write (target : Recipe) (path : List Nat) (item : Recipe)

namespace Recipe

variable {b : Recipe} {i n : Nat} {ws : List (Nat × Recipe)}

/-- The record that is built. -/
def record : Recipe → Record
  | leaf l => l.record
  | nulls n => .nulls n
  | write target path item => target.record.writeAt path item.record

/-- The value that is meant. -/
def tree : Recipe → Tree
  | leaf l => .leaf l
  | nulls n => .array (List.replicate n (.leaf .null))
  | write target path item => target.tree.put path item.tree

/-- A length field can count what is built. -/
inductive Fits : Recipe → Prop
  | leaf {l : Leaf} (hl : l.size ≤ Record.maxLength) : Fits (.leaf l)
  | nulls {n : Nat} (hn : n ≤ Record.maxLength) : Fits (.nulls n)
  | write {target item : Recipe} (htarget : Fits target) (path : List Nat) (hitem : Fits item) :
    Fits (.write target path item)

/-- Writes to positions of an array, one after the other. -/
def writes (b : Recipe) (ws : List (Nat × Recipe)) : Recipe :=
  ws.foldl (fun b w => .write b [w.1] w.2) b

/-- What was written last to a position. -/
def last? (ws : List (Nat × Recipe)) (i : Nat) : Option Recipe :=
  (ws.reverse.find? fun w => w.1 == i).map (·.2)

/-- The value of the last write to a position, null if there is none. -/
def valueAt (ws : List (Nat × Recipe)) (i : Nat) : Tree :=
  (last? ws i).elim (.leaf .null) tree

lemma writes_concat (b : Recipe) (ws : List (Nat × Recipe)) (w : Nat × Recipe) :
    b.writes (ws ++ [w]) = .write (b.writes ws) [w.1] w.2 := by
  rw [writes, List.foldl_append]
  rfl

lemma valueAt_concat (ws : List (Nat × Recipe)) (w : Nat × Recipe) (i : Nat) :
    valueAt (ws ++ [w]) i = if w.1 = i then w.2.tree else valueAt ws i := by
  rw [valueAt, last?, List.reverse_concat, List.find?_cons]
  by_cases h : w.1 = i
  · rw [if_pos h, beq_iff_eq.2 h]
    rfl
  · rw [if_neg h, beq_eq_false_iff_ne.2 h]
    rfl

lemma Fits.writes (hb : b.Fits) (hws : ∀ w ∈ ws, w.2.Fits) : (b.writes ws).Fits := by
  induction ws using List.reverseRecOn with
  | nil => exact hb
  | append_singleton ws w ih =>
    rw [writes_concat]
    exact .write (ih fun v hv => hws v (List.mem_append_left _ hv)) _ (hws w (by simp))

/-- What is meant by a recipe that fits, fits. -/
lemma Fits.fits_tree (hb : b.Fits) : b.tree.Fits := by
  induction hb with
  | leaf hl => exact .leaf hl
  | nulls hn =>
    refine .array (by rwa [List.length_replicate]) fun t ht => ?_
    rw [List.eq_of_mem_replicate ht]
    exact .leaf (Nat.zero_le _)
  | write _ path _ htarget hitem => exact htarget.put hitem

/-- The record that is built is read as what is meant. -/
lemma Fits.tree?_record (hb : b.Fits) : b.record.tree? = some b.tree := by
  induction hb with
  | leaf hl => exact Record.tree?_leaf hl
  | nulls hn => exact Record.tree?_nulls hn
  | write _ path _ htarget hitem => exact Record.tree?_writeAt htarget hitem

/-- Its length field counts what is meant. -/
lemma Fits.length_record (hb : b.Fits) : b.record.length.toInt = b.tree.size := by
  induction hb with
  | leaf hl => exact Record.length_leaf hl
  | nulls hn =>
    rw [record, Record.nulls, if_pos hn, Record.length, tree, Tree.size, List.length_replicate,
      List.length_replicate]
    exact Record.toInt_ofNat_length hn
  | @write target item htarget path hitem iht ihi =>
    cases path with
    | nil =>
      rw [record, tree, Tree.put_nil]
      exact ihi
    | cons i path =>
      rw [record, Record.length_writeAt, iht, tree]
      cases target.tree with
      | leaf l => rfl
      | array ts => rw [Tree.put, Tree.size, Tree.size, List.length_modify]

/-- What is meant by writes to an array of nulls. -/
lemma tree_writes (n : Nat) (ws : List (Nat × Recipe)) :
    ((nulls n).writes ws).tree = .array ((List.range n).map (valueAt ws)) := by
  induction ws using List.reverseRecOn with
  | nil =>
    refine congrArg Tree.array (List.ext_getElem (by simp) fun j hj hj' => ?_)
    simp only [List.getElem_replicate, List.getElem_map]
    rfl
  | append_singleton ws w ih =>
    rw [writes_concat, tree, ih, Tree.put]
    refine congrArg Tree.array (List.ext_getElem (by simp) fun j hj hj' => ?_)
    simp only [List.getElem_modify, List.getElem_map, List.getElem_range, valueAt_concat,
      Tree.put_nil]

/-- A list written from its first element to its last. -/
lemma valueAt_zipIdx (f : Tree → Recipe) {ts : List Tree} (hi : i < ts.length) :
    valueAt (ts.zipIdx.map fun p => (p.2, f p.1)) i = (f ts[i]).tree := by
  induction ts using List.reverseRecOn with
  | nil => cases hi
  | append_singleton ts t ih =>
    rw [List.zipIdx_append, List.map_append, List.zipIdx_singleton, List.map_singleton,
      valueAt_concat]
    split
    · next h =>
      simp only [Nat.zero_add] at h
      subst h
      rw [List.getElem_concat_length rfl]
    · next h =>
      simp only [Nat.zero_add] at h
      rw [List.length_append, List.length_singleton] at hi
      have hlt : i < ts.length := by omega
      rw [ih hlt, List.getElem_append_left hlt]

/-- Every value that fits is what some recipe means. -/
lemma exists_recipe {t : Tree} (ht : t.Fits) : ∃ b : Recipe, b.Fits ∧ b.tree = t := by
  induction ht with
  | @leaf l hl => exact ⟨.leaf l, .leaf hl, rfl⟩
  | @array ts hlength hts ih =>
    have ih : ∀ t : Tree, ∃ b : Recipe, t ∈ ts → b.Fits ∧ b.tree = t := fun t => by
      by_cases h : t ∈ ts
      · obtain ⟨b, hb⟩ := ih t h
        exact ⟨b, fun _ => hb⟩
      · exact ⟨.nulls 0, fun h' => absurd h' h⟩
    choose f hf using ih
    refine ⟨(nulls ts.length).writes (ts.zipIdx.map fun p => (p.2, f p.1)),
      .writes (.nulls hlength) fun w hw => ?_, ?_⟩
    · obtain ⟨p, hp, rfl⟩ := List.mem_map.1 hw
      exact (hf _ (List.fst_mem_of_mem_zipIdx hp)).1
    · rw [tree_writes]
      refine congrArg Tree.array (List.ext_getElem (by simp) fun j hj hj' => ?_)
      rw [List.getElem_map, List.getElem_range, valueAt_zipIdx f hj',
        (hf _ (List.getElem_mem hj')).2]

end Recipe

/-- **What is built is read as it was built.**  Of a recipe that fits, the record is read, layer by
layer, as the value that is meant, and its length field counts it; and the values that recipes which
fit mean are all those that fit.  An array of nulls to which positions are written, in any order,
is read with the last write at each position and null elsewhere.  A write to any depth is found at
its place and below, and leaves alone what is neither below nor above.  An error without a text is
not read as one with an empty text. -/
theorem reads_as_built :
    (∀ b : Recipe, b.Fits →
      b.record.tree? = some b.tree ∧ b.record.length.toInt = b.tree.size) ∧
    (∀ t : Tree, t.Fits ↔ ∃ b : Recipe, b.Fits ∧ b.tree = t) ∧
    (∀ (n : Nat) (ws : List (Nat × Recipe)), n ≤ Record.maxLength → (∀ w ∈ ws, w.2.Fits) →
      ((Recipe.nulls n).writes ws).record.tree? =
        some (.array ((List.range n).map (Recipe.valueAt ws)))) ∧
    (∀ (b item : Recipe) (path rest : List Nat), (b.tree.at? path).isSome →
      (Recipe.write b path item).tree.at? (path ++ rest) = item.tree.at? rest) ∧
    (∀ (b item : Recipe) (path other : List Nat), ¬ path <+: other → ¬ other <+: path →
      (Recipe.write b path item).tree.at? other = b.tree.at? other) ∧
    (Record.unknownError none).tree? ≠ (Record.unknownError (some "")).tree? := by
  refine ⟨fun b hb => ⟨hb.tree?_record, hb.length_record⟩, fun t => ⟨Recipe.exists_recipe, ?_⟩,
    fun n ws hn hws => ?_, fun b item path rest => Tree.at?_put_append,
    fun b item path other => Tree.at?_put_of_disjoint, ?_⟩
  · rintro ⟨b, hb, rfl⟩
    exact hb.fits_tree
  · rw [((Recipe.Fits.nulls hn).writes hws).tree?_record, Recipe.tree_writes]
  · have hnone := Record.tree?_leaf (l := .unknownError none) (Nat.zero_le _)
    have hempty := Record.tree?_leaf (l := .unknownError (some "")) (Nat.zero_le _)
    intro h
    cases hnone.symm.trans (h.trans hempty)

end ScriptBridge.Wire
