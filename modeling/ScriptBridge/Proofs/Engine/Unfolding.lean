/-
# What copying a value comes to

Arrays are copied with all that is inside of them, so that the heap is unfolded into a tree.  It
need not be one: an array can be an element of itself, directly or through others.  What ends
the copy is the room that is left for arrays inside of each other.  An array for which there is
no room, and one that is too long, is an error in its place.  A host takes a copy for a value
only if there is no error in it, which means that the full unfolding is within the limits.
-/
import Mathlib.Logic.Relation
import ScriptBridge.Proofs.Bridge.Acceptance
import ScriptBridge.Proofs.Engine.Departure

namespace ScriptBridge

open ScriptBridge.Bridge ScriptBridge.Number ScriptBridge.Script ScriptBridge.Table
open ScriptBridge.Wire

/-! ### The size of a record -/

namespace Wire.Record

mutual
/-- How many arrays are inside of each other in a record. -/
def nesting : Record → Nat
  | .plain .. | .text .. => 0
  | .array items => nestingOf items + 1

/-- How many arrays are inside of each other in one of some records. -/
def nestingOf : List Record → Nat
  | [] => 0
  | r :: rs => max (nesting r) (nestingOf rs)
end

mutual
/-- How many elements the longest array in a record has. -/
def longest : Record → Nat
  | .plain .. | .text .. => 0
  | .array items => max items.length (longestOf items)

/-- How many elements the longest array in some records has. -/
def longestOf : List Record → Nat
  | [] => 0
  | r :: rs => max (longest r) (longestOf rs)
end

variable {r : Record} {rs : List Record} {n : Nat}

lemma nestingOf_le (h : ∀ r ∈ rs, r.nesting ≤ n) : nestingOf rs ≤ n := by
  induction rs with
  | nil => exact Nat.zero_le n
  | cons r rs ih =>
    obtain ⟨hr, hrs⟩ := List.forall_mem_cons.1 h
    exact Nat.max_le.2 ⟨hr, ih hrs⟩

lemma longestOf_le (h : ∀ r ∈ rs, r.longest ≤ n) : longestOf rs ≤ n := by
  induction rs with
  | nil => exact Nat.zero_le n
  | cons r rs ih =>
    obtain ⟨hr, hrs⟩ := List.forall_mem_cons.1 h
    exact Nat.max_le.2 ⟨hr, ih hrs⟩

/-- Arrays are inside of each other so deep at most, and have so many elements at most. -/
structure Within (length depth : Nat) (r : Record) : Prop where
  nesting : r.nesting ≤ depth
  longest : r.longest ≤ length

lemma within_of_ne (hr : ∀ items, r ≠ .array items) (length depth : Nat) :
    r.Within length depth := by
  cases r with
  | array items => exact absurd rfl (hr items)
  | _ => exact ⟨Nat.zero_le _, Nat.zero_le _⟩

lemma within_array {length depth : Nat} (hlength : rs.length ≤ length)
    (hrs : ∀ r ∈ rs, r.Within length depth) : (Record.array rs).Within length (depth + 1) where
  nesting := Nat.succ_le_succ (nestingOf_le fun r hr => (hrs r hr).nesting)
  longest := Nat.max_le.2 ⟨hlength, longestOf_le fun r hr => (hrs r hr).longest⟩

lemma unknownError_ne_array (text : Option String) (items : List Record) :
    unknownError text ≠ .array items := by
  cases text <;> exact nofun

lemma leaves_unknownError (text : Option String) :
    (unknownError text).leaves = [unknownError text] :=
  leaves_of_ne (unknownError_ne_array text)

lemma isError_unknownError (text : Option String) : (unknownError text).isError = true := by
  cases text <;> rfl

end Wire.Record

/-- What the host takes for a value has no error in it. -/
lemma Bridge.isError_of_decode {bridge next : Nat} {a : Arena Entry} {r leaf : Record}
    {v : Host.HostValue} (h : (decode bridge a next r).result = .ok v) (hleaf : leaf ∈ r.leaves) :
    leaf.isError = false := by
  have hj := judges_decode bridge a next r
  rw [h] at hj
  cases hj with
  | accepts hr hv =>
    rw [← Bool.not_eq_true]
    exact fun hf => hr leaf hleaf (.failed hf)

/-! ### What is inside of a value -/

namespace Script

/-- What an object is to whoever copies it. -/
inductive Face where
  /-- It stands for the host entry at a slot. -/
  | entry (slot : Slot)
  /-- It is an array with so many elements. -/
  | array (length : Nat)
  | other
  deriving DecidableEq

namespace Heap

open ScriptBridge.Engine (element? element_of_element?)

variable {h h' : Heap} {v w : Value} {p q : Ref} {i n length room : Nat}

/-- What an object is to whoever copies it. -/
def face (h : Heap) (q : Ref) : Face :=
  match (h.get? q).bind (·.entry), (h.get? q).map Object.kind with
  | some slot, _ => .entry slot
  | none, some (.array length) => .array length
  | none, _ => .other

lemma face_congr (hq : h'.get? q = h.get? q) : h'.face q = h.face q := by
  rw [face, hq]
  rfl

lemma exists_of_face (hq : h.face q = .array n) :
    ∃ o, h.get? q = some o ∧ o.entry = none ∧ o.kind = .array n := by
  unfold face at hq
  split at hq <;> cases hq
  next length hentry hkind =>
    obtain ⟨o, ho, hkind⟩ := Option.map_eq_some_iff.1 hkind
    rw [ho] at hentry
    exact ⟨o, ho, hentry, hkind⟩

/-- A value is another one or inside of it: an element of an array that is. -/
inductive Inside (h : Heap) (v : Value) : Value → Prop
  | self : Inside h v v
  | element {q : Ref} {n i : Nat} {w : Value} (hq : Inside h v (.object q))
    (hface : h.face q = .array n) (hi : i < n) (hw : element? h q i = some w) : Inside h v w

/-- The arrays inside of a value hold plain data: each element is a data property of its own, or
is missing and nothing is inherited in its place. -/
def HoldsData (h : Heap) (v : Value) : Prop :=
  ∀ q n i, h.Inside v (.object q) → h.face q = .array n → i < n → (element? h q i).isSome

/-- The full unfolding of a value is within limits: no more than so many arrays are inside of each
other, and each of them has so many elements at most. -/
inductive Unfolds (h : Heap) (length : Nat) : Nat → Value → Prop
  | array {room : Nat} {q : Ref} {n : Nat} (hq : h.face q = .array n) (hle : n ≤ length)
    (hitems : ∀ i w, i < n → element? h q i = some w → Unfolds h length room w) :
    Unfolds h length (room + 1) (.object q)
  | other {room : Nat} {v : Value} (hv : ∀ q n, v = .object q → h.face q ≠ .array n) :
    Unfolds h length room v

/-- One array is an element of another one. -/
def Contains (h : Heap) (p q : Ref) : Prop :=
  ∃ n m i, h.face p = .array n ∧ i < n ∧ element? h p i = some (.object q) ∧
    h.face q = .array m

/-- An array contains itself, directly or through others. -/
def IsCyclic (h : Heap) (q : Ref) : Prop := Relation.TransGen h.Contains q q

/-- The elements of an array unfold into less than the array does. -/
lemma Unfolds.element (hu : h.Unfolds length room (.object p)) (hp : h.face p = .array n)
    (hi : i < n) (hw : element? h p i = some w) : ∃ room' < room, h.Unfolds length room' w := by
  cases hu with
  | array hq hle hitems =>
    rw [hp] at hq
    cases hq
    exact ⟨_, Nat.lt_succ_self _, hitems i w hi hw⟩
  | other hv => exact absurd hp (hv p n rfl)

/-- What is inside of a value unfolds into no more than the value does. -/
lemma Unfolds.inside (hu : h.Unfolds length room v) (hw : h.Inside v w) :
    ∃ room', h.Unfolds length room' w := by
  induction hw with
  | self => exact ⟨room, hu⟩
  | element hq hface hi hw ih =>
    obtain ⟨room', hu'⟩ := ih
    obtain ⟨room'', -, hu''⟩ := hu'.element hface hi hw
    exact ⟨room'', hu''⟩

lemma Unfolds.contains (hq : Relation.TransGen h.Contains p q)
    (hu : h.Unfolds length room (.object p)) :
    ∃ room' < room, h.Unfolds length room' (.object q) := by
  induction hq with
  | single hc =>
    obtain ⟨n, m, i, hface, hi, hw, -⟩ := hc
    exact hu.element hface hi hw
  | tail _ hc ih =>
    obtain ⟨n, m, i, hface, hi, hw, -⟩ := hc
    obtain ⟨room', hlt, hu'⟩ := ih
    obtain ⟨room'', hlt', hu''⟩ := hu'.element hface hi hw
    exact ⟨room'', Nat.lt_trans hlt' hlt, hu''⟩

/-- **What contains itself has no unfolding.** -/
theorem Unfolds.not_isCyclic (hu : h.Unfolds length room (.object q)) : ¬ h.IsCyclic q := by
  intro hq
  induction room using Nat.strongRecOn with
  | ind room ih =>
    obtain ⟨room', hlt, hu'⟩ := hu.contains hq
    exact ih room' hlt hu'

/-! ### Values with all that is inside of them -/

/-- Whether the arrays among some values hold plain data that is among these values. -/
def encloses (h : Heap) (vs : List Value) : Bool :=
  vs.all fun
    | .object q =>
      match h.face q with
      | .array n => (List.range n).all fun i => ((element? h q i).any vs.contains)
      | _ => true
    | _ => true

variable {vs : List Value}

lemma element_of_encloses (hvs : h.encloses vs = true) (hq : .object q ∈ vs)
    (hface : h.face q = .array n) (hi : i < n) : ∃ w ∈ vs, element? h q i = some w := by
  have harray := List.all_eq_true.1 hvs _ hq
  dsimp only at harray
  rw [hface] at harray
  have hitem := List.all_eq_true.1 harray i (List.mem_range.2 hi)
  obtain ⟨w, hw, hmem⟩ := Option.any_eq_true .. |>.1 hitem
  exact ⟨w, List.contains_iff_mem.1 hmem, hw⟩

lemma Inside.mem (hw : h.Inside v w) (hvs : h.encloses vs = true) (hv : v ∈ vs) : w ∈ vs := by
  induction hw with
  | self => exact hv
  | element hq hface hi hw ih =>
    obtain ⟨w', hmem, hw'⟩ := element_of_encloses hvs ih hface hi
    rw [hw] at hw'
    cases hw'
    exact hmem

lemma holdsData_of_encloses (hvs : h.encloses vs = true) (hv : v ∈ vs) : h.HoldsData v := by
  intro q n i hq hface hi
  obtain ⟨w, -, hw⟩ := element_of_encloses hvs (hq.mem hvs hv) hface hi
  exact hw ▸ rfl

/-! ### What is left as it was -/

/-- A later heap has the same inside of a value. -/
structure Leaves (h h' : Heap) (v : Value) : Prop where
  face : ∀ q, h.Inside v (.object q) → h'.face q = h.face q
  element : ∀ q n i, h.Inside v (.object q) → h.face q = .array n → i < n →
    element? h' q i = element? h q i

lemma Leaves.refl (h : Heap) (v : Value) : h.Leaves h v :=
  ⟨fun _ _ => rfl, fun _ _ _ _ _ _ => rfl⟩

/-- Whether a later heap has the same objects among some values, with the same elements. -/
def leavesAll (h h' : Heap) (vs : List Value) : Bool :=
  vs.all fun
    | .object q => decide (h'.face q = h.face q) &&
      match h.face q with
      | .array n => (List.range n).all fun i => decide (element? h' q i = element? h q i)
      | _ => true
    | _ => true

lemma leaves_of_leavesAll (hvs : h.encloses vs = true) (hv : v ∈ vs)
    (hl : h.leavesAll h' vs = true) : h.Leaves h' v := by
  have hobject : ∀ q, h.Inside v (.object q) → _ := fun q hq =>
    List.all_eq_true.1 hl _ (hq.mem hvs hv)
  refine ⟨fun q hq => ?_, fun q n i hq hface hi => ?_⟩
  · have hsame := hobject q hq
    dsimp only at hsame
    rw [Bool.and_eq_true] at hsame
    exact of_decide_eq_true hsame.1
  · have hsame := hobject q hq
    dsimp only at hsame
    rw [Bool.and_eq_true, hface] at hsame
    exact of_decide_eq_true (List.all_eq_true.1 hsame.2 i (List.mem_range.2 hi))

end Heap

end Script

namespace Engine

open ScriptBridge.Script (Heap)

variable {e : Engine} {h h' : Heap} {v w : Value} {q : Ref} {i n : Nat}

/-- What is not found is no property of its own. -/
lemma own?_of_find_eq_nothing {key : Key} (hf : h.find q key = .nothing) :
    (h.get? q).bind (·.own? key) = none := by
  rw [Heap.find, Heap.search] at hf
  cases hq : h.get? q with
  | none => rfl
  | some o =>
    rw [hq] at hf
    dsimp only at hf
    split at hf
    · cases hf
    · cases hf
    · assumption
    · assumption

lemma element?_of_element (he : Element h q i v) : element? h q i = some v := by
  cases he with
  | own hq ho => rw [element?, hq, Option.bind_some, ho]
  | hole hf => rw [element?, own?_of_find_eq_nothing hf, hf]

/-- A script object that is an element of an array can be reached through it. -/
lemma Reached.element {p : Ref} (hp : e.Reached p) (hw : element? e.heap p i = some (.object q)) :
    e.Reached q := by
  cases element_of_element? hw with
  | own ho hown => exact .step hp ho (refs_subset_of_own? hown (List.mem_singleton_self _))

/-- Letting go leaves what is inside of a value as it was, as long as the value can be reached. -/
lemma Spares.leaves (hs : e.Spares h') (hl : h.Leaves e.heap v) (hdata : h.HoldsData v)
    (hroot : ∀ q, v = .object q → e.Reached q) : h.Leaves h' v := by
  have hreached : ∀ w, h.Inside v w → ∀ q, w = .object q → e.Reached q := by
    intro w hw
    induction hw with
    | self => exact hroot
    | @element p n i w hp hface hi hw ih =>
      rintro q rfl
      exact (ih p rfl).element ((hl.element p n i hp hface hi).trans hw)
  refine ⟨fun q hq => ?_, fun q n i hq hface hi => ?_⟩
  · exact (Heap.face_congr (hs.get? q (hreached _ hq q rfl))).trans (hl.face q hq)
  · obtain ⟨w, hw⟩ := Option.isSome_iff_exists.1 (hdata q n i hq hface hi)
    have hw' := (hl.element q n i hq hface hi).trans hw
    rw [hw]
    exact element?_of_element (hs.element (element_of_element? hw') (hreached _ hq q rfl))

/-! ### Copies -/

/-- What is said of an array that is inside of too many others. -/
def deepText : String := "array nesting is too deep to copy"

/-- What is said of an array that is too long. -/
def longText : String := "array is too long to copy"

/-- A record is a copy of a value, where no more than so many arrays may be inside of each other
and each may have so many elements.  `gives` tells what an object that is no array and stands for
no host entry can become. -/
inductive Copied (h : Heap) (gives : Ref → Record → Prop) (length : Nat) :
    Nat → Value → Record → Prop
  | undefined {room : Nat} : Copied h gives length room .undefined .null
  | null {room : Nat} : Copied h gives length room .null .null
  | bool {room : Nat} (b : Bool) : Copied h gives length room (.bool b) (.boolean b)
  | int {room : Nat} (n : Int32) : Copied h gives length room (.int n) (.integer n)
  | number {room : Nat} (x : Binary64) : Copied h gives length room (.number x) (.number x)
  | string {room : Nat} {units : Text.Units} {s : String} (hs : units.toString = .ok s) :
    Copied h gives length room (.string units) (.string s)
  /-- A symbol or a big integer has no counterpart. -/
  | unfit {room : Nat} {v : Value} {kind : String}
    (hv : (∃ id text, v = .symbol id text) ∧ kind = "symbol" ∨
      (∃ n, v = .bigint n) ∧ kind = "big_int") :
    Copied h gives length room v
      (.unknownError (some ("cannot pass a script " ++ kind ++ " to the host")))
  | entry {room : Nat} {q : Ref} {slot : Slot} (hq : h.face q = .entry slot) :
    Copied h gives length room (.object q) (.managed slot)
  /-- An array within the limits has as many elements as it had, each of them at its place. -/
  | array {room : Nat} {q : Ref} {items : List Record} (vs : List Value)
    (hq : h.face q = .array items.length) (hle : items.length ≤ length)
    (hmax : items.length ≤ Record.maxLength) (hvs : vs.length = items.length)
    (helements : ∀ (i : Nat) v, vs[i]? = some v → element? h q i = some v)
    (hitems : ∀ (i : Nat) v r, vs[i]? = some v → items[i]? = some r →
      Copied h gives length room v r) :
    Copied h gives length (room + 1) (.object q) (.array items)
  /-- There is no room for one more array. -/
  | deep {q : Ref} {n : Nat} (hq : h.face q = .array n) :
    Copied h gives length 0 (.object q) (.unknownError (some deepText))
  | long {room : Nat} {q : Ref} {n : Nat} (hq : h.face q = .array n) (hlong : length < n) :
    Copied h gives length (room + 1) (.object q) (.unknownError (some longText))
  /-- A length field cannot count the elements. -/
  | uncounted {room : Nat} {q : Ref} {n : Nat} (hq : h.face q = .array n) (hle : n ≤ length)
    (hmax : Record.maxLength < n) :
    Copied h gives length (room + 1) (.object q)
      (.unknownError (some "array length exceeds the wire limit"))
  | other {room : Nat} {q : Ref} {r : Record} (hq : h.face q = .other) (hr : gives q r) :
    Copied h gives length room (.object q) r

namespace Copied

variable {gives : Ref → Record → Prop} {length room : Nat} {r : Record}

/-- **A copy is within the limits**, however the heap is linked. -/
theorem within (hc : Copied h gives length room v r)
    (hgives : ∀ q r, gives q r → ∀ items, r ≠ .array items) : r.Within length room := by
  induction hc with
  | @array room q items vs hq hle hmax hvs helements hitems ih =>
    refine Record.within_array hle fun r hr => ?_
    obtain ⟨i, hi⟩ := List.getElem?_of_mem hr
    obtain ⟨hlt, -⟩ := List.getElem?_eq_some_iff.1 hi
    exact ih i _ r (List.getElem?_eq_getElem (hvs.symm ▸ hlt)) hi
  | other hq hr => exact Record.within_of_ne (hgives _ _ hr) _ _
  | unfit | deep | long | uncounted =>
    exact Record.within_of_ne (Record.unknownError_ne_array _) _ _
  | _ => exact Record.within_of_ne (fun items h => by cases h) _ _

/-- **A copy without errors is one of a value whose full unfolding is within the limits.** -/
theorem unfolds (hc : Copied h gives length room v r)
    (hr : ∀ leaf ∈ r.leaves, leaf.isError = false) : h.Unfolds length room v := by
  have herror : ∀ {text : Option String},
      ¬ ∀ leaf ∈ (Record.unknownError text).leaves, leaf.isError = false := fun hall => by
    rw [Record.leaves_unknownError] at hall
    have hfalse := hall _ (List.mem_singleton_self _)
    rw [Record.isError_unknownError] at hfalse
    cases hfalse
  induction hc with
  | @array room q items vs hq hle hmax hvs helements hitems ih =>
    refine .array hq hle fun i w hi hw => ?_
    have hv : vs[i]? = some vs[i] := List.getElem?_eq_getElem (hvs.symm ▸ hi)
    have hsame := (helements i _ hv).symm.trans hw
    rw [Option.some.injEq] at hsame
    rw [← hsame]
    refine ih i _ _ hv (List.getElem?_eq_getElem hi) fun leaf hleaf => hr leaf ?_
    exact Record.mem_leavesOf.2 ⟨_, List.getElem_mem hi, hleaf⟩
  | deep | long | uncounted => exact absurd hr herror
  | entry hq | other hq =>
    refine .other fun p n heq => ?_
    cases heq
    rw [hq]
    exact nofun
  | unfit hv =>
    refine .other fun p n heq => ?_
    rcases hv with ⟨⟨_, _, rfl⟩, -⟩ | ⟨⟨_, rfl⟩, -⟩ <;> cases heq
  | _ => exact .other nofun

end Copied

end Engine

end ScriptBridge
