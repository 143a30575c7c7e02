/-
# Records that come back

A record of scalars, slots and arrays that has become a script value becomes a record again
when the value goes to the host, the same but for one thing: a number that is whole comes back
as an integer.  No script can see how that goes, as long as arrays are neither too deep nor too
long.
-/
import ScriptBridge.Proofs.Engine.Landing
import ScriptBridge.Proofs.Text.Utf16

namespace ScriptBridge

open ScriptBridge.Number ScriptBridge.Script ScriptBridge.Table ScriptBridge.Wire

/-! ### What comes back -/

/-- The record of a number that has been in script. -/
def Wire.Record.wholeNumber (x : Binary64) : Record :=
  match Value.ofWhole x with
  | .int i => .integer i
  | _ => .number x

/-- Whether a view is one of a scalar or of a host entry. -/
def Wire.View.isScalar : View → Bool
  | .null | .boolean _ | .integer _ | .number _ | .string _ | .managedRef _ => true
  | _ => false

/-- What comes back for a scalar or for a host entry. -/
def Wire.View.echo : View → Record
  | .boolean b => .boolean b
  | .integer i => .integer i
  | .number x => .wholeNumber x
  | .string s => .string s
  | .managedRef s => .managed s
  | _ => .null

namespace Wire.Record

mutual
/-- What comes back for a record of scalars, slots and arrays. -/
def echo : Record → Record
  | .plain tag bits length =>
    match (Record.plain tag bits length).view with
    | .ok v => v.echo
    | .error _ => .null
  | .text kind bytes =>
    match (Record.text kind bytes).view with
    | .ok v => v.echo
    | .error _ => .null
  | .array items => .array (echoItems items)

/-- What comes back for elements. -/
def echoItems : List Record → List Record
  | [] => []
  | r :: rs => echo r :: echoItems rs
end

mutual
/-- A record of scalars, slots and arrays, which are nested no deeper and are no longer than
given. -/
def Fits (length : Nat) : Nat → Record → Prop
  | _, .plain tag bits size => ∃ v, (Record.plain tag bits size).view = .ok v ∧ v.isScalar = true
  | _, .text kind bytes => ∃ v, (Record.text kind bytes).view = .ok v ∧ v.isScalar = true
  | 0, .array _ => False
  | depth + 1, .array items => items.length ≤ length ∧ items.length ≤ maxLength ∧
    AllFit length depth items

/-- All of some records are such. -/
def AllFit (length : Nat) : Nat → List Record → Prop
  | _, [] => True
  | depth, r :: rs => Fits length depth r ∧ AllFit length depth rs
end

variable {r : Record} {rs : List Record} {v : View} {length depth : Nat}

lemma echoItems_eq_map (rs : List Record) : echoItems rs = rs.map echo := by
  induction rs with
  | nil => rfl
  | cons r rs ih => rw [echoItems, ih, List.map_cons]

lemma allFit_iff : AllFit length depth rs ↔ ∀ r ∈ rs, r.Fits length depth := by
  induction rs with
  | nil => simp [AllFit]
  | cons r rs ih => rw [AllFit, ih, List.forall_mem_cons]

lemma echo_of_view (hn : ∀ items, r ≠ .array items) (h : r.view = .ok v) : r.echo = v.echo := by
  cases r with
  | plain => rw [echo, h]
  | text => rw [echo, h]
  | array items => exact absurd rfl (hn items)

lemma Fits.isScalar (hf : r.Fits length depth) (hn : ∀ items, r ≠ .array items)
    (h : r.view = .ok v) : v.isScalar = true := by
  cases r with
  | plain =>
    rw [Fits] at hf
    obtain ⟨w, hw, hs⟩ := hf
    obtain rfl := Except.ok.inj (h.symm.trans hw)
    exact hs
  | text =>
    rw [Fits] at hf
    obtain ⟨w, hw, hs⟩ := hf
    obtain rfl := Except.ok.inj (h.symm.trans hw)
    exact hs
  | array items => exact absurd rfl (hn items)

lemma isCalm_of_isScalar (hv : v.isScalar = true) : v.isCalm = true := by
  cases v <;> first | rfl | cases hv

mutual
/-- Such a record needs nothing but the class of stand-ins to become a value. -/
lemma Fits.isCalm : ∀ {depth : Nat} {r : Record}, r.Fits length depth → r.IsCalm
  | depth, .plain tag bits size, hf => fun _ hv =>
    isCalm_of_isScalar (hf.isScalar (by simp) hv)
  | depth, .text kind bytes, hf => fun _ hv => isCalm_of_isScalar (hf.isScalar (by simp) hv)
  | 0, .array items, hf => by cases hf
  | depth + 1, .array items, hf => by
    rw [Fits] at hf
    exact AllFit.areCalm hf.2.2

/-- Such records need nothing else either. -/
lemma AllFit.areCalm : ∀ {depth : Nat} {rs : List Record}, AllFit length depth rs → AreCalm rs
  | depth, [], _ => trivial
  | depth, r :: rs, hf => by
    rw [AllFit] at hf
    exact ⟨hf.1.isCalm, AllFit.areCalm hf.2⟩
end

end Wire.Record

namespace Engine

variable {e : Engine} {n : Ref} {h : Heap} {t : Handles Ref} {r : Record} {v w : Value}
  {base l : List Frame} {q : Ref} {o : Object} {key : Key} {p : Property} {depth : Nat}

/-! ### On the way out -/

/-- An engine with something else to do, and other frames. -/
def posed (e : Engine) (st : List Frame) (c : Control) : Engine :=
  { e with stack := st, control := c }

/-- One piece of work of an engine that keeps all its objects. -/
lemma runs_posed {c : Control} {e' : Engine} (hl : Lasting e.heap e.handles base)
    (hr : e.released = []) (hp : (e.posed (l ++ base) c).proceed = (e', .silent)) :
    Runs (e.posed (l ++ base) c) e' :=
  (Lasting.clean (e := e.posed (l ++ base) c) hl hr rfl).runs hp

lemma encodeStep_scalar {view : View} (hd : Depicts n h t view v) (hv : view.isScalar = true)
    (hh : e.heap = h) : e.encodeStep v depth = e.goto (.encoded view.echo) := by
  subst hh
  cases hd with
  | null => rfl
  | boolean b => rfl
  | integer i => rfl
  | number x =>
    rw [View.echo, Record.wholeNumber, Value.ofWhole]
    split
    · split <;> rfl
    · rfl
  | string s =>
    rw [Value.text, encodeStep, Text.Units.toString_ofString]
    rfl
  | standIn hs hq hn hk ho =>
    rcases hs with rfl | rfl
    · rw [encodeStep, encodeObject, hq, Option.bind_some, ho]
      rfl
    · cases hv
  | vacant hs => rcases hs with rfl | rfl <;> cases hv
  | pinned hs => rcases hs with rfl | rfl <;> cases hv
  | _ => cases hv

lemma encodeObject_array {length : Nat} (hq : e.heap.get? q = some o) (ho : o.entry = none)
    (hk : o.kind = .array length) (hd : depth < e.maxDepth) (hle : length ≤ e.maxLength)
    (hmax : length ≤ Record.maxLength) :
    e.encodeObject q depth = e.nextElement q depth length 0 [] := by
  rw [encodeObject, hq, Option.bind_some, ho, Option.map_some, hk]
  dsimp only
  rw [if_neg (Nat.not_le.2 hd), if_neg (Nat.not_lt.2 hle), if_neg (Nat.not_lt.2 hmax)]

/-- An element of an array becomes a record before the others do. -/
lemma runs_element {e' : Engine} {length index : Nat} {done : List Record}
    (hl : Lasting e.heap e.handles base) (hr : e.released = [])
    (hl' : Lasting e'.heap e'.handles base) (hr' : e'.released = []) (hindex : index < length)
    (hread : ∀ st, (e.posed st (.read (.object q) (.index index))).proceed =
      (e.posed st (.ret v), .silent))
    (hv : ∀ l : List Frame, Runs (e.posed (l ++ base) (.encode v (depth + 1)))
      (e'.posed (l ++ base) (.encoded r))) {c : Control} (l : List Frame) :
    Runs ((e.posed (l ++ base) c).nextElement q depth length index done)
      ((e'.posed (l ++ base) c).nextElement q depth length (index + 1) (r :: done)) := by
  -- The element is read, turned into a record, and put with those that are done.
  let f : Frame := .elements q depth length index done
  have hstart : (e.posed (l ++ base) c).nextElement q depth length index done =
      e.posed ((f :: l) ++ base) (.read (.object q) (.index index)) := by
    rw [nextElement, if_pos hindex]
    rfl
  have hvalue : Runs (e.posed ((f :: l) ++ base) (.read (.object q) (.index index)))
      (e.posed ((f :: l) ++ base) (.ret v)) := runs_posed hl hr (hread _)
  have hencode : Runs (e.posed ((f :: l) ++ base) (.ret v))
      (e.posed ((f :: l) ++ base) (.encode v (depth + 1))) := runs_posed hl hr rfl
  have hdone : Runs (e'.posed ((f :: l) ++ base) (.encoded r))
      ((e'.posed (l ++ base) c).nextElement q depth length (index + 1) (r :: done)) := by
    refine runs_posed hl' hr' ?_
    change ((e'.posed (l ++ base) (.encoded r)).nextElement q depth length (index + 1) (r :: done),
      Event.silent) = _
    simp only [nextElement]
    split <;> rfl
  rw [hstart]
  exact ((hvalue.trans hencode).trans (hv _)).trans hdone

/-- The elements of an array become records one after the other. -/
lemma runs_elements {items : List Record} {vs : List Value} (hl : Lasting e.heap e.handles base)
    (hr : e.released = []) (hq : e.heap.get? q = some o) (hk : o.kind = .array items.length)
    (hlength : vs.length = items.length)
    (hown : ∀ (i : Nat) v, vs[i]? = some v → o.own? (.index i) = some (.data v))
    (hitems : ∀ (i : Nat) r v, items[i]? = some r → vs[i]? = some v → ∀ l : List Frame,
      Runs (e.posed (l ++ base) (.encode v (depth + 1))) (e.posed (l ++ base) (.encoded r.echo)))
    {c : Control} (left : List Record) (index : Nat) (hleft : items.drop index = left)
    (done : List Record) (hdone : done.reverse = (items.take index).map Record.echo) :
    Runs ((e.posed (l ++ base) c).nextElement q depth items.length index done)
      (e.posed (l ++ base) (.encoded (Record.array items).echo)) := by
  induction left generalizing index done with
  | nil =>
    have hle := List.drop_eq_nil_iff.1 hleft
    rw [nextElement, if_neg (Nat.not_lt.2 hle), hdone, List.take_of_length_le hle, Record.echo,
      Record.echoItems_eq_map]
    exact .refl
  | cons r left ih =>
    have hget : items[index]? = some r := by
      rw [← Nat.add_zero index, ← List.getElem?_drop, hleft]
      rfl
    obtain ⟨hindex, -⟩ := List.getElem?_eq_some_iff.1 hget
    obtain ⟨v, hv⟩ : ∃ v, vs[index]? = some v := ⟨_, List.getElem?_eq_getElem (hlength ▸ hindex)⟩
    refine (runs_element hl hr hl hr hindex (fun st => ?_) (hitems index r v hget hv) l).trans ?_
    · exact proceed_own (e := e.posed st (.read (.object q) (.index index))) rfl hq
        (fun slot token h => by rw [hk] at h; cases h) (hown index v hv)
    refine ih (index + 1) ?_ (r.echo :: done) ?_
    · rw [← List.drop_drop, hleft]
      rfl
    · rw [List.reverse_cons, hdone, List.take_add_one, hget, List.map_append]
      rfl

/-- **A value that mirrors a record goes out as what comes back for it.** -/
theorem Mirrors.encodes (hm : Mirrors n e.heap e.handles r w)
    (hl : Lasting e.heap e.handles base) (hr : e.released = []) (room depth : Nat)
    (hroom : depth + room ≤ e.maxDepth) (hf : r.Fits e.maxLength room) (l : List Frame) :
    Runs (e.posed (l ++ base) (.encode w depth)) (e.posed (l ++ base) (.encoded r.echo)) := by
  induction hm generalizing room depth l with
  | @leaf r view v hn hview hd =>
    refine runs_posed hl hr ?_
    rw [Record.echo_of_view hn hview]
    exact congrArg (·, Event.silent)
      (encodeStep_scalar (e := e.posed (l ++ base) (.encode v depth)) hd
        (hf.isScalar hn hview) rfl)
  | @array items vs q o hq hn hk ho hlength hown hitems ih =>
    cases room with
    | zero => cases hf
    | succ room =>
      rw [Record.Fits] at hf
      obtain ⟨hle, hmax, hf⟩ := hf
      have hstart : Runs (e.posed (l ++ base) (.encode (.object q) depth))
          ((e.posed (l ++ base) (.encode (.object q) depth)).nextElement q depth items.length 0
            []) := by
        exact runs_posed hl hr (congrArg (·, Event.silent)
          (encodeObject_array (e := e.posed (l ++ base) (.encode (.object q) depth)) hq ho hk
            (show depth < e.maxDepth by omega) hle hmax))
      refine hstart.trans (runs_elements hl hr hq hk hlength hown (fun i r v hr hv l => ?_) items 0
        rfl [] rfl)
      exact ih i r v hr hv room (depth + 1) (by omega)
        (Record.allFit_iff.1 hf r (List.mem_of_getElem? hr)) l

end Engine

end ScriptBridge
