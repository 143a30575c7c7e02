/-
# Who answers for a handle

A handle that has been handed out is answered for once: by the engine while it is on its way to
the host or about to be given up, by what is still to be done for a record, or by one of the
foreign objects that are kept.  What somebody answers for is live, and it stays with the script
object for which it was handed out.
-/
import ScriptBridge.Proofs.Session.History

namespace ScriptBridge.Session

open ScriptBridge.Bridge ScriptBridge.Host ScriptBridge.Script ScriptBridge.Table
open ScriptBridge.Wire

variable {k k' : List ForeignObject} {s s' : Session} {b : Nat} {x y : Side} {g : Handle}
  {types : List HostType} {setups : List Setup} {hist older : List Session}

/-! ### What answers for handles -/

/-- The handles that a thing still to be done gives up or hands on. -/
def Mark.handles : Mark → List Handle
  | .decode r => r.handles
  | .perform tasks _ _ => tasks.flatMap Task.released
  | .running (.member _ _ tasks _ _) => tasks.flatMap Task.released
  | _ => []

namespace Side

/-- The handles that something answers for, once for each answer. -/
def owned (x : Side) (k : List ForeignObject) : List Handle :=
  x.engine.holding ++ x.trail.flatMap Mark.handles ++ k.map (·.handle)

/-- Each handle is answered for once at most, and those that are answered for are live. -/
structure Owns (x : Side) (k : List ForeignObject) : Prop where
  indexed : x.engine.handles.IsIndexed
  nodup : (x.owned k).Nodup
  live : ∀ h ∈ x.owned k, (x.engine.handles.get? h).isSome

/-- What becomes of the handles of a bridge. -/
inductive Turns (k k' : List ForeignObject) (x y : Side) : Prop
  /-- The table of handles stays as it is. -/
  | keeps (ht : y.engine.handles = x.engine.handles)
    (hp : ∀ g, (y.owned k').count g ≤ (x.owned k).count g)
  /-- A handle is handed out. -/
  | pins {h : Handle} {r : Ref} (ho : x.engine.Exports r)
    (hi : x.engine.handles.insert r = some (h, y.engine.handles))
    (hp : ∀ g, (y.owned k').count g ≤ (h :: x.owned k).count g)
  /-- A handle is given up. -/
  | drops {h : Handle} {r : Ref} (hr : x.engine.handles.remove h = some (r, y.engine.handles))
    (hp : ∀ g, (h :: y.owned k').count g ≤ (x.owned k).count g)

end Side

open Side

lemma handles_of_blank {os : List Mark} (hos : Blank os) : os.flatMap Mark.handles = [] :=
  List.flatMap_eq_nil_iff.2 fun m hm => by rw [hos m hm]; rfl

/-! ### Steps -/

/-- A step of an engine turns over the handles of its bridge. -/
lemma Side.Turns.of_step {e : Engine} {a a' : Arena Entry} {q q' : List Slot}
    {T T' : List Mark} (h : Engine.Turns e e.step.1 e.step.2.holding) (hk : Within k' k)
    (hT : ∀ g, (T'.flatMap Mark.handles).count g ≤
      e.step.2.holding.count g + (T.flatMap Mark.handles).count g) :
    Side.Turns k k' ⟨e, a, q, T⟩ ⟨e.step.1, a', q', T'⟩ := by
  have hkept := hk.count_map (·.handle)
  cases h with
  | keeps ht hp =>
    refine .keeps ht fun g => ?_
    have := hp g
    have := hT g
    have := hkept g
    simp only [owned, List.count_append] at *
    omega
  | @pins h r ho hi hp =>
    refine .pins ho hi fun g => ?_
    have := hp g
    have := hT g
    have := hkept g
    simp only [owned, List.count_append, List.count_cons] at *
    omega
  | @drops h r hr hp =>
    refine .drops hr fun g => ?_
    have := hp g
    have := hT g
    have := hkept g
    simp only [owned, List.count_append, List.count_cons] at *
    omega

/-- The handles of a bridge stay as they are where its table does and no more are answered for. -/
lemma Side.Turns.of_handles {e e' : Engine} {a a' : Arena Entry} {q q' : List Slot}
    {T T' : List Mark} (ht : e'.handles = e.handles)
    (hp : ∀ g, e'.holding.count g + (T'.flatMap Mark.handles).count g +
      (k'.map (·.handle)).count g ≤
      e.holding.count g + (T.flatMap Mark.handles).count g + (k.map (·.handle)).count g) :
    Side.Turns k k' ⟨e, a, q, T⟩ ⟨e', a', q', T'⟩ := by
  refine .keeps ht fun g => ?_
  simpa only [owned, List.count_append] using hp g

lemma count_holding_enter (e : Engine) (w : Engine.Operation) (g : Handle) :
    (e.enter w).holding.count g =
      (Engine.Control.begin w).holding.count g + e.holding.count g := by
  simp only [Engine.holding, Engine.enter, Engine.Frame.holding, List.flatMap_cons,
    List.count_append]

lemma count_holding_answer (e : Engine) (r : Record) (g : Handle) :
    (e.answer r).holding.count g ≤ e.holding.count g := by
  have hheld : (e.answer r).holding = e.stack.flatMap Engine.Frame.holding := rfl
  rw [hheld, Engine.holding, List.count_append]
  exact Nat.le_add_left ..

/-- The handles in the reply of an engine are those of what becomes of it. -/
lemma count_handles_mark (p : Purpose) (r : Record) (g : Handle) :
    (p.mark r).handles.count g ≤ r.handles.count g + (Mark.running p).handles.count g := by
  cases p with
  | value => exact Nat.le_add_right ..
  | nothing => exact Nat.zero_le _
  | member h name tasks heard result =>
    have hrelease : (r.handles.map Task.release).flatMap Task.released = r.handles := by
      rw [List.flatMap_map]
      exact List.flatMap_singleton' _
    simp only [Purpose.mark, Mark.handles, List.flatMap_append, hrelease, List.count_append]
    exact Nat.le_refl _

/-- **A step hands out one handle, or gives up one handle, or leaves the handles of a bridge as
they are**, and it doubles no answer. -/
theorem Moves.turns (h : Moves k k' x y) (hx : x.Accounted) : Side.Turns k k' x y := by
  have hstep : ∀ {e : Engine}, e.Shaped → Engine.Turns e e.step.1 e.step.2.holding :=
    fun hs => Engine.step_turns hs
  have hs := hx.shaped
  cases h with
  | plain hos hos' hT hk =>
    refine .of_handles rfl fun g => ?_
    have := hk.count_map (·.handle) g
    simp only [List.flatMap_append, handles_of_blank hos, handles_of_blank hos', List.nil_append]
    omega
  | opens hm hos hw hp hk =>
    refine .of_handles rfl fun g => ?_
    have := hk.count_map (·.handle) g
    rw [count_holding_enter, hw]
    rcases hp with rfl | rfl <;>
      simp only [List.flatMap_cons, List.flatMap_append, handles_of_blank hos, Mark.handles,
        List.nil_append, List.count_nil] <;> omega
  | balks hm hos hk =>
    refine .of_handles rfl fun g => ?_
    have := hk.count_map (·.handle) g
    simp only [List.flatMap_cons, List.flatMap_append, handles_of_blank hos, Mark.handles,
      List.nil_append]
    omega
  | releases f hm hk =>
    refine .of_handles rfl fun g => ?_
    have := hk.count_map (·.handle) g
    rw [count_holding_enter]
    simp only [Engine.Control.holding, List.map_cons, List.count_cons, List.count_nil,
      List.flatMap_cons, Mark.handles, List.nil_append] at *
    omega
  | gives hk =>
    refine .of_handles rfl fun g => ?_
    have := hk.count_map (·.handle) g
    rw [count_holding_enter]
    simp only [Engine.Control.holding, List.flatMap_cons, Mark.handles, Task.released,
      List.nil_append, List.count_append] at *
    omega
  | reads hk =>
    refine .of_handles rfl fun g => ?_
    have := hk.count_map (·.handle) g
    rw [count_holding_enter]
    simp only [Engine.Control.holding, List.flatMap_cons, Mark.handles, Task.released,
      List.nil_append, List.count_append, List.count_nil] at *
    omega
  | decodes hp hk =>
    refine .of_handles rfl fun g => ?_
    have := hk.count_map (·.handle) g
    have := hp g
    simp only [List.flatMap_cons, Mark.handles, List.map_append, List.count_append] at *
    omega
  -- What its engine hands out or gives up is all that happens.
  | works he hk | defers he hi hk | unpins he hi ht hk | misses he hi ht hk | refuses he hk
  | calls he hk | pins he hm hk =>
    refine .of_step (hstep hs) hk fun g => ?_
    simp only [List.flatMap_cons, Mark.handles, List.nil_append]
    exact Nat.le_add_left ..
  | takes he hr hh hk =>
    refine .of_step (hstep hs) hk fun g => ?_
    rw [he]
    simp only [List.flatMap_cons, Mark.handles, Engine.Event.holding, hh, List.nil_append,
      List.count_append]
    exact Nat.le_refl _
  | @finishes e a q r p T he hk =>
    refine .of_step (hstep hs) hk fun g => ?_
    have hmark := count_handles_mark p r g
    rw [he]
    rw [List.flatMap_cons, List.flatMap_cons, List.flatMap_cons, List.count_append,
      List.count_append, List.count_append]
    have hnone : Mark.engine.handles.count g = 0 := rfl
    have hsent : (Engine.Event.finished r).holding = r.handles := rfl
    rw [hnone, hsent]
    omega
  | answers hr hk =>
    refine .of_handles rfl fun g => ?_
    have := hk.count_map (·.handle) g
    have := count_holding_answer ‹Engine› ‹Record› g
    simp only [List.flatMap_cons, Mark.handles, List.nil_append] at *
    omega
  | performed hk | replies hk | leaves hi hk | leavesLast hi hk | responds hm hk | fails hk
  | drains ht hk | passes ht hk | refills hk | dries hk =>
    refine .of_handles rfl fun g => ?_
    have := hk.count_map (·.handle) g
    simp only [List.flatMap_cons, List.flatMap_nil, Mark.handles, List.nil_append] at *
    omega
  | strays h => exact absurd h hx.nested.not_astray

/-! ### What is answered for is live -/

lemma mem_of_count {few many : List Handle} (h : ∀ g, few.count g ≤ many.count g)
    (hg : g ∈ few) : g ∈ many :=
  List.count_pos_iff.1 (Nat.lt_of_lt_of_le (List.count_pos_iff.2 hg) (h g))

lemma nodup_of_count {few many : List Handle} (h : ∀ g, few.count g ≤ many.count g)
    (hm : many.Nodup) : few.Nodup :=
  List.nodup_iff_count_le_one.2 fun g => Nat.le_trans (h g) (List.nodup_iff_count_le_one.1 hm g)

/-- What is answered for after a step was answered for before it and has stayed as it was, or it
has just been handed out. -/
lemma Side.Turns.follows (h : Side.Turns k k' x y) (hx : x.Owns k) (hg : g ∈ y.owned k') :
    (g ∈ x.owned k ∧ y.engine.handles.get? g = x.engine.handles.get? g) ∨
    ∃ r, x.engine.Exports r ∧ x.engine.handles.get? g = none ∧
      y.engine.handles.get? g = some r := by
  cases h with
  | keeps ht hp => exact .inl ⟨mem_of_count hp hg, by rw [ht]⟩
  | @pins h r ho hi hp =>
    by_cases heq : g = h
    · subst heq
      refine .inr ⟨r, ho, Handles.get?_of_insert hx.indexed hi, ?_⟩
      rw [Handles.get?_insert hx.indexed hi, if_pos rfl]
    · refine .inl ⟨(List.mem_cons.1 (mem_of_count hp hg)).resolve_left heq, ?_⟩
      rw [Handles.get?_insert hx.indexed hi, if_neg heq]
  | @drops h r hr hp =>
    have hne : g ≠ h := fun heq =>
      (List.nodup_cons.1 (nodup_of_count hp hx.nodup)).1 (heq ▸ hg)
    refine .inl ⟨mem_of_count hp (List.mem_cons_of_mem _ hg), ?_⟩
    rw [Handles.get?_remove hr, if_neg hne]

/-- **Each handle is answered for once at most after every step, and it is live.** -/
theorem Side.Turns.owns (h : Side.Turns k k' x y) (hx : x.Owns k) : y.Owns k' where
  indexed := by
    cases h with
    | keeps ht hp => rw [ht]; exact hx.indexed
    | pins ho hi hp => exact hx.indexed.insert hi
    | drops hr hp => exact hx.indexed.remove hr
  nodup := by
    cases h with
    | keeps ht hp => exact nodup_of_count hp hx.nodup
    | @pins h r ho hi hp =>
      refine nodup_of_count hp (List.nodup_cons.2 ⟨fun hm => ?_, hx.nodup⟩)
      have hlive := hx.live h hm
      rw [Handles.get?_of_insert hx.indexed hi] at hlive
      cases hlive
    | drops hr hp => exact (List.nodup_cons.1 (nodup_of_count hp hx.nodup)).2
  live := fun g hg => by
    rcases h.follows hx hg with ⟨hm, heq⟩ | ⟨r, -, -, heq⟩
    · rw [heq]
      exact hx.live g hm
    · rw [heq]
      rfl

lemma kept_of_create (h : create types setups = .ok s) (b : Nat) : s.kept b = [] := by
  unfold create at h
  cases hmap : setups.mapM Bridge.create with
  | error err =>
    rw [hmap] at h
    cases h
  | ok bridges =>
    rw [hmap] at h
    cases h
    rfl

/-- What is answered for after something has happened was answered for before it and has stayed as
it was, or it has just been handed out. -/
lemma Goes.follows (h : Goes s s') (hs : ∀ x, s.side? b = some x → x.Accounted)
    (hx : ∀ x, s.side? b = some x → x.Owns (s.kept b)) (hy : s'.side? b = some y) :
    y.Owns (s'.kept b) ∧ ∃ x, s.side? b = some x ∧ ∀ g ∈ y.owned (s'.kept b),
      (g ∈ x.owned (s.kept b) ∧ y.engine.handles.get? g = x.engine.handles.get? g) ∨
      ∃ r, x.engine.Exports r ∧ x.engine.handles.get? g = none ∧
        y.engine.handles.get? g = some r := by
  obtain ⟨k, x, z, hw, hmove, hrest⟩ := h.moves hy
  have hturns := hmove.turns (hs x hw)
  have hz := hturns.owns (hx x hw)
  rcases hrest with ⟨rfl, rfl⟩ | ⟨-, hmove', hengine, -⟩
  · exact ⟨hz, x, hw, fun g hg => hturns.follows (hx x hw) hg⟩
  · have hturns' := hmove'.turns (hmove.accounted (hs x hw))
    refine ⟨hturns'.owns hz, x, hw, fun g hg => ?_⟩
    rcases hturns'.follows hz hg with ⟨hm, heq⟩ | ⟨r, -, hnone, hsome⟩
    · rw [heq]
      exact hturns.follows (hx x hw) hm
    · -- The engine has not gone on in between.
      rw [hengine, hnone] at hsome
      cases hsome

/-- **The handles of a bridge are answered for at all times.** -/
theorem History.owns (h : History types setups hist) (hs : s ∈ hist)
    (hx : s.side? b = some x) : x.Owns (s.kept b) := by
  induction h generalizing s x with
  | starts hcreate =>
    obtain rfl := List.mem_singleton.1 hs
    obtain ⟨maxDepth, maxLength, maxCalls, policy, rfl⟩ := side?_of_create hcreate hx
    rw [kept_of_create hcreate]
    exact ⟨Handles.isIndexed_empty, List.nodup_nil, fun h hh => by cases hh⟩
  | @goes u s' older h hgo ih =>
    rcases List.mem_cons.1 hs with rfl | hs
    · exact (hgo.follows (fun x hx => h.accounted (List.mem_cons_self ..) hx)
        (fun x hx => ih (List.mem_cons_self ..) hx) hx).1
    · exact ih hs hx

/-- **The foreign objects of a bridge have numbers that were given out, each its own.** -/
theorem History.numbered (h : History types setups hist) (hs : s ∈ hist) (b : Nat) :
    Numbered 0 s.nextLease (s.kept b) := by
  induction h generalizing s with
  | starts hcreate =>
    obtain rfl := List.mem_singleton.1 hs
    rw [kept_of_create hcreate]
    exact .nil (Nat.zero_le _)
  | @goes u s' older h hgo ih =>
    rcases List.mem_cons.1 hs with rfl | hs
    · obtain ⟨t, hfirst, rfl | ⟨-, -, hsecond, -⟩⟩ := hgo.stride
      · exact hfirst.numbered (ih (List.mem_cons_self ..))
      · exact hsecond.numbered (hfirst.numbered (ih (List.mem_cons_self ..)))
    · exact ih hs

/-! ### Handles over time -/

/-- The script object at a handle of a bridge. -/
def pinned? (s : Session) (b : Nat) (h : Handle) : Option Ref :=
  (s.engine? b).bind (·.handles.get? h)

/-- A handle has belonged to a script object ever since something was so. -/
inductive Pinned (b : Nat) (h : Handle) (r : Ref) (P : List Session → Prop) :
    List Session → Prop
  /-- It is so now. -/
  | now {s : Session} {older : List Session} (hr : s.pinned? b h = some r)
    (hP : P (s :: older)) : Pinned b h r P (s :: older)
  /-- It was so before. -/
  | later {s : Session} {older : List Session} (hr : s.pinned? b h = some r)
    (hp : Pinned b h r P older) : Pinned b h r P (s :: older)

/-- A handle has just been handed out for a script object that is on its way to the host, before
there was a lease of that number. -/
def Exported (b : Nat) (h : Handle) (r : Ref) (number : Nat) (hist : List Session) : Prop :=
  ∃ s t older e, hist = s :: t :: older ∧ t.engine? b = some e ∧ e.Exports r ∧
    e.handles.get? h = none ∧ t.nextLease ≤ number

lemma pinned?_of_side? (hx : s.side? b = some x) (h : Handle) :
    s.pinned? b h = x.engine.handles.get? h := by
  rw [pinned?, engine?_of_side? hx]
  rfl

lemma Goes.nextLease_le (h : Goes s s') : s.nextLease ≤ s'.nextLease := by
  obtain ⟨t, hfirst, rfl | ⟨-, -, hsecond, -⟩⟩ := h.stride
  · exact hfirst.nextLease_le
  · exact Nat.le_trans hfirst.nextLease_le hsecond.nextLease_le

lemma Pinned.mono {r : Ref} {P Q : List Session → Prop} (h : Pinned b g r P hist)
    (hPQ : ∀ hist, P hist → Q hist) : Pinned b g r Q hist := by
  induction h with
  | now hr hP => exact .now hr (hPQ _ hP)
  | later hr hp ih => exact .later hr ih

lemma Exported.mono {h : Handle} {r : Ref} {m n : Nat} (hmn : m ≤ n)
    (he : Exported b h r m hist) : Exported b h r n hist := by
  obtain ⟨s, t, older, e, heq, hengine, ho, hnone, hle⟩ := he
  exact ⟨s, t, older, e, heq, hengine, ho, hnone, Nat.le_trans hle hmn⟩

/-- What is answered for has belonged to one script object since it was handed out for it. -/
lemma History.pinned (h : History types setups (s :: older)) (hx : s.side? b = some x)
    (hg : g ∈ x.owned (s.kept b)) :
    ∃ r, Pinned b g r (Exported b g r s.nextLease) (s :: older) := by
  generalize heq : s :: older = hist at h
  induction h generalizing s older x with
  | starts hcreate =>
    cases heq
    have hlive := (History.starts hcreate).owns (List.mem_cons_self ..) hx |>.live g hg
    obtain ⟨maxDepth, maxLength, maxCalls, policy, rfl⟩ := side?_of_create hcreate hx
    cases hlive
  | @goes t s' rest h hgo ih =>
    cases heq
    obtain ⟨-, w, hw, hfollows⟩ := hgo.follows
      (fun x hx => h.accounted (List.mem_cons_self ..) hx)
      (fun x hx => h.owns (List.mem_cons_self ..) hx) hx
    rcases hfollows g hg with ⟨hm, hsame⟩ | ⟨r, ho, hnone, hsome⟩
    · obtain ⟨r, hr⟩ := ih hw hm rfl
      have hbefore : t.pinned? b g = some r := by cases hr <;> assumption
      refine ⟨r, .later ?_ (hr.mono fun _ => .mono hgo.nextLease_le)⟩
      rw [pinned?_of_side? hx, hsame, ← pinned?_of_side? hw]
      exact hbefore
    · exact ⟨r, .now ((pinned?_of_side? hx g).trans hsome)
        ⟨s', t, rest, w.engine, rfl, engine?_of_side? hw, ho, hnone, hgo.nextLease_le⟩⟩

lemma Goes.mem_kept (h : Goes s s') {f : ForeignObject} (hf : f ∈ s'.kept b) :
    f ∈ s.kept b ∨ ∃ k r, s.control = .decode b r ∧ s.core? b = some k ∧
      f ∈ foreignsOfResult (decode b k.arena s.nextLease r).result := by
  obtain ⟨t, hfirst, hrest⟩ := h.stride
  have hmid : f ∈ t.kept b := by
    rcases hrest with rfl | ⟨-, hinner, hsecond, -⟩
    · exact hf
    · refine (hsecond.mem_kept hf).resolve_right ?_
      rintro ⟨k, r, -, -, -, hnot⟩
      rw [hinner] at hnot
      cases hnot
  rcases hfirst.mem_kept hmid with hold | ⟨k, r, hc, hb, hnew, -⟩
  · exact .inl hold
  · exact .inr ⟨k, r, hc, hb, hnew⟩

/-- **A lease has had the script object for which its handle was handed out, since before it was
made.** -/
theorem History.pinned_kept (h : History types setups (s :: older))
    (hx : s.side? b = some x) {f : ForeignObject} (hf : f ∈ s.kept b) :
    ∃ r, Pinned b f.handle r (Exported b f.handle r f.lease) (s :: older) := by
  generalize heq : s :: older = hist at h
  induction h generalizing s older x with
  | starts hcreate =>
    cases heq
    rw [kept_of_create hcreate] at hf
    cases hf
  | @goes t s' rest h hgo ih =>
    cases heq
    obtain ⟨hy, w, hw, hfollows⟩ := hgo.follows
      (fun x hx => h.accounted (List.mem_cons_self ..) hx)
      (fun x hx => h.owns (List.mem_cons_self ..) hx) hx
    have howned : f.handle ∈ x.owned (s'.kept b) :=
      List.mem_append_right _ (List.mem_map_of_mem hf)
    -- Its handle was answered for before, if it has had its script object for long enough.
    have hlater : f.handle ∈ w.owned (t.kept b) →
        (∃ r, Pinned b f.handle r (Exported b f.handle r f.lease) (t :: rest)) →
        ∃ r, Pinned b f.handle r (Exported b f.handle r f.lease) (s' :: t :: rest) := by
      rintro hm ⟨r, hr⟩
      have hbefore : w.engine.handles.get? f.handle = some r := by
        rw [← pinned?_of_side? hw]
        cases hr <;> assumption
      rcases hfollows _ howned with ⟨-, hsame⟩ | ⟨r', -, hnone, -⟩
      · exact ⟨r, .later ((pinned?_of_side? hx _).trans (hsame.trans hbefore)) hr⟩
      · rw [hnone] at hbefore
        cases hbefore
    rcases hgo.mem_kept hf with hold | ⟨k, r, hc, hb, hnew⟩
    · exact hlater (List.mem_append_right _ (List.mem_map_of_mem hold)) (ih hw hold rfl)
    · have hm : f.handle ∈ w.owned (t.kept b) := by
        refine List.mem_append_left _ (List.mem_append_right _ ?_)
        rw [← (side?_eq_some.1 hw).2, trail_eq hc rfl, List.flatMap_cons,
          show (Control.decode b r).mark b = .decode r from if_pos rfl]
        refine List.mem_append_left _ ((places_decode b k.arena t.nextLease r).perm.symm.subset ?_)
        exact List.mem_append_right _ (List.mem_map_of_mem hnew)
      obtain ⟨r', hr'⟩ := h.pinned hw hm
      have hlease := ((numbered_decode b k.arena t.nextLease r).bounds f hnew).1
      exact hlater hm ⟨r', hr'.mono fun _ => .mono hlease⟩

end ScriptBridge.Session
