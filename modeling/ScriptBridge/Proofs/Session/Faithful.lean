/-
# Stand-ins and their entries

Where script has not put anything in the place of the class of stand-ins, a stand-in and a
slot on its way to the host always have their entry.  An entry is never replaced by another
one: its slot has to be given up first.
-/
import ScriptBridge.Proofs.Session.Accounts

namespace ScriptBridge.Session

open ScriptBridge.Bridge ScriptBridge.Host ScriptBridge.Table ScriptBridge.Wire

variable {k k' : List ForeignObject} {x y : Side} {s : Slot} {v : Entry}

/-- The slots of a bridge are accounted for, and those that are on their way to the host
are occupied. -/
structure Side.Faithful (x : Side) : Prop extends x.Accounted where
  honest : x.engine.Honest
  held : ∀ s ∈ x.outgoing, s ∈ x.holders

/-! ### What script sees -/

lemma Moves.honest (h : Moves k k' x y) (hx : x.Accounted) (hh : x.engine.Honest)
    (hi : x.engine.isIntact .proxy = true) : y.engine.Honest := by
  rcases h.engine hx with heq | ⟨-, heq⟩ | ⟨hc, -, ⟨w, heq⟩ | ⟨-, -, r, heq⟩⟩ <;> rw [heq]
  · exact hh
  · exact hh.step hx.shaped hi
  · exact hh.enter hc
  · exact hh.answer hc r

/-- Outside all operations, no slot is on its way to the host. -/
lemma Side.Accounted.outgoing_eq_nil (hx : x.Accounted) (hs : .scope ∉ x.trail) :
    x.outgoing = [] := by
  obtain ⟨e, a, q, T⟩ := x
  have hn := hx.nested
  cases hn with
  | rests h =>
    obtain ⟨hcontrol, hstack, htrail⟩ := h.outbound hs
    dsimp only at hcontrol hstack htrail
    simp only [Side.outgoing, Engine.outbound, hcontrol, hstack, htrail, List.append_nil]
  | @works T p c st hb h hr =>
    have hscope : .scope ∉ T := fun hm =>
      hs (List.mem_cons_of_mem _ (List.mem_cons_of_mem _ hm))
    obtain ⟨-, hc, hstack⟩ := hr.resolve_left hscope
    obtain ⟨hcontrol, hrest, htrail⟩ := h.outbound hscope
    dsimp only at hstack
    simp only [Side.outgoing, Engine.outbound, hc.isResting.outbound, hstack, List.flatMap_cons,
      Engine.Frame.outbound, hcontrol, hrest, Mark.outgoing, htrail, List.append_nil]

lemma outbound_enter {e : Engine} {w : Engine.Operation} (hs : s ∈ (e.enter w).outbound) :
    s ∈ e.outbound := by
  simpa [Engine.outbound, Engine.enter, Engine.Control.outbound, Engine.Frame.outbound] using hs

lemma outbound_answer {e : Engine} {r : Record} (hs : s ∈ (e.answer r).outbound) :
    s ∈ e.outbound := by
  have hstack : s ∈ e.stack.flatMap Engine.Frame.outbound := by
    simpa [Engine.outbound, Engine.answer, Engine.goto, Engine.Control.outbound] using hs
  exact List.mem_append_right _ hstack

/-- A slot gets on its way to the host only from a stand-in. -/
lemma Moves.outgoing (h : Moves k k' x y) (hx : x.Accounted) (hh : x.engine.Honest)
    (hs : s ∈ y.outgoing) : s ∈ x.outgoing ∨ x.engine.HasStandIn s := by
  have hstep : ∀ {e : Engine} {slots : List Slot}, e.Shaped → e.Honest →
      s ∈ e.step.1.outbound ++ e.step.2.outbound → s ∈ e.outbound ++ slots ∨ e.HasStandIn s :=
    fun hs hh hm => (Engine.step_outbound hs hh hm).imp_left (List.mem_append_left _)
  have hsplit : ∀ {l l' m : List Slot}, s ∈ l ++ m → (s ∈ l → s ∈ l') → s ∈ l' ++ m :=
    fun h hl => (List.mem_append.1 h).elim (fun h => List.mem_append_left _ (hl h))
      (List.mem_append_right _)
  -- Only a step of the engine puts a slot on its way; all others hand on what is there.
  cases h with
  | plain hos hos' hT =>
    simp only [Side.outgoing, List.flatMap_append, outgoing_of_blank hos,
      outgoing_of_blank hos'] at hs ⊢
    exact .inl hs
  | opens hm hos =>
    simp only [Side.outgoing, List.flatMap_cons, List.flatMap_append, outgoing_of_blank hos,
      Mark.outgoing, List.nil_append] at hs ⊢
    exact .inl (hsplit hs outbound_enter)
  | balks hm hos =>
    simp only [Side.outgoing, List.flatMap_cons, List.flatMap_append, outgoing_of_blank hos,
      Mark.outgoing, List.nil_append] at hs ⊢
    exact .inl hs
  | releases | gives | reads => exact .inl (hsplit hs outbound_enter)
  | works | defers | unpins | misses | refuses | calls =>
    rcases List.mem_append.1 hs with hs | hs
    · exact hstep hx.shaped hh (List.mem_append_left _ hs)
    · exact .inl (List.mem_append_right _ hs)
  | pins =>
    rcases List.mem_append.1 hs with hs | hs
    · exact hstep hx.shaped hh (List.mem_append_left _ hs)
    · exact .inl (List.mem_append_right _ hs)
  | @takes e a q req r T he hr =>
    simp only [Side.outgoing, List.flatMap_cons, Mark.outgoing, List.nil_append] at hs ⊢
    rcases List.mem_append.1 hs with hs | hs
    · exact hstep hx.shaped hh (List.mem_append_left _ hs)
    · rcases List.mem_append.1 hs with hs | hs
      · refine hstep hx.shaped hh (List.mem_append_right _ ?_)
        rw [he, Engine.Event.outbound, ← hr]
        exact hs
      · exact .inl (List.mem_append_right _ hs)
  | @finishes e a q r p T he =>
    simp only [Side.outgoing, List.flatMap_cons, Mark.outgoing, List.nil_append] at hs ⊢
    rcases List.mem_append.1 hs with hs | hs
    · exact hstep hx.shaped hh (List.mem_append_left _ hs)
    · rcases List.mem_append.1 hs with hs | hs
      · refine hstep hx.shaped hh (List.mem_append_right _ ?_)
        rw [he]
        cases p with
        | value => exact hs
        | _ => cases hs
      · exact .inl (List.mem_append_right _ hs)
  | answers hr => exact .inl (hsplit hs outbound_answer)
  | performed | replies | leaves | leavesLast | responds | fails | drains | passes | refills |
    dries => exact .inl hs
  | decodes =>
    simp only [Side.outgoing, List.flatMap_cons, Mark.outgoing, List.nil_append] at hs ⊢
    exact .inl (hsplit (m := _ ++ _) (List.mem_append.2 ((List.mem_append.1 hs).imp_right
      (List.mem_append_right _))) id)
  | strays h => exact absurd h hx.nested.not_astray

/-! ### Entries -/

/-- **An entry that something keeps stays where it is.** -/
theorem Moves.get?_eq_some (h : Moves k k' x y) (hx : x.Accounted) (hv : x.arena.get? s = some v)
    (hs : s ∈ y.holders) : y.arena.get? s = some v := by
  cases h.settles hx with
  | @mints slots hm hp =>
    have hfresh : s ∉ slots := fun hmem => by
      rw [(hm.fresh s hmem).1] at hv
      cases hv
    exact (hm.kept s hfresh).trans hv
  | @takes slot entry ht hp =>
    have hne : s ≠ slot := fun heq =>
      (List.nodup_cons.1 (hp.nodup_iff.1 hx.nodup)).1 (heq ▸ hs)
    rw [Arena.get?_take ht, if_neg hne]
    exact hv

/-- A stand-in keeps its slot. -/
lemma Side.mem_holders_of_hasStandIn (hh : x.engine.Honest) (hs : x.engine.HasStandIn s) :
    s ∈ x.holders :=
  List.mem_append_left _ (List.mem_append_left _ (List.mem_append_left _
    (List.mem_append_left _ (List.mem_append_left _ (hh.mem_heldSlots_of_hasStandIn hs)))))

/-- **Stand-ins and slots on their way to the host keep their entries.** -/
theorem Moves.faithful (h : Moves k k' x y) (hx : x.Faithful)
    (hi : x.engine.isIntact .proxy = true) :
    y.Faithful where
  toAccounted := h.accounted hx.toAccounted
  honest := h.honest hx.toAccounted hx.honest hi
  held := fun s hs => by
    have hy := h.accounted hx.toAccounted
    have hmem : s ∈ x.holders :=
      (h.outgoing hx.toAccounted hx.honest hs).elim (hx.held s)
        (Side.mem_holders_of_hasStandIn hx.honest)
    cases h.settles hx.toAccounted with
    | mints hm hp => exact hp.symm.subset (List.mem_append_right _ hmem)
    | takes ht hp hscope =>
      rw [hy.outgoing_eq_nil hscope] at hs
      cases hs

end ScriptBridge.Session
