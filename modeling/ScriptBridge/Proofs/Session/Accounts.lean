/-
# Every slot is accounted for

A slot that is occupied is kept by exactly one of these: a token or a record of the engine,
the slots that were deferred, and what is still to be done.  A step hands out vacant slots
along with new keepers for them, or it gives up one slot that nothing keeps any more, and
that only outside all operations.
-/
import ScriptBridge.Proofs.Session.Nesting

namespace ScriptBridge.Session

open ScriptBridge.Bridge ScriptBridge.Host ScriptBridge.Table ScriptBridge.Wire

variable {k k' : List ForeignObject} {x y : Side} {s : Slot}

namespace Side

/-- Everything that keeps a slot. -/
def holders (x : Side) : List Slot :=
  x.engine.custody ++ x.deferred ++ x.trail.flatMap Mark.slots

/-- The slots that are on their way to the host. -/
def outgoing (x : Side) : List Slot := x.engine.outbound ++ x.trail.flatMap Mark.outgoing

/-- The slots of a bridge are accounted for. -/
structure Accounted (x : Side) : Prop where
  shaped : x.engine.Shaped
  sound : x.engine.heap.Sound
  connected : x.engine.connected = true
  nested : Nested x.engine x.trail
  clean : .engine ∉ x.trail → x.engine.Clean
  nodup : x.holders.Nodup
  occupied : ∀ s, s ∈ x.holders ↔ (x.arena.get? s).isSome
  regular : x.arena.IsRegular
  deferred : x.deferred ≠ [] → .scope ∈ x.trail ∨ ∃ slots, .drain slots ∈ x.trail

/-- What becomes of the slots of a bridge. -/
inductive Settles (x y : Side) : Prop
  /-- Some are handed out. -/
  | mints {slots : List Slot} (hm : x.arena.Mints y.arena slots)
    (hp : y.holders.Perm (slots ++ x.holders))
  /-- One is given up, outside all operations. -/
  | takes {slot : Slot} {entry : Entry} (ht : x.arena.take slot = some (entry, y.arena))
    (hp : x.holders.Perm (slot :: y.holders)) (hs : .scope ∉ y.trail)

end Side

open Side

/-! ### Blank marks -/

lemma slots_of_blank {os : List Mark} (hos : Blank os) : os.flatMap Mark.slots = [] :=
  List.flatMap_eq_nil_iff.2 fun m hm => by rw [hos m hm]; rfl

lemma outgoing_of_blank {os : List Mark} (hos : Blank os) : os.flatMap Mark.outgoing = [] :=
  List.flatMap_eq_nil_iff.2 fun m hm => by rw [hos m hm]; rfl

lemma engine_not_mem_of_blank {os : List Mark} (hos : Blank os) : .engine ∉ os :=
  fun hm => by cases hos _ hm

@[simp] lemma Purpose.slots_mark (p : Purpose) (r : Record) : (p.mark r).slots = [] := by
  cases p <;> rfl

/-! ### Nesting -/

/-- What is still to be done goes with the engine after every step. -/
lemma Moves.nested (h : Moves k k' x y) (hx : x.Accounted) : Nested y.engine y.trail := by
  have hn := hx.nested
  have hs := hx.shaped
  cases h with
  | @plain e a q os os' T hos hos' hT =>
    have hrests : AtRest (os ++ T) e.control e.stack := by
      refine hn.atRest_of_ne ?_
      cases os with
      | nil => exact hT rfl
      | cons m os =>
        rw [(List.forall_mem_cons.1 hos).1]
        simp
    exact .rests ((hrests.of_append hos).append hos')
  | opens hm hos =>
    exact .enter (.scope (.append hos (hn.atRest_of_cons (by simp)).of_other))
      (.inl (List.mem_cons_self ..))
  | balks hm hos =>
    exact .rests (.other (.scope (.append hos (hn.atRest_of_cons (by simp)).of_other)))
  | releases f hm => exact .enter (hn.atRest_of_cons hm) (.inr ⟨rfl, f.handle, rfl⟩)
  | gives =>
    obtain ⟨hscope, hrests⟩ := (hn.atRest_of_cons (by simp)).of_perform
    exact .enter (.perform hscope hrests) (.inl (List.mem_cons_of_mem _ hscope))
  | reads =>
    obtain ⟨hscope, hrests⟩ := (hn.atRest_of_cons (by simp)).of_perform
    exact .enter hrests (.inl hscope)
  | performed => exact .rests (.other (hn.atRest_of_cons (by simp)).of_perform.2)
  | decodes =>
    obtain ⟨hscope, hrests⟩ := (hn.atRest_of_cons (by simp)).of_decode
    exact .rests (.perform hscope hrests)
  | works he => exact hn.step hs (by rw [he]; rfl)
  | defers he hi => exact hn.step hs (by rw [he]; rfl)
  -- Outside of calls an engine is at work only for a handle that is given up.
  | @unpins e a a' q slot entry T he hi ht =>
    have hstep := hn.step hs (by rw [he]; rfl)
    obtain ⟨p, T', c, st, rfl, hb, h, hr⟩ := hstep.of_engine
    have hscope : .scope ∉ T' := fun hm => hi (List.mem_cons_of_mem _ hm)
    obtain ⟨rfl, hc, hstack⟩ := hr.resolve_left hscope
    refine .rests (.other ?_)
    dsimp only at hstack ⊢
    rw [hstack]
    exact .gives hscope hc h
  | misses he hi ht => exact hn.step hs (by rw [he]; rfl)
  | refuses he => exact .rests (hn.request (m := .respond _) hs he rfl).2
  | calls he => exact .rests (.other (hn.request (m := .serving) hs he rfl).2)
  | takes he hr =>
    obtain ⟨hscope, hrests⟩ := hn.request (m := .serving) hs he rfl
    exact .rests (.decode (List.mem_cons_of_mem _ hscope) hrests)
  | pins he hm => exact .rests (hn.request (m := .answer _) hs he rfl).2
  | @finishes e a q r p T he =>
    obtain ⟨hrests, hr⟩ := hn.finished hs he
    refine .rests ?_
    cases p with
    | value => exact .decode (hr.resolve_right (by simp)) hrests
    | nothing => exact .other hrests
    | member => exact .perform (hr.resolve_right (by simp)) hrests
  | replies =>
    exact .rests ((hn.atRest_of_cons (by simp)).of_other.of_awaiting rfl rfl)
  | leaves hi => exact .rests (.other (hn.atRest_of_cons (by simp)).of_other.of_scope)
  | leavesLast hi =>
    refine .rests (.drain ?_ (.other (hn.atRest_of_cons (by simp)).of_other.of_scope))
    exact fun hm => (List.mem_cons.1 hm).elim (by simp) hi
  | responds hm => exact .rests ((hn.atRest_of_cons (by simp)).of_awaiting rfl rfl)
  | fails => exact .rests ((hn.atRest_of_cons (by simp)).of_awaiting rfl rfl)
  | @answers e a a' q res r T hr =>
    have hrests := hn.atRest_of_cons (by simp)
    dsimp only at hrests ⊢
    generalize hstack : e.stack = st at hrests
    generalize e.control = c at hrests
    cases hrests with
    | awaits hm hscope hb h =>
      exact .works (show Engine.below e.stack = _ by rw [hstack]; exact hb) h (.inl hscope)
  | drains ht =>
    obtain ⟨hscope, hrests⟩ := (hn.atRest_of_cons (by simp)).of_drain
    exact .rests (.other (.drain hscope hrests))
  | passes ht =>
    obtain ⟨hscope, hrests⟩ := (hn.atRest_of_cons (by simp)).of_drain
    exact .rests (.drain hscope hrests)
  | refills =>
    obtain ⟨hscope, hrests⟩ := (hn.atRest_of_cons (by simp)).of_drain
    exact .rests (.drain hscope hrests)
  | dries => exact .rests (.other (hn.atRest_of_cons (by simp)).of_drain.2)
  | strays h => exact absurd h hn.not_astray

/-! ### Slots -/

/-- A slot that an engine reports was kept by it alone. -/
lemma holders_removed {e : Engine} {a : Arena Entry} {q : List Slot} {T : List Mark}
    (hx : Accounted ⟨e, a, q, T⟩) (he : e.step.2 = .removed s) :
    (holders ⟨e, a, q, T⟩).Perm (s :: holders ⟨e.step.1, a, q, T⟩) := by
  have hperm := Engine.step_custody hx.shaped hx.sound hx.connected
  rw [he] at hperm
  exact (hperm.append_right q).append_right _

/-- What an engine answers for stays the same where it reports nothing. -/
lemma custody_step {e : Engine} {a : Arena Entry} {q : List Slot} {T : List Mark}
    (hx : Accounted ⟨e, a, q, T⟩) (he : e.step.2.removedSlots = []) :
    e.step.1.custody.Perm e.custody := by
  have hperm := Engine.step_custody hx.shaped hx.sound hx.connected
  rw [he] at hperm
  exact hperm.symm

/-- Nothing becomes of the slots where those that keep them only change places. -/
lemma settles_of_perm (ha : y.arena = x.arena) (hp : y.holders.Perm x.holders) : Settles x y :=
  .mints (by rw [ha]; exact .refl x.arena) (show y.holders.Perm ([] ++ x.holders) from hp)

/-- A slot that is kept cannot be vacant. -/
lemma Side.Accounted.take_ne_none (hx : x.Accounted) (hs : s ∈ x.holders) :
    x.arena.take s ≠ none := fun ht => by
  have hsome := (hx.occupied s).1 hs
  rw [Arena.take_eq_none.1 ht] at hsome
  cases hsome

/-- **A step hands out vacant slots along with keepers for them, or it gives up a slot that
nothing keeps any more.** -/
theorem Moves.settles (h : Moves k k' x y) (hx : x.Accounted) : Settles x y := by
  have hn := hx.nested
  cases h with
  | plain hos hos' hT =>
    refine settles_of_perm rfl ?_
    simp only [holders, List.flatMap_append, slots_of_blank hos, slots_of_blank hos']
    exact .refl _
  | opens hm hos =>
    refine .mints hm ?_
    have hrest := (hn.atRest_of_cons (by simp)).isResting
    have hslots := slots_of_blank hos
    simp only [holders, List.flatMap_cons, List.flatMap_append, hslots, Mark.slots,
      List.nil_append]
    rw [← List.append_assoc, ← List.append_assoc]
    exact ((Engine.custody_enter _ _).append_right _).append_right _
  | balks hm hos =>
    refine .mints hm ?_
    have hslots := slots_of_blank hos
    simp only [holders, List.flatMap_cons, List.flatMap_append, hslots, Mark.slots,
      List.nil_append]
    exact .refl _
  | releases f hm =>
    refine settles_of_perm rfl ?_
    exact ((Engine.custody_enter _ _).append_right _).append_right _
  | gives =>
    refine settles_of_perm rfl ?_
    exact ((Engine.custody_enter _ _).append_right _).append_right _
  | reads =>
    refine settles_of_perm rfl ?_
    exact ((Engine.custody_enter _ _).append_right _).append_right _
  | performed => exact settles_of_perm rfl (.refl _)
  | decodes => exact settles_of_perm rfl (.refl _)
  | works he =>
    refine settles_of_perm rfl ?_
    exact ((custody_step hx (by rw [he]; rfl)).append_right _).append_right _
  -- The slot goes over from the engine to the queue, as a call is running.
  | @defers e a q slot T he hi =>
    refine settles_of_perm rfl (.trans ?_ (holders_removed hx he).symm)
    refine List.perm_iff_count.2 fun s => ?_
    simp only [holders, List.count_append, List.count_cons, List.count_nil]
    omega
  | unpins he hi ht =>
    refine .takes ht (holders_removed hx he) fun hm => ?_
    exact (List.mem_cons.1 hm).elim (by simp) fun hm => (List.mem_cons.1 hm).elim (by simp) hi
  -- The engine has kept the slot that it reports, so there is an entry.
  | misses he hi ht =>
    refine absurd ht (hx.take_ne_none ?_)
    exact (holders_removed hx he).symm.subset (List.mem_cons_self ..)
  | refuses he =>
    refine settles_of_perm rfl ?_
    exact ((custody_step hx (by rw [he]; rfl)).append_right _).append_right _
  | calls he =>
    refine settles_of_perm rfl ?_
    exact ((custody_step hx (by rw [he]; rfl)).append_right _).append_right _
  | takes he hr =>
    refine settles_of_perm rfl ?_
    exact ((custody_step hx (by rw [he]; rfl)).append_right _).append_right _
  | @pins e a a' q req r T he hm =>
    refine .mints hm ?_
    have hcustody := (custody_step hx (by rw [he]; rfl)).append_right q
    refine ((hcustody.append_right _).trans ?_)
    refine List.perm_iff_count.2 fun s => ?_
    simp only [holders, List.flatMap_cons, Mark.slots, List.count_append, List.count_nil]
    omega
  | finishes he =>
    refine settles_of_perm rfl ?_
    have hcustody := (custody_step hx (by rw [he]; rfl)).append_right
    simp only [holders, List.flatMap_cons, Purpose.slots_mark]
    exact (hcustody _).append_right _
  | replies => exact settles_of_perm rfl (.refl _)
  | leaves hi => exact settles_of_perm rfl (.refl _)
  | leavesLast hi => exact settles_of_perm rfl (.refl _)
  | responds hm =>
    refine .mints hm ?_
    refine List.perm_iff_count.2 fun s => ?_
    simp only [holders, List.flatMap_cons, Mark.slots, List.count_append, List.count_nil]
    omega
  | fails => exact settles_of_perm rfl (.refl _)
  | @answers e a a' q res r T hr =>
    have hrest := (hn.atRest_of_cons (by simp)).isResting
    have hcustody := List.perm_iff_count.1 (Engine.custody_answer hrest.inbound r)
    rcases hr with ⟨rfl, rfl⟩ | ⟨⟨err, rfl⟩, hm⟩
    · refine settles_of_perm rfl (List.perm_iff_count.2 fun s => ?_)
      simp only [holders, List.flatMap_cons, Mark.slots, slotsOfResult, List.count_append,
        List.count_nil, hcustody s]
      omega
    · refine .mints hm (List.perm_iff_count.2 fun s => ?_)
      simp only [holders, List.flatMap_cons, Mark.slots, slotsOfResult, List.count_append,
        List.count_nil, hcustody s]
      omega
  | drains ht =>
    refine .takes ht ?_ fun hm => ?_
    · refine List.perm_iff_count.2 fun s => ?_
      simp only [holders, List.flatMap_cons, Mark.slots, List.count_append, List.count_cons,
        List.count_nil]
      omega
    · have hscope := (hn.atRest_of_cons (by simp)).of_drain.1
      exact (List.mem_cons.1 hm).elim (by simp) fun hm =>
        (List.mem_cons.1 hm).elim (by simp) hscope
  -- What is still to be given up keeps the slot, so there is an entry.
  | passes ht =>
    refine absurd ht (hx.take_ne_none (List.mem_append_right _ ?_))
    exact List.mem_flatMap.2 ⟨_, List.mem_cons_self .., List.mem_cons_self ..⟩
  | refills =>
    refine settles_of_perm rfl (List.perm_iff_count.2 fun s => ?_)
    simp only [holders, List.flatMap_cons, Mark.slots, List.count_append, List.count_nil]
    omega
  | dries => exact settles_of_perm rfl (.refl _)
  | strays h => exact absurd h hn.not_astray

/-! ### Every step -/

lemma Side.Settles.nodup (h : Settles x y) (hx : x.Accounted) : y.holders.Nodup := by
  cases h with
  | mints hm hp =>
    refine hp.nodup_iff.2 (List.nodup_append.2 ⟨hm.nodup, hx.nodup, fun s hs t ht heq => ?_⟩)
    have hsome := (hx.occupied t).1 ht
    rw [← heq, (hm.fresh s hs).1] at hsome
    cases hsome
  | takes ht hp => exact (List.nodup_cons.1 (hp.nodup_iff.1 hx.nodup)).2

lemma Side.Settles.occupied (h : Settles x y) (hx : x.Accounted) (s : Slot) :
    s ∈ y.holders ↔ (y.arena.get? s).isSome := by
  cases h with
  | @mints slots hm hp =>
    rw [hp.mem_iff, List.mem_append, hx.occupied]
    by_cases hs : s ∈ slots
    · exact iff_of_true (.inl hs) (hm.fresh s hs).2
    · rw [hm.kept s hs]
      exact or_iff_right hs
  | @takes slot entry ht hp =>
    have hnodup := (List.nodup_cons.1 (hp.nodup_iff.1 hx.nodup)).1
    rw [Arena.get?_take ht]
    by_cases hs : s = slot
    · rw [if_pos hs, hs]
      exact iff_of_false hnodup (by simp)
    · rw [if_neg hs, ← hx.occupied, hp.mem_iff, List.mem_cons]
      exact (or_iff_right hs).symm

lemma Side.Settles.regular (h : Settles x y) (hx : x.Accounted) : y.arena.IsRegular := by
  cases h with
  | mints hm hp => exact hm.regular hx.regular
  | takes ht hp => exact hx.regular.take ht

/-- The engine changes by its own steps only, and by being entered or answered. -/
lemma Moves.engine (h : Moves k k' x y) (hx : x.Accounted) :
    y.engine = x.engine ∨ x.trail.head? = some .engine ∧ y.engine = x.engine.step.1 ∨
      x.engine.control.IsResting ∧ y.trail.head? = some .engine ∧
        ((∃ w, y.engine = x.engine.enter w) ∨
          x.engine.control = .idle ∧ x.engine.stack ≠ [] ∧ ∃ r, y.engine = x.engine.answer r) := by
  have hn := hx.nested
  cases h with
  | opens hm hos => exact .inr (.inr ⟨(hn.atRest_of_cons (by simp)).isResting, rfl, .inl ⟨_, rfl⟩⟩)
  | releases f hm => exact .inr (.inr ⟨(hn.atRest_of_cons hm).isResting, rfl, .inl ⟨_, rfl⟩⟩)
  | gives => exact .inr (.inr ⟨(hn.atRest_of_cons (by simp)).isResting, rfl, .inl ⟨_, rfl⟩⟩)
  | reads => exact .inr (.inr ⟨(hn.atRest_of_cons (by simp)).isResting, rfl, .inl ⟨_, rfl⟩⟩)
  | @answers e a a' q res r T hr =>
    have hrests := hn.atRest_of_cons (by simp)
    refine .inr (.inr ⟨hrests.isResting, rfl, .inr ?_⟩)
    dsimp only at hrests ⊢
    generalize hstack : e.stack = st at hrests ⊢
    generalize e.control = c at hrests ⊢
    cases hrests with
    | awaits hm hscope hb h =>
      refine ⟨rfl, fun hnil => ?_, r, rfl⟩
      rw [hnil] at hb
      cases hb
  | works | defers | unpins | misses | refuses | calls | takes | pins | finishes =>
    exact .inr (.inl ⟨rfl, rfl⟩)
  | strays h => exact absurd h hn.not_astray
  | _ => exact .inl rfl

/-- An engine at rest that waits for an answer has a frame that waits. -/
lemma awaiting_of_idle {e : Engine} (hs : e.Shaped) (hc : e.control = .idle) (hst : e.stack ≠ []) :
    ∃ result held rest, e.stack = .awaiting result held :: rest := by
  have hfits := hs.fits
  rw [hc] at hfits
  exact hfits.resolve_left hst

lemma Moves.shaped (h : Moves k k' x y) (hx : x.Accounted) : y.engine.Shaped := by
  rcases h.engine hx with heq | ⟨-, heq⟩ | ⟨-, -, ⟨w, heq⟩ | ⟨hc, hst, r, heq⟩⟩ <;> rw [heq]
  · exact hx.shaped
  · exact hx.shaped.step
  · exact hx.shaped.enter w
  · obtain ⟨result, held, rest, hstack⟩ := awaiting_of_idle hx.shaped hc hst
    exact hx.shaped.answer hstack r

lemma Moves.sound (h : Moves k k' x y) (hx : x.Accounted) : y.engine.heap.Sound := by
  rcases h.engine hx with heq | ⟨-, heq⟩ | ⟨-, -, ⟨w, heq⟩ | ⟨-, -, r, heq⟩⟩ <;> rw [heq]
  · exact hx.sound
  · exact Engine.sound_step hx.shaped hx.sound
  · exact hx.sound
  · exact hx.sound

lemma Moves.connected (h : Moves k k' x y) (hx : x.Accounted) : y.engine.connected = true := by
  rcases h.engine hx with heq | ⟨-, heq⟩ | ⟨-, -, ⟨w, heq⟩ | ⟨-, -, r, heq⟩⟩ <;> rw [heq]
  · exact hx.connected
  · exact (Engine.connected_step hx.shaped).trans hx.connected
  · exact hx.connected
  · exact hx.connected

/-- An engine that is not at work has nothing to let go of. -/
lemma Moves.clean (h : Moves k k' x y) (hx : x.Accounted) (hy : .engine ∉ y.trail) :
    y.engine.Clean := by
  have hcons : ∀ {m : Mark} {T : List Mark}, m ≠ .engine → .engine ∉ T → .engine ∉ m :: T :=
    fun hm hT hmem => (List.mem_cons.1 hmem).elim (fun h => hm h.symm) hT
  have htail : ∀ {m : Mark} {T : List Mark}, .engine ∉ m :: T → .engine ∉ T :=
    fun h hmem => h (List.mem_cons_of_mem _ hmem)
  cases h with
  | plain hos hos' hT =>
    refine hx.clean fun hmem => hy ?_
    have hT' := (List.mem_append.1 hmem).resolve_left (engine_not_mem_of_blank hos)
    exact List.mem_append_right _ hT'
  | opens | releases | gives | reads | works | defers | misses | answers =>
    exact absurd (List.mem_cons_self ..) hy
  | unpins => exact absurd (List.mem_cons_of_mem _ (List.mem_cons_self ..)) hy
  | balks hm hos =>
    exact hx.clean (hcons (by simp) fun hmem => hy (List.mem_cons_of_mem _
      (List.mem_cons_of_mem _ (List.mem_append_right _ hmem))))
  | refuses he | calls he | takes he hr | pins he hm =>
    exact (Engine.step_request hx.shaped he).1
  | finishes he => exact (Engine.step_finished hx.shaped he).1
  | replies | leaves => exact hx.clean (hcons (by simp) (hcons (by simp) (htail hy)))
  | leavesLast hi => exact hx.clean (hcons (by simp) (hcons (by simp) (htail (htail hy))))
  | drains ht => exact hx.clean (hcons (by simp) (htail (htail hy)))
  | strays h => exact absurd h hx.nested.not_astray
  | performed | decodes | responds | fails | passes | refills | dries =>
    exact hx.clean (hcons (by simp) (htail hy))

/-- Slots are deferred within operations, and given up when the outermost one is left. -/
lemma Moves.deferred (h : Moves k k' x y) (hx : x.Accounted) (hy : y.deferred ≠ []) :
    .scope ∈ y.trail ∨ ∃ slots, .drain slots ∈ y.trail := by
  -- What is taken off the trail is neither a scope nor slots that are given up.
  have hkeep : ∀ {T T' : List Mark}, (.scope ∈ T ∨ ∃ slots, .drain slots ∈ T) →
      (∀ m ∈ T, m = .scope ∨ (∃ slots, m = .drain slots) → m ∈ T') →
        .scope ∈ T' ∨ ∃ slots, .drain slots ∈ T' := by
    rintro T T' (h | ⟨slots, h⟩) hT
    · exact .inl (hT _ h (.inl rfl))
    · exact .inr ⟨slots, hT _ h (.inr ⟨slots, rfl⟩)⟩
  cases h with
  | plain hos hos' hT =>
    refine hkeep (hx.deferred hy) fun m hm hor => ?_
    rcases List.mem_append.1 hm with hm | hm
    · rw [hos m hm] at hor
      simp at hor
    · exact List.mem_append_right _ hm
  | opens | balks => exact .inl (by simp)
  | defers he hi => exact .inl (List.mem_cons_of_mem _ hi)
  | leaves hi => exact .inl (List.mem_cons_of_mem _ hi)
  | leavesLast hi => exact .inr ⟨[], List.mem_cons_self ..⟩
  | drains ht =>
    exact .inr ⟨_, List.mem_cons_of_mem _ (List.mem_cons_self ..)⟩
  | passes ht => exact .inr ⟨_, List.mem_cons_self ..⟩
  | refills => exact absurd rfl hy
  | dries => exact absurd rfl hy
  | strays h => exact absurd h hx.nested.not_astray
  | finishes | replies =>
    refine hkeep (hx.deferred hy) fun m hm hor => ?_
    rcases List.mem_cons.1 hm with rfl | hm
    · simp at hor
    · rcases List.mem_cons.1 hm with rfl | hm
      · simp at hor
      · exact List.mem_cons_of_mem _ hm
  | _ =>
    refine hkeep (hx.deferred hy) fun m hm hor => ?_
    rcases List.mem_cons.1 hm with rfl | hm <;> simp_all

/-- **The slots of a bridge stay accounted for.** -/
theorem Moves.accounted (h : Moves k k' x y) (hx : x.Accounted) : y.Accounted where
  shaped := h.shaped hx
  sound := h.sound hx
  connected := h.connected hx
  nested := h.nested hx
  clean := h.clean hx
  nodup := (h.settles hx).nodup hx
  occupied := (h.settles hx).occupied hx
  regular := (h.settles hx).regular hx
  deferred := h.deferred hx

end ScriptBridge.Session
