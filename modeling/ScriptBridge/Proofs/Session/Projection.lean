/-
# What a step means for one bridge

A step that is about a bridge itself means for it what its name says.  All others leave the
bridge alone, whatever they come and go with on top.
-/
import ScriptBridge.Proofs.Session.Side

namespace ScriptBridge.Session

open ScriptBridge.Bridge ScriptBridge.Host ScriptBridge.Table ScriptBridge.Wire

variable {s s' : Session} {b c : Nat} {y : Side}

/-! ### Marks -/

lemma Frame.mark_of_isCallback {f : Frame} (hf : f.isCallback b = true) (c : Nat) :
    f.mark c = if b = c then .serving else .other := by
  cases f <;> first | cases hf | skip
  all_goals
    obtain rfl := eq_of_beq hf
    simp only [Frame.mark, Frame.isCallback, beq_iff_eq]

lemma Frame.isOf_of_isCallback {f : Frame} (hf : f.isCallback b = true) : f.IsOf b :=
  fun c hc => by rw [Frame.mark_of_isCallback hf, if_neg hc.symm]

lemma blank_of_isInner {fs : List Frame} (hfs : ∀ f ∈ fs, f.isInner = true) (b : Nat) :
    Blank (fs.map (Frame.mark b)) := fun m hm => by
  obtain ⟨f, hf, rfl⟩ := List.mem_map.1 hm
  exact Frame.mark_of_isInner (hfs f hf) b

lemma blank_of_isOf {fs : List Frame} (hfs : ∀ f ∈ fs, f.IsOf c) (hne : b ≠ c) :
    Blank (fs.map (Frame.mark b)) := fun m hm => by
  obtain ⟨f, hf, rfl⟩ := List.mem_map.1 hm
  exact hfs f hf b hne

lemma blank_cons {ms : List Mark} (h : Blank ms) : Blank (.other :: ms) :=
  List.forall_mem_cons.2 ⟨rfl, h⟩

lemma blank_nil : Blank [] := by simp [Blank]

lemma mark_ne_engine {ctl : Control} (hc : ∀ b, ctl ≠ .engine b) (b : Nat) :
    ctl.mark b ≠ .engine := by
  cases ctl with
  | engine c => exact absurd rfl (hc c)
  | _ =>
    simp only [Control.mark]
    first | (split <;> simp) | simp

lemma Control.mark_replyControl (b : Nat) (r : Record) (p : Purpose) :
    (replyControl b r p).mark b = p.mark r := by
  cases p <;> simp [replyControl, Control.mark, Purpose.mark, Control.finished]

lemma Frame.eq_running_of_mark {f : Frame} {p : Purpose} (hf : f.mark b = .running p) :
    f = .running b p := by
  cases f with
  | running c p =>
    simp only [Frame.mark] at hf
    split at hf
    · next h =>
      cases hf
      rw [h]
    · cases hf
  | interrupted ctl =>
    cases ctl <;> simp only [Frame.mark, Control.mark] at hf <;> first | cases hf | skip
    all_goals split at hf <;> cases hf
  | scope c =>
    simp only [Frame.mark] at hf
    split at hf <;> cases hf
  | _ =>
    simp only [Frame.mark] at hf
    split at hf <;> cases hf

lemma not_scope_of_any {fs : List Frame} (h : fs.any (Frame.isScope b) = false) :
    .scope ∉ fs.map (Frame.mark b) := fun hm => by
  rw [(any_isScope fs b).2 hm] at h
  cases h

lemma Control.isOf_engine (b : Nat) : (Control.engine b).IsOf b := fun _ hc => if_neg hc.symm

lemma Control.isOf_decode (b : Nat) (r : Record) : (Control.decode b r).IsOf b :=
  fun _ hc => if_neg hc.symm

lemma Control.isOf_respond (b : Nat) (r : Except HostError HostValue) :
    (Control.respond b r).IsOf b := fun _ hc => if_neg hc.symm

lemma Control.isOf_answer (b : Nat) (r : Except HostError Record) : (Control.answer b r).IsOf b :=
  fun _ hc => if_neg hc.symm

lemma Control.isOf_drain (b : Nat) (slots : List Slot) : (Control.drain b slots).IsOf b :=
  fun _ hc => if_neg hc.symm

lemma Control.isOf_replyControl (b : Nat) (r : Record) (p : Purpose) :
    (replyControl b r p).IsOf b := by
  cases p with
  | value => exact Control.isOf_decode b r
  | nothing => exact fun _ _ => rfl
  | member => exact Control.isOf_perform b _ _ _

lemma Frame.isOf_running (b : Nat) (p : Purpose) : (Frame.running b p).IsOf b :=
  fun _ hc => if_neg hc.symm

/-! ### Steps that are about something else -/

/-- A bridge that is left alone. -/
lemma stays (os os' T : List Mark) (hkept : Within (s'.kept b) (s.kept b))
    (hy : s'.side? b = some y) (hk : s'.core? b = s.core? b)
    (hT : s.trail b = os ++ T) (hos : Blank os) (hT' : s'.trail b = os' ++ T) (hos' : Blank os')
    (hhead : os = [] → T.head? ≠ some .engine) :
    ∃ x, s.side? b = some x ∧ Moves (s.kept b) (s'.kept b) x y := by
  obtain ⟨e, a, q, U⟩ := y
  obtain ⟨hcore, htrail⟩ := side?_eq_some.1 hy
  rw [hk] at hcore
  refine ⟨_, side?_of_core? hcore, ?_⟩
  obtain rfl : os' ++ T = U := hT'.symm.trans htrail
  rw [hT]
  exact .plain hos hos' hhead hkept

/-- A bridge is left alone by the steps that are about another one. -/
lemma stays_of_isOf (os fs : List Frame) {rest : List Frame}
    (hkept : Within (s'.kept b) (s.kept b)) (hy : s'.side? b = some y) (hne : b ≠ c)
    (hk : s'.core? b = s.core? b) (hc : s.control.IsOf c) (hs : s.frames = os ++ rest)
    (hos : ∀ f ∈ os, f.IsOf c) (hc' : s'.control.IsOf c) (hs' : s'.frames = fs ++ rest)
    (hfs : ∀ f ∈ fs, f.IsOf c) :
    ∃ x, s.side? b = some x ∧ Moves (s.kept b) (s'.kept b) x y := by
  refine stays (.other :: os.map (Frame.mark b)) (.other :: fs.map (Frame.mark b))
    (rest.map (Frame.mark b)) hkept hy hk ?_ (blank_cons (blank_of_isOf hos hne)) ?_
    (blank_cons (blank_of_isOf hfs hne)) (by intro h; cases h)
  · rw [trail_eq rfl hs, hc b hne, List.map_append]
    rfl
  · rw [trail_eq rfl hs', hc' b hne, List.map_append]
    rfl

/-- A bridge is left alone by what is done next for another one. -/
lemma stays_of_control (hkept : Within (s'.kept b) (s.kept b)) (hy : s'.side? b = some y)
    (hne : b ≠ c) (hk : s'.core? b = s.core? b) (hc : s.control.IsOf c) (hs' : s'.frames = s.frames)
    (hc' : s'.control.IsOf c) :
    ∃ x, s.side? b = some x ∧ Moves (s.kept b) (s'.kept b) x y :=
  stays_of_isOf [] [] hkept hy hne hk hc rfl (by simp) hc' hs' (by simp)

/-- A bridge is left alone by what is done first. -/
lemma stays_of_pushed (fs : List Frame) (hkept : Within (s'.kept b) (s.kept b))
    (hy : s'.side? b = some y) (hk : s'.core? b = s.core? b)
    (hc : ∀ b, s.control ≠ .engine b) (hs' : s'.frames = fs ++ .interrupted s.control :: s.frames)
    (hfs : ∀ f ∈ fs, f.mark b = .other) (hc' : s'.control.mark b = .other) :
    ∃ x, s.side? b = some x ∧ Moves (s.kept b) (s'.kept b) x y := by
  refine stays [] (.other :: fs.map (Frame.mark b)) (s.trail b) hkept hy hk rfl
    blank_nil ?_ (blank_cons fun m hm => ?_) fun _ => ?_
  · rw [trail_eq rfl hs', hc', List.map_append]
    rfl
  · obtain ⟨f, hf, rfl⟩ := List.mem_map.1 hm
    exact hfs f hf
  · exact fun h => mark_ne_engine hc b (Option.some.inj h)

lemma Recores.core?_of_ne {k : Core} (h : Recores s s' c k) (hne : b ≠ c) :
    s'.core? b = s.core? b := by
  rw [h.core, if_neg hne.symm]

/-! ### Steps that are about the bridge itself -/

/-- A step that is about a bridge, with what it does to the bridge. -/
lemma moves_self {e e' : Engine} {a a' : Arena Entry} {q q' : List Slot}
    (hy : s'.side? b = some y) (hb : s.core? b = some ⟨some e, a, q⟩)
    (h : s'.core? b = some ⟨some e', a', q'⟩)
    (hmove : Moves (s.kept b) (s'.kept b) ⟨e, a, q, s.trail b⟩ ⟨e', a', q', s'.trail b⟩) :
    ∃ x, s.side? b = some x ∧ Moves (s.kept b) (s'.kept b) x y := by
  rw [side?_of_core? h] at hy
  cases hy
  exact ⟨_, side?_of_core? hb, hmove⟩

/-- A step that is about a bridge and leaves its engine and its entries alone. -/
lemma moves_same (hy : s'.side? b = some y) (hk : s'.core? b = s.core? b)
    (hmove : ∀ e a q,
      Moves (s.kept b) (s'.kept b) ⟨e, a, q, s.trail b⟩ ⟨e, a, q, s'.trail b⟩) :
    ∃ x, s.side? b = some x ∧ Moves (s.kept b) (s'.kept b) x y := by
  have hcore := (side?_eq_some.1 hy).1
  exact moves_self hy (hk.symm.trans hcore) hcore (hmove ..)

lemma core?_of_side? {k : Core} (hy : s'.side? b = some y) (hk : s'.core? b = some k) :
    ∃ e, k.engine = some e := by
  rw [(side?_eq_some.1 hy).1] at hk
  cases hk
  exact ⟨_, rfl⟩

lemma engine?_ne_none (hy : s'.side? b = some y) : s'.engine? b ≠ none := by
  rw [engine?_of_side? hy]
  exact Option.some_ne_none _

section

variable {e : Engine} {a : Arena Entry} {q : List Slot} {req : Engine.Request}

/-- What it means for a bridge that a record is decoded. -/
lemma moves_of_decode {k : Core} {r : Record} (hy : s'.side? b = some y)
    (hc : s.control = .decode c r) (hs' : s'.frames = s.frames)
    (hc' : s'.control = .perform c (decode c k.arena s.nextLease r).tasks []
      (decode c k.arena s.nextLease r).result)
    (h : ∀ c, s'.core? c = s.core? c) (hl : s'.leases = s.leases) :
    ∃ x, s.side? b = some x ∧ Moves (s.kept b) (s'.kept b) x y := by
  have hkept := within_kept_of_decode hc hs' hc' hl b
  have hplaces := places_decode c k.arena s.nextLease r
  rcases eq_or_ne b c with rfl | hne
  · refine moves_same hy (h b) fun e a q => ?_
    rw [trail_eq hc rfl, trail_eq hc' hs']
    have hw : Within (s'.kept b)
        (foreignsOfResult (decode b k.arena s.nextLease r).result ++ s.kept b) := by
      intro f
      refine Nat.le_trans (hkept f) ?_
      rw [List.count_append, List.count_append]
      exact Nat.add_le_add_right (within_filter _ _ f) _
    have hcount h := Nat.le_of_eq (hplaces.perm.count_eq h).symm
    simpa [Control.mark] using Moves.decodes hcount hw
  · rw [List.filter_eq_nil_iff.2 fun f hf => by simp [hplaces.bridge f hf, hne.symm]] at hkept
    exact stays_of_control hkept hy hne (h b) (by rw [hc]; exact Control.isOf_decode c r) hs'
      (by rw [hc']; exact Control.isOf_perform c _ _ _)

/-- **What a step means for a bridge whose engine is there afterwards.** -/
theorem moves_of_stride (h : Stride s s') (hy : s'.side? b = some y) :
    ∃ x, s.side? b = some x ∧ Moves (s.kept b) (s'.kept b) x y := by
  have hnil : ∀ c, ∀ f ∈ ([] : List Frame), f.IsOf c := by simp
  rcases h.within_kept b with hkept | ⟨c, k, r, hc, -, hs', hc', h, hl, -⟩
  case inr => exact moves_of_decode hy hc hs' hc' h hl
  cases h with
  | @inner os fs rest hc hs hos hs' hfs hc' h =>
    refine stays (.other :: os.map (Frame.mark b)) (.other :: fs.map (Frame.mark b))
      (rest.map (Frame.mark b)) hkept hy (h.core b) ?_ (blank_cons (blank_of_isInner hos b)) ?_
      (blank_cons (blank_of_isInner hfs b)) (by intro h; cases h)
    · rw [trail_eq rfl hs, Control.mark_of_isInner hc, List.map_append]
      rfl
    · rw [trail_eq rfl hs', Control.mark_of_isInner hc', List.map_append]
      rfl
  | interrupts hc hs' hc' h =>
    exact stays_of_pushed [] hkept hy (h.core b) hc hs' (by simp) (Control.mark_of_isInner hc' b)
  | @resumes ctl rest hc hs hs' hc' h =>
    refine stays [.other] [] (s'.trail b) hkept hy (h.core b) ?_
      (blank_cons blank_nil) rfl blank_nil (by intro h; cases h)
    rw [trail_eq rfl hs, trail_eq hc' hs', Control.mark_of_isInner hc]
    rfl
  | forgets hc hs' hc' h hl hn =>
    refine stays [] [] (s.trail b) hkept hy (h b) rfl blank_nil ?_ blank_nil
      fun _ h => mark_ne_engine hc b (Option.some.inj h)
    rw [trail_eq hc' hs']
    rfl
  | @vanishes c hc hs' hc' h hb hl hn =>
    rcases eq_or_ne b c with rfl | hne
    · exact absurd hb (engine?_ne_none hy)
    · refine stays [] [] (s.trail b) hkept hy (h b hne) rfl blank_nil ?_ blank_nil
        fun _ h => mark_ne_engine hc b (Option.some.inj h)
      rw [trail_eq hc' hs']
      rfl
  | @disposes c slots hc hs' hc' h hb hl hn =>
    rcases eq_or_ne b c with rfl | hne
    · exact absurd hb (engine?_ne_none hy)
    · exact stays_of_control hkept hy hne (h b hne) (by rw [hc]; exact fun _ _ => rfl) hs'
        (by rw [hc']; exact fun _ h => if_neg h.symm)
  | @tears c slots fs hc hs' hfs hc' hfly h hb hl hn =>
    rcases eq_or_ne b c with rfl | hne
    · rw [engine?_of_side? hy] at hb
      obtain ⟨x, hx, -⟩ := side?_isSome_of_engine? hb.symm
      refine ⟨x, hx, .strays ?_⟩
      rw [← (side?_eq_some.1 hx).2, trail_eq hc rfl, show (Control.teardown b slots).mark b =
        .teardown from if_pos rfl]
      exact .torn
    · exact stays_of_isOf [] _ hkept hy hne (h b hne)
        (by rw [hc]; exact fun _ h => if_neg h.symm) rfl (hnil c) hc' hs' hfs
  | @gone c fs hb hc hfly hs' hfs hc' hfly' h hb' hl hn =>
    rcases eq_or_ne b c with rfl | hne
    · exact absurd hb' (engine?_ne_none hy)
    · exact stays_of_isOf [] _ hkept hy hne (h b hne) hc rfl (hnil c) hc' hs' hfs
  | @skips c task tasks heard heard' result hb hc hs' hc' h =>
    rcases eq_or_ne b c with rfl | hne
    · exact absurd ((h.engine? b).trans hb) (engine?_ne_none hy)
    · exact stays_of_control hkept hy hne (h.core b)
        (by rw [hc]; exact Control.isOf_perform c _ _ _) hs'
        (by rw [hc']; exact Control.isOf_perform c _ _ _)
  | @opens c e a a' q op w p fs hc hb hm hw hg hp hs' hfs hc' h =>
    rcases eq_or_ne b c with rfl | hne
    · refine moves_self hy hb h.self ?_
      rw [trail_eq hc rfl, trail_eq hc' hs']
      simpa [Control.mark, Frame.mark] using .opens hm (blank_of_isInner hfs b) hw hp hkept
    · exact stays_of_isOf _ (.running c p :: .scope c :: fs) hkept hy hne (h.core?_of_ne hne)
        (by rw [hc]; exact fun _ _ => rfl) rfl (hnil c) (by rw [hc']; exact Control.isOf_engine c)
        hs' (List.forall_mem_cons.2 ⟨Frame.isOf_running c p, List.forall_mem_cons.2
          ⟨Frame.isOf_scope c, fun f hf => Frame.isOf_of_isInner (hfs f hf) c⟩⟩)
  | @balks c e a a' q op fs hc hb hm hs' hfs hc' h =>
    rcases eq_or_ne b c with rfl | hne
    · refine moves_self hy hb h.self ?_
      rw [trail_eq hc rfl, trail_eq rfl hs', Control.mark_of_isInner hc']
      simpa [Control.mark, Frame.mark] using .balks hm (blank_of_isInner hfs b) hkept
    · exact stays_of_isOf _ (.scope c :: fs) hkept hy hne (h.core?_of_ne hne)
        (by rw [hc]; exact fun _ _ => rfl) rfl (hnil c) (Control.isOf_of_isInner hc' c) hs'
        (List.forall_mem_cons.2 ⟨Frame.isOf_scope c, fun f hf =>
          Frame.isOf_of_isInner (hfs f hf) c⟩)
  | @releases f e a q hc hf hb hs' hc' h hl hn =>
    rcases eq_or_ne b f.bridge with rfl | hne
    · refine moves_self hy hb ((h _).trans (if_pos rfl)) ?_
      rw [trail_eq rfl rfl, trail_eq hc' hs']
      simpa [Control.mark, Frame.mark] using
        .releases f (mark_ne_engine hc f.bridge) (within_kept_of_deadLease hf hs' hc' hl)
    · exact stays_of_pushed [.running f.bridge .nothing] hkept hy
        ((h b).trans (if_neg hne.symm)) hc hs'
        (List.forall_mem_cons.2 ⟨Frame.isOf_running f.bridge .nothing b hne, by simp⟩)
        (by rw [hc']; exact Control.isOf_engine f.bridge b hne)
  | @gives c e a q handle tasks heard result hc hb hs' hc' h =>
    rcases eq_or_ne b c with rfl | hne
    · refine moves_self hy hb h.self ?_
      rw [trail_eq hc rfl, trail_eq hc' hs']
      simpa [Control.mark, Frame.mark] using .gives hkept
    · exact stays_of_isOf []
        [.running c .nothing, .interrupted (.perform c tasks heard result)] hkept hy hne
        (h.core?_of_ne hne) (by rw [hc]; exact Control.isOf_perform c _ _ _) rfl (hnil c)
        (by rw [hc']; exact Control.isOf_engine c) hs'
        (List.forall_mem_cons.2 ⟨Frame.isOf_running c _,
          List.forall_mem_cons.2 ⟨Control.isOf_perform c _ _ _, hnil c⟩⟩)
  | @reads c e a q handle name tasks heard result hc hb hs' hc' h =>
    rcases eq_or_ne b c with rfl | hne
    · refine moves_self hy hb h.self ?_
      rw [trail_eq hc rfl, trail_eq hc' hs']
      simpa [Control.mark, Frame.mark] using .reads hkept
    · exact stays_of_isOf [] [.running c (.member handle name tasks heard result)]
        hkept hy hne (h.core?_of_ne hne) (by rw [hc]; exact Control.isOf_perform c _ _ _)
        rfl (hnil c)
        (by rw [hc']; exact Control.isOf_engine c) hs'
        (List.forall_mem_cons.2 ⟨Frame.isOf_running c _, hnil c⟩)
  | @performed c heard result hc hs' hc' h hl hn =>
    rcases eq_or_ne b c with rfl | hne
    · refine moves_same hy (h b) fun e a q => ?_
      rw [trail_eq hc rfl, trail_eq hc' hs']
      simpa [Control.mark] using .performed hkept
    · exact stays_of_control hkept hy hne (h b) (by rw [hc]; exact Control.isOf_perform c _ _ _) hs'
        (by rw [hc']; exact fun _ _ => rfl)
  | decodes hc hb hs' hc' h hl hn => exact moves_of_decode hy hc hs' hc' h hl
  | @works c e a q hc hb he hs' hc' h =>
    rcases eq_or_ne b c with rfl | hne
    · refine moves_self hy hb h.self ?_
      rw [trail_eq hc rfl, trail_eq hc' hs']
      simpa [Control.mark] using .works he hkept
    · exact stays_of_control hkept hy hne (h.core?_of_ne hne)
        (by rw [hc]; exact Control.isOf_engine c)
        hs' (by rw [hc']; exact Control.isOf_engine c)
  | @defers c e a q slot hc hb he hi hs' hc' h =>
    rcases eq_or_ne b c with rfl | hne
    · refine moves_self hy hb h.self ?_
      rw [trail_eq hc rfl, trail_eq hc' hs']
      simpa [Control.mark] using .defers he ((any_isScope _ b).1 hi) hkept
    · exact stays_of_control hkept hy hne (h.core?_of_ne hne)
        (by rw [hc]; exact Control.isOf_engine c)
        hs' (by rw [hc']; exact Control.isOf_engine c)
  | @unpins c e a a' q slot entry hc hb he hi ht hs' hc' h =>
    rcases eq_or_ne b c with rfl | hne
    · refine moves_self hy hb h.self ?_
      rw [trail_eq hc rfl, trail_eq hc' hs']
      simpa [Control.mark, Frame.mark] using .unpins he (not_scope_of_any hi) ht hkept
    · exact stays_of_isOf [] [.interrupted (.engine c)] hkept hy hne (h.core?_of_ne hne)
        (by rw [hc]; exact Control.isOf_engine c) rfl (hnil c) (by rw [hc']; exact fun _ _ => rfl)
        hs' (List.forall_mem_cons.2 ⟨Control.isOf_engine c, hnil c⟩)
  | @misses c e a q slot hc hb he hi ht hs' hc' h =>
    rcases eq_or_ne b c with rfl | hne
    · refine moves_self hy hb h.self ?_
      rw [trail_eq hc rfl, trail_eq hc' hs']
      simpa [Control.mark] using .misses he (not_scope_of_any hi) ht hkept
    · exact stays_of_control hkept hy hne (h.core?_of_ne hne)
        (by rw [hc]; exact Control.isOf_engine c)
        hs' (by rw [hc']; exact Control.isOf_engine c)
  | @refuses c e a q req r hc hb he hs' hc' h =>
    rcases eq_or_ne b c with rfl | hne
    · refine moves_self hy hb h.self ?_
      rw [trail_eq hc rfl, trail_eq hc' hs']
      simpa [Control.mark] using .refuses he hkept
    · exact stays_of_control hkept hy hne (h.core?_of_ne hne)
        (by rw [hc]; exact Control.isOf_engine c)
        hs' (by rw [hc']; exact Control.isOf_respond c r)
  | @calls c e a q req f hc hb he hf hs' hc' h =>
    rcases eq_or_ne b c with rfl | hne
    · refine moves_self hy hb h.self ?_
      rw [trail_eq hc rfl, trail_eq rfl hs', Control.mark_of_isInner hc', List.map_cons,
        Frame.mark_of_isCallback hf]
      simpa [Control.mark] using .calls he hkept
    · exact stays_of_isOf [] [f] hkept hy hne (h.core?_of_ne hne)
        (by rw [hc]; exact Control.isOf_engine c) rfl (hnil c) (Control.isOf_of_isInner hc' c) hs'
        (List.forall_mem_cons.2 ⟨Frame.isOf_of_isCallback hf, hnil c⟩)
  | @takes c e a q req f r hc hb he hr hf hs' hc' h =>
    have hslots : r.slots = req.outbound := by
      rcases hr with ⟨slot, name, rfl⟩ | ⟨slot, rfl⟩ <;> rfl
    have hhandles : r.handles = req.holding := by
      rcases hr with ⟨slot, name, rfl⟩ | ⟨slot, rfl⟩ <;> rfl
    rcases eq_or_ne b c with rfl | hne
    · refine moves_self hy hb h.self ?_
      rw [trail_eq hc rfl, trail_eq hc' hs', List.map_cons, Frame.mark_of_isCallback hf]
      simpa [Control.mark] using .takes he hslots hhandles hkept
    · exact stays_of_isOf [] [f] hkept hy hne (h.core?_of_ne hne)
        (by rw [hc]; exact Control.isOf_engine c) rfl (hnil c)
        (by rw [hc']; exact Control.isOf_decode c r) hs'
        (List.forall_mem_cons.2 ⟨Frame.isOf_of_isCallback hf, hnil c⟩)
  | @pins c e a q req entry hc hb he hs' hc' h =>
    rcases eq_or_ne b c with rfl | hne
    · refine moves_self hy hb h.self ?_
      rw [trail_eq hc rfl, trail_eq hc' hs']
      have hm := mints_pin a entry
      rw [← slotsOfResult_mapError BridgeError.cause] at hm
      simpa [Control.mark] using .pins he hm hkept
    · exact stays_of_control hkept hy hne (h.core?_of_ne hne)
        (by rw [hc]; exact Control.isOf_engine c)
        hs' (by rw [hc']; exact Control.isOf_answer c _)
  | @finishes c d e a q r p rest hc hb he hs hs' hc' h =>
    rcases eq_or_ne b c with rfl | hne
    · refine moves_self hy hb h.self ?_
      rw [trail_eq hc hs, trail_eq hc' hs', Control.mark_replyControl]
      rcases eq_or_ne d b with rfl | hne
      · simpa [Control.mark, Frame.mark] using .finishes he hkept
      · refine .strays ?_
        rw [show (Control.engine b).mark b = .engine from if_pos rfl, List.map_cons,
          show (Frame.running d p).mark b = .other from if_neg hne]
        exact .unheard fun p rest h => by cases h
    · have hctl : s.trail b = .other :: s.frames.map (Frame.mark b) := by
        rw [trail_eq hc rfl, Control.isOf_engine c b hne]
      rcases eq_or_ne d b with rfl | hne'
      · refine moves_same hy (h.core?_of_ne hne) fun e a q => .strays ?_
        rw [hctl, hs, List.map_cons, show (Frame.running d p).mark d = .running p from if_pos rfl]
        exact .forlorn
      · refine stays [.other, .other] [.other] (rest.map (Frame.mark b)) hkept hy
          (h.core?_of_ne hne) ?_ (blank_cons (blank_cons blank_nil)) ?_ (blank_cons blank_nil)
          (by intro h; cases h)
        · rw [hctl, hs, List.map_cons, Frame.isOf_running d p b hne'.symm]
          rfl
        · rw [trail_eq hc' hs', Control.isOf_replyControl c r p b hne]
          rfl
  | @misplaced c e a q hc hb hs hs' hc' h =>
    rcases eq_or_ne b c with rfl | hne
    · refine moves_self hy hb h.self (.strays ?_)
      rw [trail_eq hc rfl, show (Control.engine b).mark b = .engine from if_pos rfl]
      refine .unheard fun p rest h => ?_
      obtain ⟨f, fs, hframes, hf, -⟩ := List.map_eq_cons_iff.1 h
      exact hs p fs (by rw [hframes, Frame.eq_running_of_mark hf])
    · exact stays_of_control hkept hy hne (h.core?_of_ne hne)
        (by rw [hc]; exact Control.isOf_engine c)
        hs' (Control.isOf_of_isInner hc' c)
  | @drops c p rest hc hs hs' hc' h =>
    rcases eq_or_ne b c with rfl | hne
    · refine moves_same hy (h.core b) fun e a q => .strays ?_
      rw [trail_eq rfl hs, Control.mark_of_isInner hc, List.map_cons,
        show (Frame.running b p).mark b = .running p from if_pos rfl]
      exact .forlorn
    · exact stays_of_isOf [.running c p] [] hkept hy hne (h.core b)
        (Control.isOf_of_isInner hc c) hs
        (List.forall_mem_cons.2 ⟨Frame.isOf_running c p, hnil c⟩) (Control.isOf_of_isInner hc' c)
        hs' (hnil c)
  | @replies c f rest r hc hs hf hs' hc' h =>
    rcases eq_or_ne b c with rfl | hne
    · refine moves_same hy (h.core b) fun e a q => ?_
      rw [trail_eq rfl hs, trail_eq hc' hs', Control.mark_of_isInner hc, List.map_cons,
        Frame.mark_of_isCallback hf]
      simpa [Control.mark] using .replies hkept
    · exact stays_of_isOf [f] [] hkept hy hne (h.core b) (Control.isOf_of_isInner hc c) hs
        (List.forall_mem_cons.2 ⟨Frame.isOf_of_isCallback hf, hnil c⟩)
        (by rw [hc']; exact Control.isOf_respond c r) hs' (hnil c)
  | @continues c f f' rest hc hs hf hs' hf' hc' h =>
    refine stays [] [] (s.trail b) hkept hy (h.core b) rfl blank_nil ?_ blank_nil
      fun _ hhead => ?_
    · rw [trail_eq rfl hs, trail_eq rfl hs', Control.mark_of_isInner hc,
        Control.mark_of_isInner hc', List.map_cons, List.map_cons, Frame.mark_of_isCallback hf,
        Frame.mark_of_isCallback hf']
      rfl
    · rw [trail, Control.mark_of_isInner hc] at hhead
      cases hhead
  | @leaves c rest hc hs hi hs' hc' h =>
    rcases eq_or_ne b c with rfl | hne
    · refine moves_same hy (h.core b) fun e a q => ?_
      rw [trail_eq rfl hs, trail_eq rfl hs', Control.mark_of_isInner hc,
        Control.mark_of_isInner hc']
      simpa [Frame.mark] using .leaves ((any_isScope _ b).1 hi) hkept
    · exact stays_of_isOf [.scope c] [] hkept hy hne (h.core b)
        (Control.isOf_of_isInner hc c) hs
        (List.forall_mem_cons.2 ⟨Frame.isOf_scope c, hnil c⟩) (Control.isOf_of_isInner hc' c)
        hs' (hnil c)
  | @leavesLast c r rest hc hs hi hs' hc' h =>
    rcases eq_or_ne b c with rfl | hne
    · refine moves_same hy (h.core b) fun e a q => ?_
      rw [trail_eq hc hs, trail_eq hc' hs']
      simpa [Control.mark, Frame.mark] using .leavesLast (not_scope_of_any hi) hkept
    · exact stays_of_isOf [.scope c] [.interrupted (.done r)] hkept hy hne (h.core b)
        (by rw [hc]; exact fun _ _ => rfl) hs
        (List.forall_mem_cons.2 ⟨Frame.isOf_scope c, hnil c⟩)
        (by rw [hc']; exact Control.isOf_drain c []) hs'
        (List.forall_mem_cons.2 ⟨fun _ _ => rfl, hnil c⟩)
  | @responds c k v hc hb hs' hc' h =>
    rcases eq_or_ne b c with rfl | hne
    · obtain ⟨e, a, q⟩ := k
      obtain ⟨e, rfl⟩ := core?_of_side? hy h.self
      refine moves_self hy hb h.self ?_
      rw [trail_eq hc rfl, trail_eq hc' hs']
      have hm := mints_encode b a v
      rw [← slotsOfResult_mapError BridgeError.cause] at hm
      simpa [Control.mark] using .responds hm hkept
    · exact stays_of_control hkept hy hne (h.core?_of_ne hne)
        (by rw [hc]; exact Control.isOf_respond c _) hs'
          (by rw [hc']; exact Control.isOf_answer c _)
  | @fails c e hc hs' hc' h =>
    rcases eq_or_ne b c with rfl | hne
    · refine moves_same hy (h.core b) fun e a q => ?_
      rw [trail_eq hc rfl, trail_eq hc' hs']
      simpa [Control.mark] using .fails hkept
    · exact stays_of_control hkept hy hne (h.core b)
        (by rw [hc]; exact Control.isOf_respond c _) hs'
        (by rw [hc']; exact Control.isOf_answer c _)
  | @answers c e a a' q res r hc hb hr hs' hc' h =>
    rcases eq_or_ne b c with rfl | hne
    · refine moves_self hy hb h.self ?_
      rw [trail_eq hc rfl, trail_eq hc' hs']
      have hr' : res = .ok r ∧ a' = a ∨ (∃ err, res = .error err) ∧ a.Mints a' r.slots := by
        rcases hr with hr | ⟨err, rfl, hr⟩
        · exact .inl hr
        · have hm := mints_failureRecord a err
          rw [hr] at hm
          exact .inr ⟨⟨err, rfl⟩, hm⟩
      simpa [Control.mark] using .answers hr' hkept
    · exact stays_of_control hkept hy hne (h.core?_of_ne hne)
        (by rw [hc]; exact Control.isOf_answer c _) hs' (by rw [hc']; exact Control.isOf_engine c)
  | @drains c k a' slot slots entry hc hb ht hs' hc' h =>
    rcases eq_or_ne b c with rfl | hne
    · obtain ⟨e, a, q⟩ := k
      obtain ⟨e, rfl⟩ := core?_of_side? hy h.self
      refine moves_self hy hb h.self ?_
      rw [trail_eq hc rfl, trail_eq hc' hs']
      simpa [Control.mark, Frame.mark] using .drains ht hkept
    · exact stays_of_isOf [] [.interrupted (.drain c slots)] hkept hy hne
        (h.core?_of_ne hne) (by rw [hc]; exact Control.isOf_drain c _) rfl (hnil c)
        (by rw [hc']; exact fun _ _ => rfl) hs'
        (List.forall_mem_cons.2 ⟨Control.isOf_drain c slots, hnil c⟩)
  | @passes c k slot slots hc hb ht hs' hc' h =>
    rcases eq_or_ne b c with rfl | hne
    · obtain ⟨e, a, q⟩ := k
      obtain ⟨e, rfl⟩ := core?_of_side? hy ((h.core b).trans hb)
      refine moves_self hy hb ((h.core b).trans hb) ?_
      rw [trail_eq hc rfl, trail_eq hc' hs']
      simpa [Control.mark] using .passes ht hkept
    · exact stays_of_control hkept hy hne (h.core b) (by rw [hc]; exact Control.isOf_drain c _) hs'
        (by rw [hc']; exact Control.isOf_drain c _)
  | @refills c k hc hb hs' hc' h =>
    rcases eq_or_ne b c with rfl | hne
    · obtain ⟨e, a, q⟩ := k
      obtain ⟨e, rfl⟩ := core?_of_side? hy h.self
      refine moves_self hy hb h.self ?_
      rw [trail_eq hc rfl, trail_eq hc' hs']
      simpa [Control.mark] using .refills hkept
    · exact stays_of_control hkept hy hne (h.core?_of_ne hne)
        (by rw [hc]; exact Control.isOf_drain c _) hs' (by rw [hc']; exact Control.isOf_drain c _)
  | @dries c k hc hb hq hs' hc' h =>
    rcases eq_or_ne b c with rfl | hne
    · obtain ⟨e, a, q⟩ := k
      obtain rfl : q = [] := hq
      obtain ⟨e, rfl⟩ := core?_of_side? hy ((h.core b).trans hb)
      refine moves_self hy hb ((h.core b).trans hb) ?_
      rw [trail_eq hc rfl, trail_eq hc' hs']
      simpa [Control.mark, Control.finished] using .dries hkept
    · exact stays_of_control hkept hy hne (h.core b) (by rw [hc]; exact Control.isOf_drain c _) hs'
        (by rw [hc']; exact fun _ _ => rfl)

end

end ScriptBridge.Session
