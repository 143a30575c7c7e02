/-
# The foreign objects of a session

A foreign object is kept by a lease, or by the value of a record for which something is
still to be done and which becomes a lease after that.  Only a record that is decoded adds
to those of a bridge.
-/
import Mathlib.Data.List.Perm.Subperm
import ScriptBridge.Proofs.Session.Inversion

namespace ScriptBridge.Session

open ScriptBridge.Bridge ScriptBridge.Host ScriptBridge.Table ScriptBridge.Wire

variable {s s' : Session} {b : Nat} {few many : List ForeignObject}

/-- The leases of a bridge and those that are about to be entered, once for each. -/
def kept (s : Session) (b : Nat) : List ForeignObject :=
  (s.leases ++ s.control.flying ++ s.frames.flatMap Frame.flying).filter fun f => f.bridge = b

/-! ### Fewer and more -/

lemma Within.refl (l : List ForeignObject) : Within l l := fun _ => Nat.le_refl _

lemma Within.of_eq (h : few = many) : Within few many := h ▸ .refl few

lemma Within.mem {f : ForeignObject} (h : Within few many) (hf : f ∈ few) : f ∈ many :=
  List.count_pos_iff.1 (Nat.lt_of_lt_of_le (List.count_pos_iff.2 hf) (h f))

lemma Within.count_map {α : Type} [DecidableEq α] (h : Within few many) (g : ForeignObject → α)
    (a : α) : (few.map g).count a ≤ (many.map g).count a := by
  have hsub : few.Subperm many := List.subperm_ext_iff.2 fun f _ => h f
  obtain ⟨l, hperm, hl⟩ := hsub
  rw [← (hperm.map g).count_eq]
  exact (hl.map g).count_le a

lemma Within.nodup_map {α : Type} [DecidableEq α] (h : Within few many) {g : ForeignObject → α}
    (hm : (many.map g).Nodup) : (few.map g).Nodup :=
  List.nodup_iff_count_le_one.2 fun a =>
    Nat.le_trans (h.count_map g a) (List.nodup_iff_count_le_one.1 hm a)

lemma within_filter (l : List ForeignObject) (p : ForeignObject → Bool) :
    Within (l.filter p) l := fun f => List.filter_sublist.count_le f

lemma Within.filter (h : Within few many) (p : ForeignObject → Bool) :
    Within (few.filter p) (many.filter p) := by
  intro f
  by_cases hp : p f = true
  · rw [List.count_filter hp, List.count_filter hp]
    exact h f
  · rw [List.count_eq_zero.2 fun hm => hp (List.of_mem_filter hm)]
    exact Nat.zero_le _

/-! ### Steps -/

/-- A step keeps no more foreign objects if it neither makes leases nor lets frames, or what is
done next, keep more. -/
lemma within_kept_of {os fs rest : List Frame} (hl : Within s'.leases s.leases)
    (hs : s.frames = os ++ rest) (hs' : s'.frames = fs ++ rest)
    (hfly : Within (s'.control.flying ++ fs.flatMap Frame.flying)
      (s.control.flying ++ os.flatMap Frame.flying)) : Within (s'.kept b) (s.kept b) := by
  refine Within.filter (fun f => ?_) _
  have hleases := hl f
  have hflying := hfly f
  simp only [hs, hs', List.flatMap_append, List.count_append] at hflying ⊢
  omega

/-- The same where no frame comes or goes. -/
lemma within_kept_of_frames (hl : Within s'.leases s.leases) (hs : s'.frames = s.frames)
    (hfly : Within s'.control.flying s.control.flying) : Within (s'.kept b) (s.kept b) :=
  within_kept_of hl (List.nil_append _).symm (show s'.frames = [] ++ s.frames from hs)
    (by simpa using hfly)

/-- The same where nothing is kept by the frames that have come, or by what is done next. -/
lemma within_kept_of_none {os rest : List Frame} (fs : List Frame) (hl : s'.leases = s.leases)
    (hs : s.frames = os ++ rest) (hs' : s'.frames = fs ++ rest) (hc' : s'.control.flying = [])
    (hfs : fs.flatMap Frame.flying = []) : Within (s'.kept b) (s.kept b) := by
  refine within_kept_of (.of_eq hl) hs hs' ?_
  rw [hc', hfs]
  exact fun _ => Nat.zero_le _

lemma flatMap_flying_of_isInner {fs : List Frame} (hfs : ∀ f ∈ fs, f.isInner = true) :
    fs.flatMap Frame.flying = [] :=
  List.flatMap_eq_nil_iff.2 fun f hf => Frame.flying_of_isInner (hfs f hf)

lemma Frame.flying_of_isCallback {f : Frame} (hf : f.isCallback b = true) : f.flying = [] := by
  cases f <;> first | rfl | cases hf

lemma Control.flying_replyControl (b : Nat) (r : Record) (p : Purpose) :
    (replyControl b r p).flying = p.flying := by
  cases p <;> rfl

/-- **Only a record that is decoded adds to the foreign objects of a bridge.** -/
theorem Stride.within_kept (h : Stride s s') (b : Nat) : Within (s'.kept b) (s.kept b) ∨
    ∃ c k r, s.control = .decode c r ∧ s.core? c = some k ∧ s'.frames = s.frames ∧
      s'.control = .perform c (decode c k.arena s.nextLease r).tasks []
        (decode c k.arena s.nextLease r).result ∧
      (∀ c, s'.core? c = s.core? c) ∧ s'.leases = s.leases ∧
      s'.nextLease = (decode c k.arena s.nextLease r).next := by
  have hstays : ∀ fs, s'.leases = s.leases → s'.frames = fs ++ s.frames →
      s'.control.flying = [] → fs.flatMap Frame.flying = [] → Within (s'.kept b) (s.kept b) :=
    fun fs hl hs' => within_kept_of_none fs hl (List.nil_append _).symm hs'
  have hpops : ∀ f rest, s'.leases = s.leases → s.frames = f :: rest → s'.frames = rest →
      s'.control.flying = [] → Within (s'.kept b) (s.kept b) := fun f rest hl hs hs' hc' =>
    within_kept_of_none [] hl (show s.frames = [f] ++ rest from hs) hs' hc' rfl
  cases h with
  | inner hc hs hos hs' hfs hc' h =>
    exact .inl (within_kept_of_none _ h.leases hs hs' (Control.flying_of_isInner hc')
      (flatMap_flying_of_isInner hfs))
  | interrupts hc hs' hc' h =>
    refine .inl (within_kept_of (.of_eq h.leases) (List.nil_append _).symm
      (show s'.frames = [.interrupted s.control] ++ s.frames from hs') (.of_eq ?_))
    rw [Control.flying_of_isInner hc']
    simp [Frame.flying]
  | @resumes ctl rest hc hs hs' hc' h =>
    refine .inl (within_kept_of (.of_eq h.leases)
      (show s.frames = [.interrupted ctl] ++ rest from hs) (show s'.frames = [] ++ rest from hs')
      (.of_eq ?_))
    rw [Control.flying_of_isInner hc, hc']
    simp [Frame.flying]
  | forgets hc hs' hc' h hl hn =>
    refine .inl (within_kept_of_frames ?_ hs' (.of_eq (by rw [hc'])))
    rcases hl with hl | ⟨f, -, -, hl⟩
    · exact .of_eq hl
    · rw [hl]
      exact within_filter _ _
  | vanishes hc hs' hc' h hb hl hn =>
    exact .inl (within_kept_of_frames (.of_eq hl) hs' (.of_eq (by rw [hc'])))
  | disposes hc hs' hc' h hb hl hn => exact .inl (hstays [] hl hs' (by rw [hc']; rfl) rfl)
  | tears hc hs' hfs hc' hfly h hb hl hn =>
    rw [List.append_eq_nil_iff] at hfly
    exact .inl (hstays _ hl hs' hfly.1 hfly.2)
  | gone hb hc hfly hs' hfs hc' hfly' h hb' hl hn =>
    rw [List.append_eq_nil_iff] at hfly'
    exact .inl (hstays _ hl hs' hfly'.1 hfly'.2)
  | skips hb hc hs' hc' h =>
    refine .inl (within_kept_of_frames (.of_eq h.leases) hs' (.of_eq ?_))
    rw [hc, hc']
    rfl
  | @opens b e a a' q op w p fs hc hb hm hw hg hp hs' hfs hc' h =>
    refine .inl (hstays (.running b p :: .scope b :: fs) h.leases hs' (by rw [hc']; rfl) ?_)
    have hnone : p.flying = [] := by rcases hp with rfl | rfl <;> rfl
    simp [Frame.flying, hnone, flatMap_flying_of_isInner hfs]
  | @balks b e a a' q op fs hc hb hm hs' hfs hc' h =>
    refine .inl (hstays (.scope b :: fs) h.leases hs' (Control.flying_of_isInner hc') ?_)
    simp [Frame.flying, flatMap_flying_of_isInner hfs]
  | @releases f e a q hc hf hb hs' hc' h hl hn =>
    refine .inl (within_kept_of (by rw [hl]; exact within_filter _ _) (List.nil_append _).symm
      (show s'.frames = [.running f.bridge .nothing, .interrupted s.control] ++ s.frames from hs')
      (.of_eq ?_))
    rw [hc']
    simp [Frame.flying, Control.flying, Purpose.flying]
  | @gives b e a q handle tasks heard result hc hb hs' hc' h =>
    refine .inl (within_kept_of (.of_eq h.leases) (List.nil_append _).symm
      (show s'.frames = [.running b .nothing, .interrupted (.perform b tasks heard result)] ++
        s.frames from hs') (.of_eq ?_))
    rw [hc, hc']
    simp [Frame.flying, Control.flying, Purpose.flying]
  | @reads b e a q handle name tasks heard result hc hb hs' hc' h =>
    refine .inl (within_kept_of (.of_eq h.leases) (List.nil_append _).symm
      (show s'.frames = [.running b (.member handle name tasks heard result)] ++ s.frames from hs')
      (.of_eq ?_))
    rw [hc, hc']
    simp [Frame.flying, Control.flying, Purpose.flying]
  | performed hc hs' hc' h hl hn =>
    -- What was about to become leases has become leases.
    refine .inl (Within.filter (fun f => ?_) _)
    rw [hl, hs', hc, hc']
    simp only [Control.flying, foreignsOfResult, HostValue.foreignsOf_eq_flatMap,
      List.count_append, List.count_nil]
    omega
  | decodes hc hb hs' hc' h hl hn => exact .inr ⟨_, _, _, hc, hb, hs', hc', h, hl, hn⟩
  | works hc hb he hs' hc' h => exact .inl (hstays [] h.leases hs' (by rw [hc']; rfl) rfl)
  | defers hc hb he hi hs' hc' h => exact .inl (hstays [] h.leases hs' (by rw [hc']; rfl) rfl)
  | @unpins b e a a' q slot entry hc hb he hi ht hs' hc' h =>
    exact .inl (hstays [.interrupted (.engine b)] h.leases hs' (by rw [hc']; rfl) rfl)
  | misses hc hb he hi ht hs' hc' h =>
    exact .inl (hstays [] h.leases hs' (by rw [hc']; rfl) rfl)
  | refuses hc hb he hs' hc' h => exact .inl (hstays [] h.leases hs' (by rw [hc']; rfl) rfl)
  | @calls b e a q req f hc hb he hf hs' hc' h =>
    refine .inl (hstays [f] h.leases hs' (Control.flying_of_isInner hc') ?_)
    simp [Frame.flying_of_isCallback hf]
  | @takes b e a q req f r hc hb he hr hf hs' hc' h =>
    refine .inl (hstays [f] h.leases hs' (by rw [hc']; rfl) ?_)
    simp [Frame.flying_of_isCallback hf]
  | pins hc hb he hs' hc' h => exact .inl (hstays [] h.leases hs' (by rw [hc']; rfl) rfl)
  | @finishes b c e a q r p rest hc hb he hs hs' hc' h =>
    refine .inl (within_kept_of (.of_eq h.leases) (show s.frames = [.running c p] ++ rest from hs)
      (show s'.frames = [] ++ rest from hs') (.of_eq ?_))
    rw [hc, hc', Control.flying_replyControl]
    simp [Frame.flying, Control.flying]
  | misplaced hc hb hs hs' hc' h =>
    exact .inl (hstays [] h.leases hs' (Control.flying_of_isInner hc') rfl)
  | drops hc hs hs' hc' h =>
    exact .inl (hpops _ _ h.leases hs hs' (Control.flying_of_isInner hc'))
  | replies hc hs hf hs' hc' h => exact .inl (hpops _ _ h.leases hs hs' (by rw [hc']; rfl))
  | @continues b f f' rest hc hs hf hs' hf' hc' h =>
    refine .inl (within_kept_of_none [f'] h.leases (show s.frames = [f] ++ rest from hs) hs'
      (Control.flying_of_isInner hc') ?_)
    simp [Frame.flying_of_isCallback hf']
  | leaves hc hs hi hs' hc' h =>
    exact .inl (hpops _ _ h.leases hs hs' (Control.flying_of_isInner hc'))
  | @leavesLast b r rest hc hs hi hs' hc' h =>
    exact .inl (within_kept_of_none [.interrupted (.done r)] h.leases
      (show s.frames = [.scope b] ++ rest from hs) hs' (by rw [hc']; rfl) rfl)
  | responds hc hb hs' hc' h => exact .inl (hstays [] h.leases hs' (by rw [hc']; rfl) rfl)
  | fails hc hs' hc' h => exact .inl (hstays [] h.leases hs' (by rw [hc']; rfl) rfl)
  | answers hc hb hr hs' hc' h => exact .inl (hstays [] h.leases hs' (by rw [hc']; rfl) rfl)
  | @drains b k a' slot slots entry hc hb ht hs' hc' h =>
    exact .inl (hstays [.interrupted (.drain b slots)] h.leases hs' (by rw [hc']; rfl) rfl)
  | passes hc hb ht hs' hc' h => exact .inl (hstays [] h.leases hs' (by rw [hc']; rfl) rfl)
  | refills hc hb hs' hc' h => exact .inl (hstays [] h.leases hs' (by rw [hc']; rfl) rfl)
  | dries hc hb hq hs' hc' h => exact .inl (hstays [] h.leases hs' (by rw [hc']; rfl) rfl)

/-- A record that is decoded adds the foreign objects in its value to those of its bridge. -/
lemma within_kept_of_decode {c : Nat} {k : Core} {r : Record} (hc : s.control = .decode c r)
    (hs' : s'.frames = s.frames) (hc' : s'.control = .perform c
      (decode c k.arena s.nextLease r).tasks [] (decode c k.arena s.nextLease r).result)
    (hl : s'.leases = s.leases) (b : Nat) : Within (s'.kept b)
      ((foreignsOfResult (decode c k.arena s.nextLease r).result).filter (·.bridge = b) ++
        s.kept b) := by
  intro f
  simp only [kept, hl, hs', hc, hc', Control.flying, List.filter_append, List.count_append,
    List.filter_nil, List.count_nil]
  omega

/-- A lease that is given back is kept no longer. -/
lemma within_kept_of_deadLease {f : ForeignObject} (hf : s.deadLease? = some f)
    (hs' : s'.frames = .running f.bridge .nothing :: .interrupted s.control :: s.frames)
    (hc' : s'.control = .engine f.bridge)
    (hl : s'.leases = s.leases.filter fun g => g.lease ≠ f.lease) :
    Within (f :: s'.kept f.bridge) (s.kept f.bridge) := by
  have hmem : f ∈ s.leases := List.mem_of_find?_eq_some hf
  have hkept : f :: s'.kept f.bridge =
      (f :: (s'.leases ++ s'.control.flying ++ s'.frames.flatMap Frame.flying)).filter
        fun g => g.bridge = f.bridge := by
    rw [List.filter_cons_of_pos (by simp)]
    rfl
  rw [hkept]
  refine Within.filter (fun g => ?_) _
  have hfewer : (f :: s'.leases).count g ≤ s.leases.count g := by
    rw [hl]
    by_cases heq : f = g
    · subst heq
      rw [List.count_cons_self, List.count_eq_zero.2 fun hm => by simpa using List.of_mem_filter hm]
      exact List.count_pos_iff.2 hmem
    · rw [List.count_cons_of_ne heq]
      exact within_filter _ _ g
  simp only [hs', hc', Control.flying, Frame.flying, Purpose.flying, List.flatMap_cons,
    List.count_append, List.count_cons, List.count_nil] at hfewer ⊢
  omega

/-! ### The numbers of leases -/

/-- A step makes leases with new numbers only. -/
lemma Stride.nextLease_le (h : Stride s s') : s.nextLease ≤ s'.nextLease := by
  cases h with
  | decodes hc hb hs' hc' h hl hn =>
    rw [hn]
    exact (numbered_decode ..).le
  | forgets hc hs' hc' h hl hn => exact Nat.le_of_eq hn.symm
  | vanishes hc hs' hc' h hb hl hn => exact Nat.le_of_eq hn.symm
  | disposes hc hs' hc' h hb hl hn => exact Nat.le_of_eq hn.symm
  | tears hc hs' hfs hc' hfly h hb hl hn => exact Nat.le_of_eq hn.symm
  | gone hb hc hfly hs' hfs hc' hfly' h hb' hl hn => exact Nat.le_of_eq hn.symm
  | releases hc hf hb hs' hc' h hl hn => exact Nat.le_of_eq hn.symm
  | performed hc hs' hc' h hl hn => exact Nat.le_of_eq hn.symm
  | _ =>
    exact Nat.le_of_eq (Eq.symm (by
      first | exact ‹Same s s'›.nextLease | exact ‹Recores s s' _ _›.nextLease))

/-- A foreign object that is kept after a step was kept before it, or it comes of the record that
is decoded. -/
lemma Stride.mem_kept (h : Stride s s') {f : ForeignObject} (hf : f ∈ s'.kept b) :
    f ∈ s.kept b ∨ ∃ k r, s.control = .decode b r ∧ s.core? b = some k ∧
      f ∈ foreignsOfResult (decode b k.arena s.nextLease r).result ∧
      s'.control.isInner = false := by
  rcases h.within_kept b with hk | ⟨c, k, r, hc, hb, hs', hc', -, hl, -⟩
  · exact .inl (hk.mem hf)
  · rcases List.mem_append.1 ((within_kept_of_decode hc hs' hc' hl b).mem hf) with hnew | hold
    · obtain ⟨hmem, hbridge⟩ := List.mem_filter.1 hnew
      have hof := (places_decode c k.arena s.nextLease r).bridge f hmem
      obtain rfl : c = b := hof.symm.trans (of_decide_eq_true hbridge)
      exact .inr ⟨k, r, hc, hb, hmem, by rw [hc']; rfl⟩
    · exact .inl hold

lemma numbered_within {first last last' : Nat} (h : Numbered first last many)
    (hw : Within few many) (hl : last ≤ last') : Numbered first last' few where
  le := Nat.le_trans h.le hl
  bounds := fun f hf =>
    ⟨(h.bounds f (hw.mem hf)).1, Nat.lt_of_lt_of_le (h.bounds f (hw.mem hf)).2 hl⟩
  nodup := hw.nodup_map h.nodup

/-- **The foreign objects that are kept have numbers that were given out, each its own.** -/
theorem Stride.numbered (h : Stride s s') (hn : Numbered 0 s.nextLease (s.kept b)) :
    Numbered 0 s'.nextLease (s'.kept b) := by
  rcases h.within_kept b with hk | ⟨c, k, r, hc, hb, hs', hc', -, hl, hnext⟩
  · exact numbered_within hn hk h.nextLease_le
  · have hnew := numbered_within (numbered_decode c k.arena s.nextLease r)
      (within_filter _ (·.bridge = b)) (Nat.le_refl _)
    have hwithin := within_kept_of_decode hc hs' hc' hl b
    refine numbered_within (hn.append hnew) (fun f => ?_) (Nat.le_of_eq hnext.symm)
    have hcount := hwithin f
    rw [List.count_append] at hcount ⊢
    omega

end ScriptBridge.Session
