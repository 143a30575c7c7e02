/-
# Foreign objects are what they were made for

A foreign object that a session refers to is a share of a lease that is kept, with the number
that no other lease has and the handle that nobody else answers for.  So two of them are the same
exactly if they are shares of one lease, and their script object is the one for which the lease
was made, however often handles have been handed out again.
-/
import ScriptBridge.Proofs.Session.Origins
import ScriptBridge.Proofs.Session.Ownership

namespace ScriptBridge.Session

open ScriptBridge.Bridge ScriptBridge.Host ScriptBridge.Script ScriptBridge.Wire

variable {s s' t : Session} {b : Nat} {f g : ForeignObject} {ctl : Control}
  {types : List HostType} {setups : List Setup} {hist older : List Session}

/-! ### Nothing is left to do for a record with leases -/

/-- The leases and those that are about to be entered, of all bridges. -/
def shares (s : Session) : List ForeignObject :=
  s.leases ++ s.control.flying ++ s.frames.flatMap Frame.flying

lemma mem_kept : f ∈ s.kept b ↔ f ∈ s.shares ∧ f.bridge = b := by
  rw [kept, List.mem_filter, shares, decide_eq_true_iff]

/-- Nothing is left to do for a record whose value has foreign objects. -/
def Control.IsReady : Control → Prop
  | .perform _ tasks _ result => tasks = [] ∨ foreignsOfResult result = []
  | _ => True

/-- What a frame waits for is no record whose value has foreign objects. -/
def Frame.IsReady : Frame → Prop
  | .interrupted c => c.IsReady
  | .running _ p => p.flying = []
  | _ => True

/-- Nothing is left to do for any record whose value has foreign objects. -/
structure Ready (s : Session) : Prop where
  control : s.control.IsReady
  frames : ∀ f ∈ s.frames, f.IsReady

lemma Control.isReady_of_flying (h : ctl.flying = []) : ctl.IsReady := by
  cases ctl with
  | perform b tasks heard result => exact .inr h
  | _ => trivial

lemma Frame.isReady_of_flying {f : Frame} (h : f.flying = []) : f.IsReady := by
  cases f with
  | interrupted c => exact Control.isReady_of_flying h
  | running b p => exact h
  | _ => trivial

lemma Frame.isReady_of_flatMap {fs : List Frame} (h : fs.flatMap Frame.flying = []) :
    ∀ f ∈ fs, f.IsReady :=
  fun f hf => Frame.isReady_of_flying (List.flatMap_eq_nil_iff.1 h f hf)

/-! ### Leases end when nothing refers to them -/

/-- A lease ends at a step, since nothing refers to it any more. -/
def LeaseEnds (s s' : Session) (f : ForeignObject) : Prop :=
  f ∈ s.leases ∧ f ∉ s'.leases ∧ ∃ g, s.deadLease? = some g ∧ f.lease = g.lease

/-- Only leases that nothing refers to end. -/
structure Hands (s s' : Session) : Prop where
  ready : s'.Ready
  shares : ∀ f ∈ s.shares, f ∈ s'.shares ∨ LeaseEnds s s' f

lemma hands_of {os rest : List Frame} (fs : List Frame) (hr : s.Ready) (hs : s.frames = os ++ rest)
    (hs' : s'.frames = fs ++ rest) (hc' : s'.control.IsReady) (hfs : ∀ f ∈ fs, f.IsReady)
    (hl : ∀ f ∈ s.leases, f ∈ s'.leases ∨ LeaseEnds s s' f)
    (hfly : s.control.flying ++ os.flatMap Frame.flying ⊆
      s'.shares ++ (s'.control.flying ++ fs.flatMap Frame.flying)) : Hands s s' where
  ready := by
    refine ⟨hc', fun f hf => ?_⟩
    rw [hs'] at hf
    rcases List.mem_append.1 hf with hf | hf
    · exact hfs f hf
    · exact hr.frames f (by rw [hs]; exact List.mem_append_right _ hf)
  shares := by
    intro f hf
    have hnew : ∀ f ∈ s.control.flying ++ os.flatMap Frame.flying, f ∈ s'.shares := by
      intro f hf
      have hmem := hfly hf
      simp only [Session.shares, hs', List.flatMap_append, List.mem_append] at hmem ⊢
      tauto
    simp only [Session.shares, hs, List.flatMap_append, List.mem_append] at hf
    rcases hf with (hf | hf) | hf | hf
    · refine (hl f hf).imp_left fun hf => ?_
      simp only [Session.shares, List.mem_append]
      exact .inl (.inl hf)
    · exact .inl (hnew f (List.mem_append_left _ hf))
    · exact .inl (hnew f (List.mem_append_right _ hf))
    · refine .inl ?_
      simp only [Session.shares, hs', List.flatMap_append, List.mem_append]
      exact .inr (.inr hf)

/-- The same where the frames that have gone kept nothing, and nothing becomes of what was about
to be done. -/
lemma hands_of_none {os rest : List Frame} (fs : List Frame) (hr : s.Ready)
    (hl : s'.leases = s.leases) (hs : s.frames = os ++ rest) (hs' : s'.frames = fs ++ rest)
    (hfly : s.control.flying = []) (hos : os.flatMap Frame.flying = [])
    (hc' : s'.control.IsReady) (hfs : ∀ f ∈ fs, f.IsReady) : Hands s s' :=
  hands_of fs hr hs hs' hc' hfs (fun f hf => .inl (hl ▸ hf)) (by rw [hfly, hos]; simp)

/-- **Leases that something refers to do not end.** -/
theorem Stride.hands (h : Stride s s') (hr : s.Ready) : Hands s s' := by
  have hstays : ∀ fs, s'.leases = s.leases → s'.frames = fs ++ s.frames →
      s.control.flying = [] → s'.control.flying = [] → fs.flatMap Frame.flying = [] →
      Hands s s' := fun fs hl hs' hfly hfly' hfs =>
    hands_of_none fs hr hl (List.nil_append _).symm hs' hfly rfl
      (Control.isReady_of_flying hfly') (Frame.isReady_of_flatMap hfs)
  have hpops : ∀ f rest, s'.leases = s.leases → s.frames = f :: rest → s'.frames = rest →
      s.control.flying = [] → s'.control.flying = [] → f.flying = [] → Hands s s' :=
    fun f rest hl hs hs' hfly hfly' hf =>
      hands_of_none [] hr hl (show s.frames = [f] ++ rest from hs) hs' hfly
        (by simpa using hf) (Control.isReady_of_flying hfly') (by simp)
  have hsame : s'.frames = s.frames → s'.control = s.control →
      (∀ f ∈ s.leases, f ∈ s'.leases ∨ LeaseEnds s s' f) → Hands s s' := fun hs' hc' hl =>
    hands_of [] hr (List.nil_append _).symm hs' (hc' ▸ hr.control) (by simp) hl
      (by rw [hc']; simp)
  have hinner : ∀ {fs : List Frame}, (∀ f ∈ fs, f.isInner = true) →
      fs.flatMap Frame.flying = [] := flatMap_flying_of_isInner
  -- A lease that nothing refers to is the only one that goes.
  have hdead : ∀ {g}, s.deadLease? = some g →
      s'.leases = s.leases.filter (fun f => f.lease ≠ g.lease) →
      ∀ f ∈ s.leases, f ∈ s'.leases ∨ LeaseEnds s s' f := by
    intro g hg hl f hf
    rw [LeaseEnds, hl]
    by_cases heq : f.lease = g.lease
    · exact .inr ⟨hf, by simp [heq], g, hg, heq⟩
    · exact .inl (List.mem_filter.2 ⟨hf, by simpa using heq⟩)
  cases h with
  | @inner os fs rest hc hs hos hs' hfs hc' h =>
    exact hands_of_none fs hr h.leases hs hs' (Control.flying_of_isInner hc) (hinner hos)
      (Control.isReady_of_flying (Control.flying_of_isInner hc'))
      (Frame.isReady_of_flatMap (hinner hfs))
  | interrupts hc hs' hc' h =>
    refine hands_of [.interrupted s.control] hr (List.nil_append _).symm hs'
      (Control.isReady_of_flying (Control.flying_of_isInner hc'))
        (List.forall_mem_singleton.2 hr.control)
      (fun f hf => .inl (h.leases ▸ hf)) ?_
    simp [Frame.flying]
  | @resumes ctl rest hc hs hs' hc' h =>
    have hready := hr.frames _ (by rw [hs]; exact List.mem_cons_self ..)
    refine hands_of [] hr (show s.frames = [.interrupted ctl] ++ rest from hs) hs'
      (hc' ▸ hready) (by simp) (fun f hf => .inl (h.leases ▸ hf)) ?_
    rw [Control.flying_of_isInner hc, hc']
    simp [Frame.flying]
  | forgets hc hs' hc' h hl hn =>
    refine hsame hs' hc' ?_
    rcases hl with hl | ⟨g, hg, -, hl⟩
    · exact fun f hf => .inl (hl ▸ hf)
    · exact hdead hg hl
  | vanishes hc hs' hc' h hb hl hn => exact hsame hs' hc' fun f hf => .inl (hl ▸ hf)
  | disposes hc hs' hc' h hb hl hn =>
    exact hstays [] hl hs' (by rw [hc]; rfl) (by rw [hc']; rfl) rfl
  | tears hc hs' hfs hc' hfly h hb hl hn =>
    rw [List.append_eq_nil_iff] at hfly
    exact hstays _ hl hs' (by rw [hc]; rfl) hfly.1 hfly.2
  | gone hb hc hfly hs' hfs hc' hfly' h hb' hl hn =>
    rw [List.append_eq_nil_iff] at hfly'
    exact hstays _ hl hs' hfly hfly'.1 hfly'.2
  | @skips b task tasks heard heard' result hb hc hs' hc' h =>
    have hnone : s.control.flying = [] := by
      have hready := hr.control
      rw [hc] at hready ⊢
      exact hready.resolve_left (by simp)
    exact hstays [] h.leases hs' hnone (by rw [hc'] ; rw [hc] at hnone; exact hnone) rfl
  | @opens b e a a' q op w p fs hc hb hm hw hg hp hs' hfs hc' h =>
    refine hstays (.running b p :: .scope b :: fs) h.leases hs' (by rw [hc]; rfl)
      (by rw [hc']; rfl) ?_
    have hnone : p.flying = [] := by rcases hp with rfl | rfl <;> rfl
    simp [Frame.flying, hnone, hinner hfs]
  | @balks b e a a' q op fs hc hb hm hs' hfs hc' h =>
    refine hstays (.scope b :: fs) h.leases hs' (by rw [hc]; rfl)
      (Control.flying_of_isInner hc') ?_
    simp [Frame.flying, hinner hfs]
  | @releases f e a q hc hf hb hs' hc' h hl hn =>
    refine hands_of [.running f.bridge .nothing, .interrupted s.control] hr
      (List.nil_append _).symm hs' (by rw [hc']; trivial) ?_ (hdead hf hl) ?_
    · exact List.forall_mem_cons.2 ⟨rfl, List.forall_mem_singleton.2 hr.control⟩
    · simp [Frame.flying, Purpose.flying]
  | @gives b e a q handle tasks heard result hc hb hs' hc' h =>
    have hnone : foreignsOfResult result = [] := by
      have hready := hr.control
      rw [hc] at hready
      exact hready.resolve_left (by simp)
    exact hstays [.running b .nothing, .interrupted (.perform b tasks heard result)] h.leases hs'
      (by rw [hc]; exact hnone) (by rw [hc']; rfl)
      (by simp [Frame.flying, Control.flying, Purpose.flying, hnone])
  | @reads b e a q handle name tasks heard result hc hb hs' hc' h =>
    have hnone : foreignsOfResult result = [] := by
      have hready := hr.control
      rw [hc] at hready
      exact hready.resolve_left (by simp)
    exact hstays [.running b (.member handle name tasks heard result)] h.leases hs'
      (by rw [hc]; exact hnone) (by rw [hc']; rfl)
      (by simp [Frame.flying, Purpose.flying, hnone])
  | performed hc hs' hc' h hl hn =>
    -- What was about to become leases has become leases.
    refine hands_of [] hr (List.nil_append _).symm hs' (by rw [hc']; trivial) (by simp)
      (fun f hf => .inl (by rw [hl]; exact List.mem_append_left _ hf)) ?_
    rw [hc]
    intro f hf
    have hmem : f ∈ s'.leases := by
      rw [hl]
      refine List.mem_append_right _ ?_
      simpa [Control.flying, foreignsOfResult, HostValue.foreignsOf_eq_flatMap] using hf
    refine List.mem_append_left _ ?_
    simp only [Session.shares, List.mem_append]
    exact .inl (.inl hmem)
  | @decodes b k r hc hb hs' hc' h hl hn =>
    refine hands_of_none [] hr hl (List.nil_append _).symm hs' (by rw [hc]; rfl) rfl ?_ (by simp)
    rw [hc', Control.IsReady]
    cases hresult : (decode b k.arena s.nextLease r).result with
    | ok v => exact .inl (tasks_decode hresult)
    | error f => exact .inr rfl
  | works hc hb he hs' hc' h | defers hc hb he hi hs' hc' h | misses hc hb he hi ht hs' hc' h
  | refuses hc hb he hs' hc' h | pins hc hb he hs' hc' h | fails hc hs' hc' h
  | responds hc hb hs' hc' h | answers hc hb hr hs' hc' h | passes hc hb ht hs' hc' h
  | refills hc hb hs' hc' h | dries hc hb hq hs' hc' h =>
    exact hstays [] h.leases hs' (by rw [hc]; rfl) (by rw [hc']; rfl) rfl
  | @unpins b e a a' q slot entry hc hb he hi ht hs' hc' h =>
    exact hstays [.interrupted (.engine b)] h.leases hs' (by rw [hc]; rfl) (by rw [hc']; rfl) rfl
  | @calls b e a q req f hc hb he hf hs' hc' h =>
    refine hstays [f] h.leases hs' (by rw [hc]; rfl) (Control.flying_of_isInner hc') ?_
    simp [Frame.flying_of_isCallback hf]
  | @takes b e a q req f r hc hb he hreq hf hs' hc' h =>
    refine hstays [f] h.leases hs' (by rw [hc]; rfl) (by rw [hc']; rfl) ?_
    simp [Frame.flying_of_isCallback hf]
  | @finishes b c e a q r p rest hc hb he hs hs' hc' h =>
    have hnone : p.flying = [] :=
      hr.frames (.running c p) (by rw [hs]; exact List.mem_cons_self ..)
    exact hpops _ _ h.leases hs hs' (by rw [hc]; rfl)
      (by rw [hc', Control.flying_replyControl, hnone]) hnone
  | misplaced hc hb hs hs' hc' h =>
    exact hstays [] h.leases hs' (by rw [hc]; rfl) (Control.flying_of_isInner hc') rfl
  | @drops b p rest hc hs hs' hc' h =>
    have hnone : p.flying = [] :=
      hr.frames (.running b p) (by rw [hs]; exact List.mem_cons_self ..)
    exact hpops _ _ h.leases hs hs' (Control.flying_of_isInner hc)
      (Control.flying_of_isInner hc') hnone
  | replies hc hs hf hs' hc' h =>
    exact hpops _ _ h.leases hs hs' (Control.flying_of_isInner hc) (by rw [hc']; rfl)
      (Frame.flying_of_isCallback hf)
  | @continues b f f' rest hc hs hf hs' hf' hc' h =>
    exact hands_of_none [f'] hr h.leases (show s.frames = [f] ++ rest from hs) hs'
      (Control.flying_of_isInner hc) (by simp [Frame.flying_of_isCallback hf])
      (Control.isReady_of_flying (Control.flying_of_isInner hc'))
      (by simpa using Frame.isReady_of_flying (Frame.flying_of_isCallback hf'))
  | leaves hc hs hi hs' hc' h =>
    exact hpops _ _ h.leases hs hs' (Control.flying_of_isInner hc)
      (Control.flying_of_isInner hc') rfl
  | @leavesLast b r rest hc hs hi hs' hc' h =>
    exact hands_of_none [.interrupted (.done r)] hr h.leases
      (show s.frames = [.scope b] ++ rest from hs) hs' (by rw [hc]; rfl) rfl
      (by rw [hc']; trivial) (by simp [Frame.IsReady, Control.IsReady])
  | @drains b k a' slot slots entry hc hb ht hs' hc' h =>
    exact hstays [.interrupted (.drain b slots)] h.leases hs' (by rw [hc]; rfl) (by rw [hc']; rfl)
      rfl

lemma Goes.hands (h : Goes s s') (hr : s.Ready) : Hands s s' := by
  obtain ⟨t, hfirst, hrest⟩ := h.stride
  have ht := hfirst.hands hr
  rcases hrest with rfl | ⟨-, -, hsecond, hsame⟩
  · exact ht
  · have hs' := hsecond.hands ht.ready
    have hkept : ∀ f ∈ t.shares, f ∈ s'.shares := fun f hf =>
      (hs'.shares f hf).resolve_right fun hends => hends.2.1 (hsame.leases ▸ hends.1)
    refine ⟨hs'.ready, fun f hf => ?_⟩
    rcases ht.shares f hf with hf | ⟨hold, hnot, hdead⟩
    · exact .inl (hkept f hf)
    · exact .inr ⟨hold, by rw [hsame.leases]; exact hnot, hdead⟩

/-! ### What a session refers to is kept -/

/-- Nothing refers to a lease that ends. -/
lemma not_mem_of_deadLease (hg : s.deadLease? = some g) (hlease : f.lease = g.lease) :
    f ∉ HostValue.foreignsOf s.values := fun hf => by
  have hnone := List.find?_some hg
  simp only [Bool.not_eq_true', List.any_eq_false, beq_iff_eq] at hnone
  exact hnone f hf hlease

/-- The foreign objects that come of a record are kept once it has been decoded. -/
lemma Goes.mem_shares_of_decode (h : Goes s s') (ht : s.tidy? = none) {r : Record} {k : Core}
    (hc : s.control = .decode b r) (hb : s.core? b = some k)
    (hf : f ∈ foreignsOfResult (decode b k.arena s.nextLease r).result) : f ∈ s'.shares := by
  obtain ⟨br, hbr, rfl⟩ := bridge?_of_core? hb
  have hproceed : s.proceed? = some (s.decodeStep b r) := by rw [proceed?, hc]
  have hstep : s.step? = some (s.lettingGo (s.decodeStep b r)) := by
    rw [step?, hc]
    simp [ht, hproceed]
  have hcontrol : (s.decodeStep b r).control =
      .perform b (decode b br.arena s.nextLease r).tasks []
        (decode b br.arena s.nextLease r).result := by
    rw [decodeStep, hbr]
  cases h with
  | steps h =>
    obtain rfl := Option.some.inj (hstep.symm.trans h)
    rcases lettingGo_eq s (s.decodeStep b r) with heq | ⟨-, vs, -, heq⟩ <;> rw [heq]
    · simp only [shares, hcontrol, List.mem_append]
      exact .inl (.inr hf)
    · refine List.mem_append_right _ ?_
      simp only [interrupt, goto, push, List.flatMap_cons, Frame.flying, hcontrol]
      exact List.mem_append_left _ hf
  | begins hr => rw [hr] at hstep; cases hstep
  | concludes save hr => rw [hr] at hstep; cases hstep

lemma Goes.admits_shares (h : Goes s s') : Admits (.leases (· ∈ s'.shares)) s s' where
  brings := fun ht b r k hc hb f hf g hg => by
    cases hg
    exact h.mem_shares_of_decode ht hc hb hf
  allots := fun o _ _ f heq => by cases heq
  yields := fun _ _ => trivial
  disposes := fun _ _ => trivial
  logs := fun _ _ => trivial

lemma ready_of_create (h : create types setups = .ok s) :
    s.Ready ∧ ∀ f ∈ HostValue.foreignsOf s.values, f ∈ s.shares := by
  unfold create at h
  cases hmap : setups.mapM Bridge.create with
  | error err =>
    rw [hmap] at h
    cases h
  | ok bridges =>
    rw [hmap] at h
    cases h
    refine ⟨⟨trivial, by simp⟩, fun f hf => ?_⟩
    obtain ⟨v, hv, hf⟩ := HostValue.mem_foreignsOf.1 hf
    simp only [values, Control.finished, Control.values, outcomeValues, List.flatMap_nil,
      List.map_nil, List.append_nil, List.singleton_append, List.mem_cons, arenaValues,
      List.mem_flatMap, List.mem_map] at hv
    rcases hv with rfl | ⟨-, -, o, -, rfl⟩ <;> cases hf

/-- **Whatever a session refers to is a lease, or about to become one.** -/
theorem History.mem_shares (h : History types setups hist) (hs : s ∈ hist) :
    s.Ready ∧ ∀ f ∈ HostValue.foreignsOf s.values, f ∈ s.shares := by
  induction h generalizing s with
  | starts hcreate =>
    obtain rfl := List.mem_singleton.1 hs
    exact ready_of_create hcreate
  | @goes u s' older h hgo ih =>
    rcases List.mem_cons.1 hs with rfl | hs
    · obtain ⟨hready, hshares⟩ := ih (List.mem_cons_self ..)
      have hhands := hgo.hands hready
      have hbefore : u.Refers (.leases (· ∈ s.shares)) := refers_iff_values.2 fun f hf =>
        (hhands.shares f (hshares f hf)).resolve_right fun ⟨_, _, g, hdead, hlease⟩ =>
          not_mem_of_deadLease hdead hlease hf
      exact ⟨hhands.ready, refers_iff_values.1 (hgo.refers hbefore hgo.admits_shares)⟩
    · exact ih hs

/-! ### Leases and handles -/

/-- A foreign object of a bridge is there: a session refers to it, or its lease is kept. -/
def Live (s : Session) (b : Nat) (f : ForeignObject) : Prop :=
  f.bridge = b ∧ (f ∈ s.leases ∨ f ∈ HostValue.foreignsOf s.values)

lemma History.mem_kept_of_live (h : History types setups hist) (hs : s ∈ hist)
    (hf : s.Live b f) : f ∈ s.kept b := by
  refine mem_kept.2 ⟨?_, hf.1⟩
  rcases hf.2 with hf | hf
  · simp only [shares, List.mem_append]
    exact .inl (.inl hf)
  · exact (h.mem_shares hs).2 f hf

/-- **Leases own their handles.**  As long as a bridge has not been disposed, any two of its foreign
objects that have one handle are shares of one lease, and they are the same exactly if they are.
Each has had the script object for which its handle was handed out ever since then, which was
before its lease was made; and a handle that the engine gives up is that of none of them. -/
theorem leases_own_handles (h : History types setups hist) (hs : hist.head? = some s)
    {e : Engine} (he : s.engine? b = some e) :
    (∀ f g, s.Live b f → s.Live b g → f.handle = g.handle → f = g) ∧
    (∀ f g, s.Live b f → s.Live b g → (f.same g = true ↔ f.lease = g.lease)) ∧
    (∀ f, s.Live b f → ∃ r, Pinned b f.handle r (Exported b f.handle r f.lease) hist) ∧
    (∀ f, s.Live b f → ∀ handle, e.control = .begin (.release handle) → handle ≠ f.handle) := by
  obtain ⟨older, rfl⟩ : ∃ older, hist = s :: older := by
    cases hist with
    | nil => cases hs
    | cons s' older =>
      cases hs
      exact ⟨older, rfl⟩
  obtain ⟨x, hx, rfl⟩ := side?_isSome_of_engine? he
  -- No two of the leases that are kept have one handle, and no two have one number.
  have hkept : ∀ f, s.Live b f → f ∈ s.kept b := fun f => h.mem_kept_of_live (List.mem_cons_self ..)
  have howns := h.owns (List.mem_cons_self ..) hx
  have hnodup := List.nodup_append.1 howns.nodup
  have hhandle : ∀ f g, s.Live b f → s.Live b g → f.handle = g.handle → f = g := fun f g hf hg =>
    List.inj_on_of_nodup_map hnodup.2.1 (hkept f hf) (hkept g hg)
  have hlease : ∀ f g, s.Live b f → s.Live b g → f.lease = g.lease → f = g := fun f g hf hg =>
    List.inj_on_of_nodup_map (h.numbered (List.mem_cons_self ..) b).nodup (hkept f hf) (hkept g hg)
  refine ⟨hhandle, fun f g hf hg => ⟨fun hsame => ?_, fun heq => ?_⟩, fun f hf => ?_,
    fun f hf handle hc heq => ?_⟩
  · rw [ForeignObject.same, Bool.and_eq_true, beq_iff_eq, beq_iff_eq] at hsame
    rw [hhandle f g hf hg hsame.1]
  · rw [hlease f g hf hg heq, ForeignObject.same, beq_self_eq_true, beq_self_eq_true, Bool.and_self]
  · exact h.pinned_kept hx (hkept f hf)
  · -- The engine answers for the handle that it gives up, and so no lease does.
    have hheld : handle ∈ x.engine.holding ++ x.trail.flatMap Mark.handles := by
      refine List.mem_append_left _ (List.mem_append_left _ ?_)
      rw [hc]
      exact List.mem_singleton_self _
    exact hnodup.2.2 handle hheld f.handle (List.mem_map_of_mem (hkept f hf)) heq

/-- A script that makes an object. -/
def makeObject : Expr := .op (.object ["k"]) [.int 1]

/-- A program that lets go of a script object and then gets another one. -/
def renewed : List Session :=
  obey 40 0 (.evaluate makeObject) (some "b") (obey 40 0 (.drop "a") none
    (obey 40 0 (.evaluate makeObject) (some "a") (made [] [{}])))

lemma history_renewed : History [] [{}] renewed :=
  (((history_made (by decide +kernel)).obey ..).obey ..).obey ..

/-- The second script object has the handle of the first one, and a lease of its own. -/
theorem leases_own_handles_renewed : ∃ s e f, renewed.head? = some s ∧ s.engine? 0 = some e ∧
    s.leases = [f] ∧ f.lease = 1 ∧ f.handle.id = 1 ∧ s.Live 0 f ∧
      ∃ r, Pinned 0 f.handle r (Exported 0 f.handle r f.lease) renewed := by
  have hleases : renewed.head?.map (fun s => (s.engine? 0).isSome &&
      s.leases.map (fun f => (f.lease, f.handle.id, f.bridge)) == [(1, 1, 0)]) = some true := by
    decide +kernel
  obtain ⟨s, hs, hcheck⟩ := Option.map_eq_some_iff.1 hleases
  rw [Bool.and_eq_true, Option.isSome_iff_exists, beq_iff_eq] at hcheck
  obtain ⟨⟨e, he⟩, hcheck⟩ := hcheck
  obtain ⟨f, hf, heq⟩ := List.map_eq_singleton_iff.1 hcheck
  simp only [Prod.mk.injEq] at heq
  have hlive : s.Live 0 f := ⟨heq.2.2, .inl (by rw [hf]; exact List.mem_singleton_self _)⟩
  exact ⟨s, e, f, hs, he, hf, heq.1, heq.2.1, hlive,
    (leases_own_handles history_renewed hs he).2.2.1 f hlive⟩

end ScriptBridge.Session
