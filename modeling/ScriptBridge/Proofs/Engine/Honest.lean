/-
# Engines whose stand-ins stand for host entries

As long as no script puts anything in the place of the class of stand-ins, what stands for
a host entry is a stand-in with a token of its own, script cannot get hold of the token,
and a stand-in that a request is made for is kept until the request has been made.
-/
import ScriptBridge.Proofs.Engine.Custody
import ScriptBridge.Proofs.Script.Reach

namespace ScriptBridge

open ScriptBridge.Script ScriptBridge.Table ScriptBridge.Wire

namespace Engine

variable {e₀ e e' : Engine} {h h' : Heap}

/-! ### What frames keep -/

/-- What an engine may be about to do when it is entered. -/
def Control.IsResting : Control → Prop
  | .idle | .begin (.release _) => True
  | .encoded r => r = .null
  | _ => False

/-- What an engine does while it looks for the class of stand-ins. -/
def Control.IsLookup (c : Control) : Prop :=
  c = .read globalObject (.name (Intrinsic.className .proxy)) ∨
    c = .ret (.object (Intrinsic.classRef .proxy))

/-- Whether a frame waits for the class of a stand-in. -/
def Frame.isMaking : Frame → Bool
  | .pending (.standInClass ..) => true
  | _ => false

/-- Script may refer to some places of a heap. -/
def ShownIn (h : Heap) (refs : List Ref) : Prop := ∀ r ∈ refs, h.Shows True r

/-- Script may refer to what a frame keeps, but for the token of a stand-in that is being
made, and a stand-in is kept with the call of its entry. -/
def Frame.Safe (h : Heap) : Frame → Prop
  | .pending (.standInClass slot token) => h.Spare True slot token
  | .pending (.entered _) => False
  | .sending c result held =>
    ShownIn h (Frame.sending c result held).refs ∧
      Backed True h c.slot (held.flatMap Value.refs)
  | .entry c => c.IsResting
  | f => ShownIn h f.refs

lemma Control.IsResting.refs {c : Control} (hc : c.IsResting) : c.refs = [] := by
  cases c <;> first | rfl | exact hc.elim

lemma Control.IsResting.inbound {c : Control} (hc : c.IsResting) : c.inbound = [] := by
  cases c with
  | begin op => cases op <;> first | rfl | exact hc.elim
  | idle => rfl
  | encoded r => rfl
  | _ => exact hc.elim

lemma Control.IsResting.not_lookup {c : Control} (hc : c.IsResting) : ¬ c.IsLookup := by
  rintro (rfl | rfl) <;> exact hc

lemma Control.IsResting.not_ask {c : Control} (hc : c.IsResting) (r : Request) :
    c ≠ .ask r := by
  rintro rfl
  exact hc

lemma Frame.Safe.shown_of_isQuiet {f : Frame} (hs : f.Safe h) (hf : f.isQuiet = true) :
    ShownIn h f.refs := by
  cases f with
  | pending work => cases work <;> first | exact hs | cases hf
  | _ => first | exact hs | cases hf

lemma Frame.safe_of_isQuiet {f : Frame} (hs : ShownIn h f.refs) (hf : f.isQuiet = true) :
    f.Safe h := by
  cases f with
  | pending work => cases work <;> first | exact hs | cases hf
  | _ => first | exact hs | cases hf

lemma Frame.isMaking_of_isQuiet {f : Frame} (hf : f.isQuiet = true) : f.isMaking = false := by
  cases f with
  | pending work => cases work <;> first | rfl | cases hf
  | _ => rfl

/-! ### Keeping -/

/-- What holds of some places of a heap still holds of them in another one. -/
structure Upholds (h h' : Heap) (refs : List Ref) : Prop where
  shows : ∀ r, h.Shows True r → h'.Shows True r
  proxies : ∀ r ∈ refs, ∀ o s t, h.get? r = some o → o.kind = .proxy s t →
    ∃ p, h'.get? r = some p ∧ p.kind = .proxy s t
  spare : ∀ t ∈ refs, ∀ s, h.Spare True s t → h'.Spare True s t

namespace Upholds

variable {refs : List Ref}

lemma backed (hu : Upholds h h' refs) {slot : Slot} {held : List Ref}
    (hb : Backed True h slot held) (hsub : ∀ r ∈ held, r ∈ refs) :
    Backed True h' slot held := fun hP => by
  obtain ⟨r, hr, o, t, hg, hk⟩ := hb hP
  obtain ⟨p, hp, hkp⟩ := hu.proxies r (hsub r hr) o slot t hg hk
  exact ⟨r, hr, p, t, hp, hkp⟩

lemma safe (hu : Upholds h h' refs) {f : Frame} (hs : f.Safe h) (hsub : ∀ r ∈ f.refs, r ∈ refs) :
    f.Safe h' := by
  have hshown : ∀ {l : List Ref}, ShownIn h l → ShownIn h' l := fun hl r hr =>
    hu.shows r (hl r hr)
  cases f with
  | pending work =>
    cases work with
    | standInClass slot token =>
      exact hu.spare token
        (hsub token (by simp [Frame.refs, Pending.refs])) slot hs
    | entered slot => exact hs
    | _ => exact hshown hs
  | sending call result held =>
    exact ⟨hshown hs.1, hu.backed hs.2 fun r hr => hsub r (List.mem_append_right _ hr)⟩
  | entry c => exact hs
  | _ => exact hshown hs

lemma of_keeps (hk : h.Keeps h') (hs : h.Sound)
    (hnew : ∀ r o s t, h.next ≤ r → h'.get? r = some o → o.kind = .proxy s t → h.next ≤ t)
    (refs : List Ref) : Upholds h h' refs where
  shows := fun r hr => hr.keeps hk
  proxies := fun r _ o s t hg hkind => by
    obtain ⟨p, hp, hsort⟩ := hk.get?_sort hs hg
    exact ⟨p, hp, (Object.kind_proxy_congr hsort).2 hkind⟩
  spare := fun t _ s ht => ht.keeps hs hk hnew

lemma of_grows (hg : h.Grows h') (hs : h.Sound) (refs : List Ref) : Upholds h h' refs :=
  of_keeps hg.toKeeps hs (fun _ _ _ _ hle hr hkind =>
    absurd (hg.lt_of_proxy hs hr hkind) (Nat.not_lt.2 hle)) refs

lemma of_restrict {p : Ref → Bool} (hp : ∀ r ∈ refs, (h.get? r).isSome → p r = true) :
    Upholds h (h.restrict p) refs where
  shows := fun r hr => hr.restrict
  proxies := fun r hr o s t hg hk => by
    refine ⟨o, Heap.get?_restrict_of (hp r hr ?_) hg, hk⟩
    rw [hg]
    rfl
  spare := fun t ht s hspare => by
    obtain ⟨⟨q, hq, -⟩, -⟩ := hspare trivial
    exact hspare.restrict (hp t ht (by rw [hq]; rfl))

end Upholds

/-! ### Engines -/

/-- Stand-ins stand for host entries, and frames and handles keep what they should. -/
structure Steady (e : Engine) : Prop where
  sound : e.heap.Sound
  guarded : e.heap.Guarded True
  standIns : e.heap.StandIns True
  frames : ∀ f ∈ e.stack, f.Safe e.heap
  handles : e.Shown True e.handles.values

/-- A steady engine goes on with something that script may see; it asks for an entry only
where its stand-in is kept, and a stand-in is made at once. -/
structure Honest (e : Engine) : Prop extends Steady e where
  control : e.Shown True e.control.refs
  asking : ∀ req, e.control = .ask req → ∃ slot name held rest, req = .get slot name ∧
    e.stack = .awaiting none held :: rest ∧ Backed True e.heap slot (held.flatMap Value.refs)
  making : (∀ f ∈ e.stack, f.isMaking = false) ∨ ∃ slot token rest,
    e.stack = .pending (.standInClass slot token) :: rest ∧
      (∀ f ∈ rest, f.isMaking = false) ∧ e.control.IsLookup

/-- A steady engine that is not making a stand-in. -/
structure Calm (e : Engine) : Prop extends Steady e where
  calm : ∀ f ∈ e.stack, f.isMaking = false

lemma Calm.honest (hc : e.Calm) (hr : e.Shown True e.control.refs)
    (ha : ∀ req, e.control ≠ .ask req) : e.Honest :=
  { hc with
    control := hr
    asking := fun req h => absurd h (ha req)
    making := .inl hc.calm }

lemma Calm.goto (hc : e.Calm) (c : Control) : (e.goto c).Calm :=
  { hc with }

lemma Calm.push (hc : e.Calm) {f : Frame} (hf : f.Safe e.heap) (hm : f.isMaking = false) :
    (e.push f).Calm :=
  { hc with
    frames := List.forall_mem_cons.2 ⟨hf, hc.frames⟩
    calm := List.forall_mem_cons.2 ⟨hm, hc.calm⟩ }

lemma Calm.pop (hc : e.Calm) {f : Frame} {rest : List Frame} (hs : e.stack = f :: rest) :
    Calm { e with stack := rest } :=
  { hc with
    frames := fun g hg => hc.frames g (by rw [hs]; exact List.mem_cons_of_mem _ hg)
    calm := fun g hg => hc.calm g (by rw [hs]; exact List.mem_cons_of_mem _ hg) }

lemma Calm.top (hc : e.Calm) {f : Frame} {rest : List Frame} (hs : e.stack = f :: rest) :
    f.Safe e.heap :=
  hc.frames f (by rw [hs]; exact List.mem_cons_self ..)

lemma Honest.sighted (hh : e.Honest) : e.Sighted True where
  guarded := hh.guarded
  control := hh.control
  frames := fun f hf hq => (hh.frames f hf).shown_of_isQuiet hq
  elements := fun array depth length index done hm =>
    hh.frames _ hm array (by simp [Frame.refs])
  handles := hh.handles

/-! ### Work of script -/

lemma Grown.calm (hg : Grown True e₀ e) (hc : e₀.Calm) : e.Calm := by
  obtain ⟨fs, hstack, hfs⟩ := hg.stack
  have hup := Upholds.of_grows hg.heap hc.sound (e₀.stack.flatMap Frame.refs)
  refine ⟨⟨hg.heap.sound hc.sound, hg.guarded, hc.standIns.grows hc.sound hg.heap, ?_, ?_⟩, ?_⟩
  · intro f hf
    rw [hstack] at hf
    rcases List.mem_append.1 hf with hf | hf
    · exact Frame.safe_of_isQuiet (hfs f hf).2 (hfs f hf).1
    · exact hup.safe (hc.frames f hf) fun r hr => List.mem_flatMap.2 ⟨f, hf, hr⟩
  · rw [hg.handles]
    exact fun r hr => (hc.handles r hr).grows hg.heap
  · intro f hf
    rw [hstack] at hf
    rcases List.mem_append.1 hf with hf | hf
    · exact Frame.isMaking_of_isQuiet (hfs f hf).1
    · exact hc.calm f hf

lemma Control.Quiet.ne_ask {c : Control} (hc : c.Quiet) (req : Request) : c ≠ .ask req := by
  rintro rfl
  exact hc

lemma ScriptWork.honest (hw : ScriptWork True e₀ e) (hc : e₀.Calm) : e.Honest := by
  cases hw with
  | inner hg hquiet hfits hr => exact (hg.calm hc).honest hr hquiet.ne_ask
  | @asks e hg slot name held hr hb =>
    have hpushed := (hg.calm hc).push (f := .awaiting none held) hr rfl
    exact { hpushed with
      control := shown_nil True _
      asking := fun req h => by
        cases h
        exact ⟨slot, name, held, e.stack, rfl, rfl, hb⟩
      making := .inl hpushed.calm }
  | sends hg hr hv hb =>
    exact (((hg.calm hc).push (f := .sending _ _ _) ⟨hr, hb⟩ rfl).goto _).honest hv
      (by intro req h; cases h)

/-! ### Records that become values -/

lemma Takes.calm {slots : List Slot} (ht : Takes True e e' slots) (hc : e.Calm) : e'.Calm := by
  have hup := Upholds.of_keeps ht.keeps hc.sound
    (fun r o s t hle hr hk => ht.tokens r o s t hle hc.sound hr hk) (e.stack.flatMap Frame.refs)
  refine ⟨⟨ht.sound hc.sound, ht.guarded hc.guarded, ht.standIns hc.sound hc.standIns, ?_, ?_⟩, ?_⟩
  · intro f hf
    rw [ht.stack] at hf
    exact hup.safe (hc.frames f hf) fun r hr => List.mem_flatMap.2 ⟨f, hf, hr⟩
  · rw [ht.handles]
    exact ht.shown hc.handles
  · rw [ht.stack]
    exact hc.calm

lemma Calm.withValue {made : Outcome × Engine} (hc : made.2.Calm)
    (hs : ShownOutcome True made.2 made.1) : (withValue made give).Honest := by
  obtain ⟨v | v, e⟩ := made <;>
    exact (hc.goto _).honest hs (by intro req h; cases h)

lemma Calm.nextItem (hc : e.Calm) {array : Ref} (ha : e.heap.Shows True array) (index : Nat)
    (items : List Record) : (e.nextItem array index items).Honest := by
  have hrefs : ShownIn e.heap [array] := by simpa [ShownIn] using ha
  unfold Engine.nextItem
  split
  · exact (hc.goto _).honest hrefs (by intro req h; cases h)
  · exact ((hc.push (f := .items array index _) hrefs rfl).goto _).honest (shown_nil True _)
      (by intro req h; cases h)

lemma Calm.nextElement (hc : e.Calm) {array : Ref} (ha : e.heap.Shows True array)
    (depth length index : Nat) (done : List Record) :
    (e.nextElement array depth length index done).Honest := by
  have hrefs : ShownIn e.heap [array] := by simpa [ShownIn] using ha
  unfold Engine.nextElement
  split
  · exact ((hc.push (f := .elements array depth length index done) hrefs rfl).goto _).honest
      hrefs (by intro req h; cases h)
  · exact (hc.goto _).honest (shown_nil True _) (by intro req h; cases h)

/-! ### Collections -/

lemma Guarded.restrict (hg : h.Guarded True) (p : Ref → Bool) : (h.restrict p).Guarded True where
  intrinsic := fun r hr => (hg.intrinsic r hr).restrict
  solid := fun hP r hr o ho => hg.solid hP r hr o (Heap.get?_of_restrict ho).2
  linked := hg.linked.restrict
  traps := fun hP r o ho => hg.traps hP r o (Heap.get?_of_restrict ho).2

/-- What an engine is about to do and its frames may lose all objects that they do not refer
to, as long as stand-ins keep their tokens. -/
lemma Honest.restrict (hh : e.Honest) {p : Ref → Bool}
    (hroots : ∀ r ∈ e.stack.flatMap Frame.refs, p r = true)
    (htokens : ∀ r o s t, p r = true → e.heap.get? r = some o → o.kind = .proxy s t → p t = true)
    (released : List Slot) :
    Honest { e with heap := e.heap.restrict p, released := released } := by
  have hup : Upholds e.heap (e.heap.restrict p) (e.stack.flatMap Frame.refs) :=
    .of_restrict fun r hr _ => hroots r hr
  have hsub : ∀ f ∈ e.stack, ∀ r ∈ f.refs, r ∈ e.stack.flatMap Frame.refs := fun f hf r hr =>
    List.mem_flatMap.2 ⟨f, hf, hr⟩
  exact
    { sound := hh.sound.restrict p
      guarded := Guarded.restrict hh.guarded p
      standIns := hh.standIns.restrict htokens
      frames := fun f hf => hup.safe (hh.frames f hf) (hsub f hf)
      handles := fun r hr => (hh.handles r hr).restrict
      control := fun r hr => (hh.control r hr).restrict
      asking := fun req hreq => by
        obtain ⟨slot, name, held, rest, rfl, hs, hb⟩ := hh.asking req hreq
        refine ⟨slot, name, held, rest, rfl, hs, hup.backed hb fun r hr => ?_⟩
        refine hsub (.awaiting none held) (by rw [hs]; exact List.mem_cons_self ..) r ?_
        exact List.mem_append_right _ hr
      making := hh.making }

/-- Where a token is kept, its stand-in refers to it. -/
lemma mem_refs_of_proxy {t : Ref} {o : Object} {s : Slot} (hk : o.kind = .proxy s t) :
    t ∈ o.refs :=
  Object.mem_refs.2 (.inr (.inl (by rw [hk]; exact List.mem_singleton_self t)))

lemma Honest.erase (hh : e.Honest) {r : Ref} {o : Object} (hu : e.unreferenced? = some (r, o)) :
    Honest { e with heap := e.heap.erase r } := by
  have hfound := List.find?_some hu
  simp only [isReferenced, Bool.and_eq_true, Bool.not_eq_true', Bool.or_eq_false_iff,
    List.any_eq_false, List.contains_eq_mem, decide_eq_false_iff_not, decide_eq_true_eq] at hfound
  obtain ⟨-, ⟨⟨hcontrol, hheap⟩, hhandles⟩, hstack⟩ := hfound
  rw [Heap.erase_eq_restrict]
  refine hh.restrict (fun s hs => ?_) (fun s o slot t _ hg hk => ?_) e.released
  · obtain ⟨f, hf, hs⟩ := List.mem_flatMap.1 hs
    exact decide_eq_true fun heq => hstack f hf (heq ▸ hs)
  · exact decide_eq_true fun heq => hheap
      (heq ▸ Heap.mem_refs_of_get? hg (mem_refs_of_proxy hk))

lemma mem_reached {r : Ref} (hr : r ∈ e.roots) : e.reached.contains r = true := by
  rw [List.contains_iff_mem]
  exact Heap.subset_reach _ (List.mem_append_right _ hr)

lemma Honest.sweep (hh : e.Honest) : e.sweep.Honest := by
  rw [sweep_eq]
  refine hh.restrict (fun r hr => mem_reached ?_) (fun r o s t hr hg hk => ?_) _
  · exact List.mem_append_left _ (List.mem_append_right _ hr)
  · obtain ⟨q, hq, -⟩ := hh.standIns.token trivial r o s t hg hk
    rw [List.contains_iff_mem] at hr ⊢
    exact Heap.closed_reachable e.heap _ r o t hg hr (mem_refs_of_proxy hk)
      (by rw [hq]; rfl)

/-! ### Stand-ins -/

lemma Frame.Safe.shown {f : Frame} (hs : f.Safe h) (hm : f.isMaking = false) :
    ShownIn h f.refs := by
  cases f with
  | pending work =>
    cases work with
    | standInClass slot token => cases hm
    | entered slot => exact False.elim hs
    | _ => exact hs
  | sending c result held => exact hs.1
  | entry c =>
    intro r hr
    rw [Frame.refs, Control.IsResting.refs hs] at hr
    cases hr
  | _ => exact hs

lemma proxyClass_lt : Intrinsic.classRef .proxy < Intrinsic.count := by decide

/-- What a script finds under the name of the class of stand-ins, where nothing was put in
its place. -/
lemma find_proxy (hg : e.heap.Guarded True) (hi : e.isIntact .proxy = true) :
    e.heap.find Intrinsic.global (.name (Intrinsic.className .proxy)) =
      .property Intrinsic.global (.data (.object (Intrinsic.classRef .proxy))) := by
  unfold isIntact at hi
  cases ho : e.heap.get? Intrinsic.global with
  | none =>
    rw [ho] at hi
    cases hi
  | some o =>
    rw [ho, Option.bind_some] at hi
    split at hi
    · next v hv =>
      obtain rfl := of_decide_eq_true hi
      have hsolid := hg.solid trivial _ Intrinsic.global_lt o ho
      rw [Heap.find, Heap.search, ho]
      dsimp only
      rw [hv]
      cases hk : o.kind with
      | proxy slot token => exact absurd hk (hsolid slot token)
      | _ => rfl
    · cases hi

/-- A stand-in is made of its token. -/
lemma Honest.allocStandIn (hh : e.Honest) {slot : Slot} {token : Ref} {rest : List Frame}
    (hs : e.stack = .pending (.standInClass slot token) :: rest)
    (hm : ∀ f ∈ rest, f.isMaking = false) :
    (giveNew (({ e with stack := rest } : Engine).allocStandIn slot token)).Honest := by
  have hspare : e.heap.Spare True slot token :=
    hh.frames (.pending (.standInClass slot token)) (by rw [hs]; exact List.mem_cons_self ..)
  have hrest : ∀ f ∈ rest, f.Safe e.heap := fun f hf =>
    hh.frames f (by rw [hs]; exact List.mem_cons_of_mem _ hf)
  let o : Object := { kind := .proxy slot token, parent := none, entry := some slot }
  have hkeeps : e.heap.Keeps (e.heap.alloc o).2 := .alloc _ _
  have hup : Upholds e.heap (e.heap.alloc o).2 (rest.flatMap Frame.refs) :=
    { shows := fun r hr => hr.keeps hkeeps
      proxies := fun r _ o s t hg hk => by
        obtain ⟨p, hp, hsort⟩ := hkeeps.get?_sort hh.sound hg
        exact ⟨p, hp, (Object.kind_proxy_congr hsort).2 hk⟩
      -- No frame below refers to a token.
      spare := fun t ht s hst => by
        obtain ⟨f, hf, hr⟩ := List.mem_flatMap.1 ht
        obtain ⟨⟨q, hq, hslot⟩, -⟩ := hst trivial
        have hnone := (((hrest f hf).shown (hm f hf)) t hr trivial).2
        rw [hq] at hnone
        exact absurd (hslot.symm.trans hnone) (by simp) }
  refine Calm.honest ⟨⟨hh.sound.alloc o, hh.guarded.alloc (fun _ => rfl) (by intro l hl; cases hl),
    hh.standIns.allocStandIn hh.sound hspare rfl rfl, fun f hf => ?_, fun r hr => ?_⟩, hm⟩
    (shown_cons.2 ⟨Heap.shows_alloc _ rfl, shown_nil True _⟩) (by intro req h; cases h)
  · exact hup.safe (hrest f hf) fun r hr => List.mem_flatMap.2 ⟨f, hf, hr⟩
  · exact (hh.handles r hr).keeps hkeeps

/-- An engine that is making a stand-in goes on with that. -/
lemma Honest.proceed_of_making (hh : e.Honest) (hi : e.isIntact .proxy = true) {slot : Slot}
    {token : Ref} {rest : List Frame} (hs : e.stack = .pending (.standInClass slot token) :: rest)
    (hm : ∀ f ∈ rest, f.isMaking = false) (hc : e.control.IsLookup) :
    e.proceed.1.Honest ∧ e.proceed.2 = .silent := by
  rcases hc with hc | hc
  · have hproceed : e.proceed = (e.give (.object (Intrinsic.classRef .proxy)), .silent) := by
      simp only [Engine.proceed, hc, Engine.readStep, globalObject, find_proxy hh.guarded hi,
        Engine.giveFound]
    rw [hproceed]
    refine ⟨{ hh with
      control := shown_cons.2 ⟨hh.guarded.intrinsic _ proxyClass_lt, shown_nil True e⟩
      asking := by intro req h; cases h
      making := .inr ⟨slot, token, rest, hs, hm, .inr rfl⟩ }, rfl⟩
  · have hproceed : e.proceed =
        (giveNew (({ e with stack := rest } : Engine).allocStandIn slot token), .silent) := by
      simp only [Engine.proceed, hc, Engine.popWith, hs, Engine.retStep, Engine.pendingStep,
        Engine.takeStandInClass, if_true]
    rw [hproceed]
    exact ⟨hh.allocStandIn hs hm, rfl⟩

/-! ### Steps -/

/-- A step that goes on with an operation makes no dishonest engine of a calm one. -/
lemma Advance.honest {ev : Event} (ha : Advance True e e' ev) (hh : e.Honest)
    (hm : ∀ f ∈ e.stack, f.isMaking = false) : e'.Honest := by
  have hc : e.Calm := ⟨hh.toSteady, hm⟩
  have hcontrol := hh.control
  cases ha with
  | idle => exact hh
  | stops => exact (hc.goto _).honest (shown_nil True _) (by intro req h; cases h)
  | works hin h => exact h.honest hc
  | pops hs hf hentry hin h => exact h.honest (hc.pop hs)
  | element hs hcon hv => exact (hc.goto _).honest hv (by intro req h; cases h)
  | startsArray hcon hr => exact hc.nextElement hr _ _ _ _
  | nextElement hs hcon ha => exact (hc.pop hs).nextElement ha _ _ _ _
  | names hcon hs ho => exact (hc.goto _).honest (shown_nil True _) (by intro req h; cases h)
  | @pins base r handle handles record hbase hin hs hr hi hrecord ho =>
    have hb : base.Calm := by
      rcases hbase with rfl | ⟨f, rest, hs', -, -, rfl⟩
      · exact hc
      · exact hc.pop hs'
    have hheap : base.heap = e.heap := by rcases hbase with rfl | ⟨f, rest, -, -, -, rfl⟩ <;> rfl
    refine Calm.honest { hb with handles := fun s hs' => ?_ } (shown_nil True _)
      (by intro req h; cases h)
    change base.heap.Shows True s
    rw [hheap]
    rcases Handles.mem_values_insert hi hs' with rfl | hs'
    · exact hr
    · exact hh.handles s hs'
  | @sends call result held rest r hs hcon =>
    have hsafe := (hc.top hs).1
    exact (((hc.pop hs).push (f := .awaiting result held) hsafe rfl).goto .idle).honest
      (shown_nil True _) (by intro req h; cases h)
  | asks hcon => exact (hc.goto _).honest (shown_nil True _) (by intro req h; cases h)
  | @finishes c rest r hs hcon =>
    have hrest : c.IsResting := hc.top hs
    refine ((hc.pop hs).goto c).honest ?_ hrest.not_ask
    change Shown True _ c.refs
    rw [hrest.refs]
    exact shown_nil True _
  | @replies result held rest r hs hcon =>
    have hsafe : ShownIn e.heap (Frame.awaiting result held).refs := hc.top hs
    exact (((hc.pop hs).push (f := .accepting r.isError result held) hsafe rfl).goto
      (.convert r)).honest (shown_nil True _) (by intro req h; cases h)
  | fails hs hf hcon =>
    have hpop := hc.pop hs
    exact Calm.honest { hpop with } hcontrol (by dsimp only; rw [hcon]; intro req h; cases h)
  | @takes r hcon =>
    have htakes := takes_convert (P := True) e hc.handles r
    exact (htakes.1.calm hc).withValue htakes.2
  | startsItems hcon =>
    have htakes : Takes True e (e.allocArray []).2 [] :=
      takes_allocOfKind e rfl Intrinsic.arrayParent_lt rfl (by simp)
    exact (htakes.calm hc).nextItem (Heap.shows_alloc _ rfl) _ _
  | @startsStandIn r slot hcon hr =>
    have htakes := takes_allocToken True e slot
    have hcalm := htakes.calm hc
    have hspare := spare_allocToken (P := True) hc.sound hc.standIns slot
    exact
      { hcalm with
        frames := List.forall_mem_cons.2 ⟨hspare, hcalm.frames⟩
        control := shown_cons.2 ⟨hcalm.guarded.intrinsic _ Intrinsic.global_lt, shown_nil True _⟩
        asking := by intro req h; cases h
        making := .inr ⟨slot, (e.allocToken slot).1, _, rfl, hcalm.calm, .inl rfl⟩ }
  | @places array index items rest v hs hcon hv =>
    have hsafe : ShownIn e.heap [array] := hc.top hs
    exact (((hc.pop hs).push (f := .placed array index items) hsafe rfl).goto _).honest
      (shown_append.2 ⟨hsafe, hv⟩) (by intro req h; cases h)
  | @nextItem array index items rest v hs hcon =>
    have hsafe : ShownIn e.heap [array] := hc.top hs
    exact (hc.pop hs).nextItem (hsafe array (List.mem_singleton_self array)) _ _
  | takesClass hs hcon =>
    have hmaking := hm _ (by rw [hs]; exact List.mem_cons_self ..)
    cases hmaking
  | enters hs hcon => exact False.elim (hc.top hs)
  | @begins op f r hcon hb =>
    have hsafe : f.Safe e.heap ∧ f.isMaking = false := by
      cases hb <;> exact ⟨fun r hr => absurd hr List.not_mem_nil, rfl⟩
    exact ((hc.push hsafe.1 hsafe.2).goto _).honest (shown_nil True _) (by intro req h; cases h)
  | releases hcon hr =>
    exact Calm.honest { hc with
      handles := fun s hs => hh.handles s (Handles.mem_values_remove hr hs) } (shown_nil True _)
      (by intro req h; cases h)
  | collects hcon =>
    have hswept := hh.sweep
    have hcalm : e.sweep.Calm := ⟨hswept.toSteady, hm⟩
    exact (hcalm.goto _).honest (shown_nil True _) (by intro req h; cases h)

/-- **Stand-ins go on standing for host entries**, as long as nothing is in the place of
their class. -/
theorem Honest.step (hh : e.Honest) (hs : e.Shaped) (hi : e.isIntact .proxy = true) :
    e.step.1.Honest := by
  unfold Engine.step
  split
  · exact { hh with }
  · split
    · next r o hu => exact hh.erase hu
    · rcases hh.making with hm | ⟨slot, token, rest, hstack, hm, hc⟩
      · exact (proceed_advance hs hh.sighted).honest hh hm
      · exact (hh.proceed_of_making hi hstack hm hc).1

/-- Whether an event is more than a report. -/
def Event.isTurn : Event → Bool
  | .request _ | .finished _ => true
  | _ => false

/-- An engine has nothing to let go of. -/
structure Clean (e : Engine) : Prop where
  released : e.released = []
  unreferenced : e.unreferenced? = none

/-- An engine turns to the host only where it has nothing to let go of. -/
lemma step_eq_proceed (he : e.step.2.isTurn = true) : e.Clean ∧ e.step = e.proceed := by
  have hreport : ∀ slot, (e.reportSlot slot).isTurn = false := fun slot => by
    unfold reportSlot
    split <;> rfl
  unfold Engine.step at he ⊢
  cases hr : e.released with
  | cons slot rest =>
    rw [hr] at he
    exact absurd he (by simp [hreport])
  | nil =>
    rw [hr] at he
    cases hu : e.unreferenced? with
    | none => exact ⟨⟨hr, hu⟩, rfl⟩
    | some x =>
      rw [hu] at he
      obtain ⟨r, o⟩ := x
      dsimp only at he
      cases hslot : o.slot? with
      | none =>
        rw [hslot] at he
        cases he
      | some slot =>
        rw [hslot, Option.elim_some, hreport] at he
        cases he

/-- The slot of the entry that a request is for. -/
def Request.slot : Request → Slot
  | .get slot _ => slot
  | .set slot _ _ => slot
  | .invoke slot _ => slot

lemma Call.slot_request (c : Engine.Call) (r : Record) : (c.request r).slot = c.slot := by
  cases c <;> rfl

/-- A stand-in for the host entry at a slot. -/
def HasStandIn (e : Engine) (slot : Slot) : Prop :=
  ∃ r o t, e.heap.get? r = some o ∧ o.kind = .proxy slot t

/-- **A request is made for an entry that has a stand-in.** -/
theorem Honest.hasStandIn_of_request (hh : e.Honest) (hs : e.Shaped)
    (hi : e.isIntact .proxy = true) {req : Request} (he : e.step.2 = .request req) :
    e.HasStandIn req.slot := by
  have hbacked : ∀ {slot : Slot} {held : List Ref}, Backed True e.heap slot held →
      e.HasStandIn slot := fun hb => by
    obtain ⟨r, -, o, t, hg, hk⟩ := hb trivial
    exact ⟨r, o, t, hg, hk⟩
  have hstep := (step_eq_proceed (by rw [he]; rfl)).2
  rw [hstep] at he
  rcases hh.making with hm | ⟨slot, token, rest, hstack, hm, hc⟩
  · have hadvance := proceed_advance hs hh.sighted
    rw [he] at hadvance
    generalize e.proceed.1 = e' at hadvance ⊢
    cases hadvance with
    | @sends c result held rest r hstack hc =>
      rw [Call.slot_request]
      have hsafe := hh.frames (.sending c result held) (by rw [hstack]; exact List.mem_cons_self ..)
      exact hbacked hsafe.2
    | asks hc =>
      obtain ⟨slot, name, held, rest, rfl, -, hb⟩ := hh.asking _ hc
      exact hbacked hb
  · rw [(hh.proceed_of_making hi hstack hm hc).2] at he
    cases he

/-! ### Starting -/

/-- What is always there has nothing to do with a host entry and refers to nothing else. -/
lemma plain_of_mem_initial : ∀ x ∈ Heap.initial.objects, x.1 < Intrinsic.count ∧
    (x.2.kind.isPlain = true ∧ x.2.entry = none) ∧ ∀ l ∈ x.2.links, l < Intrinsic.count := by
  decide +kernel

lemma sound_initial : Heap.initial.Sound where
  nodup := by decide +kernel
  lt_next := fun r hr => by
    obtain ⟨x, hx, rfl⟩ := List.mem_map.1 hr
    exact (plain_of_mem_initial x hx).1

lemma clean_start (maxDepth maxLength : Nat) (maxCalls : Option Nat) :
    (start maxDepth maxLength maxCalls).Clean where
  released := rfl
  unreferenced := by
    refine List.find?_eq_none.2 fun x hx => ?_
    have hlt := (plain_of_mem_initial x hx).1
    simp [isIntrinsic, hlt]

lemma honest_start (maxDepth maxLength : Nat) (maxCalls : Option Nat) :
    (start maxDepth maxLength maxCalls).Honest := by
  have hplain : ∀ r o, Heap.initial.get? r = some o →
      o.IsPlain ∧ ∀ l ∈ o.links, l < Intrinsic.count := fun r o ho =>
    (plain_of_mem_initial (r, o) (Heap.mem_of_get? ho)).2
  have hshows : ∀ r < Intrinsic.count, Heap.initial.Shows True r := fun r hr _ => by
    refine ⟨hr, ?_⟩
    cases ho : Heap.initial.get? r with
    | none => rfl
    | some o => exact (hplain r o ho).1.isInert.slot
  refine Calm.honest ⟨⟨sound_initial, ⟨hshows, fun _ r _ o ho => ?_, fun r o ho l hl => ?_,
    fun _ r o ho => Heap.isTrap_of_isPlain (hplain r o ho).1⟩, ⟨fun _ r o s ho he => ?_,
    fun _ r o s t ho hk => ?_, fun _ r o s t ho hk => ?_, fun _ r r' o o' s s' t ho hk => ?_⟩,
    by simp [start], shown_nil True _⟩, by simp [start]⟩ (shown_nil True _)
      (by intro req h; cases h)
  · exact (hplain r o ho).1.isInert.kind
  · exact hshows l ((hplain r o ho).2 l hl)
  · rw [(hplain r o ho).1.2] at he
    cases he
  · exact absurd hk ((hplain r o ho).1.isInert.kind s t)
  · exact absurd hk ((hplain r o ho).1.isInert.kind s t)
  · exact absurd hk ((hplain r o ho).1.isInert.kind s t)

/-! ### Entering -/

lemma Honest.enter (hh : e.Honest) (hc : e.control.IsResting) {op : Operation} :
    (e.enter op).Honest := by
  have hm : ∀ f ∈ e.stack, f.isMaking = false := by
    rcases hh.making with hm | ⟨slot, token, rest, -, -, hlookup⟩
    · exact hm
    · exact absurd hlookup hc.not_lookup
  have hcalm : e.Calm := ⟨hh.toSteady, hm⟩
  exact ((hcalm.push (f := .entry e.control) hc rfl).goto (.begin op)).honest (shown_nil True _)
    (by intro req h; cases h)

lemma Honest.answer (hh : e.Honest) (hc : e.control.IsResting) (r : Record) :
    (e.answer r).Honest := by
  have hm : ∀ f ∈ e.stack, f.isMaking = false := by
    rcases hh.making with hm | ⟨slot, token, rest, -, -, hlookup⟩
    · exact hm
    · exact absurd hlookup hc.not_lookup
  have hcalm : e.Calm := ⟨hh.toSteady, hm⟩
  exact (hcalm.goto _).honest (shown_nil True _) (by intro req h; cases h)

end Engine

end ScriptBridge
