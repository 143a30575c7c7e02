/-
# Values that script assigns

Script assigns a value to a property of a host object.  The value becomes a record, the record is
decoded, and host code gets what it stands for.  Where the setter of the property stores what it
gets, a field of the object then has it.
-/
import ScriptBridge.Proofs.Bridge.Delivery
import ScriptBridge.Proofs.Engine.HostProperty
import ScriptBridge.Proofs.Host.Registrations
import ScriptBridge.Proofs.Session.AtWork
import ScriptBridge.Proofs.Session.Borrowing
import ScriptBridge.Proofs.Session.Ownership

namespace ScriptBridge.Session

open ScriptBridge.Bridge ScriptBridge.Host ScriptBridge.Script ScriptBridge.Table ScriptBridge.Wire

variable {s s' t : Session} {b n type : Nat} {e e' : Engine} {a : Arena Entry} {q : List Slot}
  {o : HostObject} {v : HostValue} {r : Record} {slot : Slot} {name field : String}
  {setter : Action} {crossing : Crossing} {types : List HostType} {setups : List Setup}
  {hist older : List Session}

/-! ### Scripts at work -/

/-- A script of an operation is at work in the engine of a bridge. -/
structure Scripting (s : Session) (b : Nat) (e : Engine) (a : Arena Entry) : Prop where
  control : s.control = .engine b
  core : ∃ q, s.core? b = some ⟨some e, a, q⟩
  frames : ∃ p rest, s.frames = .running b p :: rest ∧ p ≠ .nothing

namespace Scripting

lemma side (hs : s.Scripting b e a) : ∃ x, s.side? b = some x ∧ x.engine = e ∧ x.arena = a := by
  obtain ⟨q, hcore⟩ := hs.core
  exact ⟨_, side?_of_core? hcore, rfl, rfl⟩

lemma accounted (hs : s.Scripting b e a) (h : History types setups (s :: older)) :
    ∃ x, s.side? b = some x ∧ x.engine = e ∧ x.arena = a ∧ x.Accounted := by
  obtain ⟨x, hx, he, ha⟩ := hs.side
  exact ⟨x, hx, he, ha, h.accounted (List.mem_cons_self ..) hx⟩

lemma tidy?_eq_none (hs : s.Scripting b e a) (h : History types setups (s :: older)) :
    s.tidy? = none := by
  obtain ⟨x, hx, -⟩ := hs.side
  obtain ⟨p, rest, hf, hp⟩ := hs.frames
  exact h.tidy?_eq_none hx hs.control hf hp

/-- Script goes on within its operation as long as its engine does by itself. -/
lemma exists_driven (hs : s.Scripting b e a) (h : History types setups (s :: older))
    (hruns : Engine.Runs e e') :
    ∃ t, Proceeds s t ∧ Drives s t ∧ t.Scripting b e' a ∧ t.tidy? = none := by
  obtain ⟨x, hx, rfl, rfl, hacc⟩ := hs.accounted h
  obtain ⟨p, rest, hf, hp⟩ := hs.frames
  obtain ⟨t, q', hproceeds, hdrives, hcore⟩ := drives_runs hruns.always hs.control
    (inCall_of_running hx hacc hs.control hf hp) (side?_eq_some.1 hx).1
  exact ⟨t, hproceeds.proceeds, hdrives, ⟨hdrives.control.trans hs.control, ⟨q', hcore⟩, p, rest,
    hdrives.frames.trans hf, hp⟩, (hdrives.broadens hs.control).tidy? (hs.tidy?_eq_none h)⟩

end Scripting

/-! ### Requests that are served -/

/-- A request of an engine has been counted, and the type of an object has been described. -/
def served (s : Session) (b : Nat) (e : Engine) (crossing : Crossing) (type : Nat) : Session :=
  ((s.updateBridge b ({ · with engine := some e })).record b crossing).updateBridge b
    (·.describe type)

lemma drives_served : Drives s (s.served b e crossing type) := by
  have hdescribe : ∀ br : Bridge, (br.describe type).stage = br.stage ∧
      (br.describe type).arena = br.arena := fun br => by
    unfold Bridge.describe
    split <;> exact ⟨rfl, rfl⟩
  have hengine : Drives s (s.updateBridge b ({ · with engine := some e })) :=
    drives_updateBridge (fun _ => rfl) fun _ => rfl
  have hrecord : Drives (s.updateBridge b ({ · with engine := some e }))
      ((s.updateBridge b ({ · with engine := some e })).record b crossing) :=
    drives_updateBridge (fun _ => rfl) fun _ => rfl
  exact (hengine.trans hrecord).trans
    (drives_updateBridge (fun br => (hdescribe br).1) fun br => (hdescribe br).2)

lemma core?_served (hcore : s.core? b = some ⟨some e, a, q⟩) :
    (s.served b e' crossing type).core? b = some ⟨some e', a, q⟩ := by
  rw [served, (same_describe _ b type).core, (same_record _ b crossing).core,
    core?_updateBridge (g := fun k => { k with engine := some e' }) (fun _ => rfl),
      if_pos rfl, hcore]
  rfl

/-- Serving a request puts something on top of what is still to be done, and keeps all that was
referred to. -/
lemma broadens_served (hc : s.control = .engine b) {f : Frame} (hf : f.bridge? = some b)
    (ctl : Control) : Broadens s (((s.served b e crossing type).push f).goto ctl) := by
  have hdrives : Drives s (s.served b e crossing type) := drives_served
  refine .of_frames (g := []) (l := [f]) (hdrives.widens.trans (.of_bridges rfl)) hdrives.leases
    hdrives.objects hdrives.registers rfl rfl nofun ?_ ?_
  · rw [hc]
    exact nofun
  · rintro c (hc' | ⟨f', hf', -⟩)
    · rw [hc] at hc'
      cases hc'
      simp [uses, push, goto, hf]
    · cases hf'

/-- Script assigns a property of an object that has a setter. -/
lemma engineStep_set (he : s.engine? b = some e)
    (hstep : e.step = (e', .request (.set slot name r)))
    (ho : s.entryOf? b slot = some (.object o))
    (hset : (s.typeOf o).description.setter name = some setter) :
    s.engineStep b = ((s.served b e' .setProperty o.type).push (.assignee b o setter)).goto
      (.decode b r) := by
  have hset' : ((s.served b e' .setProperty o.type).typeOf o).description.setter name =
      some setter := hset
  rw [engineStep_request he (congrArg Prod.snd hstep), hstep, serve, ← asked, writeProperty,
    entryOf?_asked, ho]
  dsimp only
  rw [asked, ← served, hset']

/-- Script reads a property of an object that has a getter and that nobody is changing. -/
lemma engineStep_read {g : Getter} (he : s.engine? b = some e)
    (hstep : e.step = (e', .request (.get slot name)))
    (ho : s.entryOf? b slot = some (.object o))
    (hget : (s.typeOf o).description.getter name = some g) (hfree : s.isWriting o = false) :
    s.engineStep b = ((s.served b e' .getProperty o.type).push (.getting b o g.fallible)).goto
      (.act g.action ⟨o, [], .null⟩) := by
  have hget' : ((s.served b e' .getProperty o.type).typeOf o).description.getter name = some g :=
    hget
  have hfree' : (s.served b e' .getProperty o.type).isWriting o = false := hfree
  rw [engineStep_get he (congrArg Prod.snd hstep) ho, hstep, readObject]
  dsimp only
  rw [asked, ← served, hget']
  dsimp only
  rw [hfree', if_neg Bool.false_ne_true]

/-! ### Host code that gets the value -/

/-- Leases of values that are referred to are entered, and nothing is to be let go of. -/
lemma tidy?_enter (ht : s.tidy? = none) {fs : List ForeignObject}
    (hfs : fs ⊆ HostValue.foreignsOf s.values) :
    ({ s with leases := s.leases ++ fs } : Session).tidy? = none := by
  obtain ⟨habandoned, hunused, hlease, hobject⟩ := tidy?_eq_none.1 ht
  refine tidy?_eq_none.2 ⟨habandoned, hunused, List.find?_eq_none.2 fun f hf => ?_, hobject⟩
  rcases List.mem_append.1 hf with hf | hf
  · exact List.find?_eq_none.1 hlease f hf
  · rw [Bool.not_eq_true', Bool.not_eq_false]
    exact List.any_eq_true.2 ⟨f, hfs hf, beq_self_eq_true _⟩

/-- A record that leaves nothing to do stands for a value, whose leases are entered. -/
lemma step_entered {heard : List Heard} (hc : s.control = .perform b [] heard (.ok v))
    (huses : s.frames.any (fun f => decide (f.bridge? = some b)) = true) (ht : s.tidy? = none) :
    s.step? = some { s with leases := s.leases ++ v.foreigns, control := .done (.ok v) } ∧
      ({ s with leases := s.leases ++ v.foreigns, control := .done (.ok v) } : Session).tidy? =
        none := by
  let u : Session := { s with control := .done (.ok v) }
  have hbroadens : Broadens s u := by
    refine .of_frames (g := []) (l := []) (.of_bridges rfl) rfl rfl rfl rfl rfl (by simp) ?_ ?_
    · rw [hc]
      exact List.Subset.refl _
    · rintro c (hc' | ⟨f, hf, -⟩)
      · rw [hc] at hc'
        cases hc'
        rw [Session.uses, Bool.or_eq_true]
        exact .inr huses
      · cases hf
  have hvalues : ∀ leases, HostValue.referencesOf s.values ⊆
      HostValue.referencesOf ({ u with leases := leases } : Session).values :=
    fun _ => hbroadens.references
  refine ⟨step?_of_lettingGo (by simp [hc]) ht (by rw [proceed?, hc]; rfl)
    (lettingGo_of_subset (hvalues _)), tidy?_enter (s := u) (hbroadens.tidy? ht) fun f hf => ?_⟩
  exact HostValue.mem_foreignsOf.2 ⟨v, List.mem_append_left _ (List.mem_append_left _
    (List.mem_append_left _ (List.mem_append_left _ (List.mem_singleton_self v)))), hf⟩

/-- **The setter of a property gets the value that script assigns**, unless the object is in use. -/
lemma exists_setting (hc : s.control = .engine b) (ht : s.tidy? = none)
    (hcore : s.core? b = some ⟨some e, a, q⟩) (hstep : e.step = (e', .request (.set slot name r)))
    (ho : a.get? slot = some (.object o))
    (hset : (s.typeOf o).description.setter name = some setter) (hfree : s.isBorrowed o = false)
    (hdecode : decode b a s.nextLease r = ⟨.ok v, [], n⟩) :
    ∃ t, Proceeds s t ∧ t.control = .act setter ⟨o, [], v⟩ ∧
      t.frames = .setting b o v :: s.frames ∧ t.core? b = some ⟨some e', a, q⟩ ∧
      t.nextLease = n ∧ t.objects = s.objects ∧ t.tidy? = none := by
  have hdrives : Drives s (s.served b e' .setProperty o.type) := drives_served
  -- The record is decoded once there is a setter.
  let s₁ : Session := ((s.served b e' .setProperty o.type).push (.assignee b o setter)).goto
    (.decode b r)
  have hstep₁ : s.step? = some s₁ := by
    rw [step?, hc]
    exact congrArg some (engineStep_set (engine?_of_core? hcore) hstep
      ((entryOf?_of_core? hcore slot).trans ho) hset)
  have ht₁ : s₁.tidy? = none := (broadens_served hc rfl _).tidy? ht
  have hcore₁ : s₁.core? b = some ⟨some e', a, q⟩ := core?_served hcore
  obtain ⟨hstep₂, hbroadens₂⟩ := step_decoded (s := s₁) rfl ht₁ hcore₁
    ((congrArg (decode b a · r) hdrives.nextLease).trans hdecode)
  let s₂ : Session := { s₁ with nextLease := n, control := .perform b [] [] (.ok v) }
  obtain ⟨hstep₃, ht₃⟩ := step_entered (s := s₂) rfl
    (List.any_eq_true.2 ⟨.assignee b o setter, List.mem_cons_self .., decide_eq_true rfl⟩)
    (hbroadens₂.tidy? ht₁)
  let s₃ : Session := { s₂ with leases := s₂.leases ++ v.foreigns, control := .done (.ok v) }
  -- The setter starts.
  let t : Session := ({ s₃ with frames := s.frames }.push (.setting b o v)).goto
    (.act setter ⟨o, [], v⟩)
  have hfree' : ({ s₃ with frames := s.frames } : Session).isBorrowed o = false := hfree
  have hchange : ({ s₃ with frames := s.frames } : Session).doneStep (.assignee b o setter)
      (.ok v) = t := by
    change ({ s₃ with frames := s.frames } : Session).change b o (.setting b o v) setter
      ⟨o, [], v⟩ = t
    rw [change, hfree', if_neg Bool.false_ne_true]
  have hframes₃ : s₃.frames = .assignee b o setter :: s.frames :=
    congrArg (List.cons (Frame.assignee b o setter)) hdrives.frames
  have hbroadens₄ : Broadens s₃ t := by
    refine .of_frames (g := [.assignee b o setter]) (l := [.setting b o v]) (.of_bridges rfl) rfl
      rfl rfl hframes₃ rfl (List.forall_mem_singleton.2 fun _ => rfl) ?_ ?_
    · intro w hw
      simp only [s₃, t, goto, Control.values, outcomeValues, Scene.values, Frame.values,
        List.flatMap_cons, List.flatMap_nil, List.mem_append, List.mem_cons] at hw ⊢
      tauto
    · rintro c (hc' | ⟨f, hf, hfc⟩)
      · cases hc'
      · obtain rfl := List.mem_singleton.1 hf
        cases hfc
        simp [uses, t, push, goto, Frame.bridge?]
  have hstep₄ : s₃.step? = some t := hbroadens₄.step? (by simp) ht₃ (by
    rw [proceed?_of_done rfl hframes₃ (by simp)]
    exact congrArg some hchange)
  exact ⟨t, .head hstep₁ (.head hstep₂ (.head hstep₃ (.single hstep₄))), rfl, rfl, hcore₁, rfl,
    hdrives.objects, hbroadens₄.tidy? ht₃⟩

/-! ### What a field has -/

/-- A field of an object that is there has what is stored in it. -/
lemma lookup_storeField (ho : (s.state? o).isSome) :
    ((s.storeField o field v).fieldsOf o).lookup field = some v := by
  obtain ⟨st, hst⟩ := Option.isSome_iff_exists.1 ho
  have hfound : s.objects.find? (fun st => st.object.same o) = some st := hst
  have hsame := List.find?_some (p := fun st : HostState => st.object.same o) hfound
  have hstate : (s.storeField o field v).state? o =
      some { st with fields := put st.fields field v } := by
    change List.find? _ (List.map _ s.objects) = _
    rw [List.find?_map, show ((fun st : HostState => st.object.same o) ∘ fun st : HostState =>
      if st.object.same o then { st with fields := put st.fields field v } else st) =
        fun st => st.object.same o from funext fun st => by
          rw [Function.comp_apply]
          split <;> rfl, hfound, Option.map_some, if_pos hsame]
  rw [fieldsOf, hstate]
  exact (lookup_alter ..).trans (if_pos rfl)

/-! ### Values that are kept -/

/-- An object is a stand-in of a host object. -/
def StandsFor (e : Engine) (a : Arena Entry) (p : Ref) (o : HostObject) : Prop :=
  ∃ i slot token, e.heap.get? p = some i ∧ i.kind = .proxy slot token ∧
    a.get? slot = some (.object o)

/-- Script is about to assign a value to a property of a host object that is not in use, and the
setter stores the value in a field. -/
structure Assigning (s : Session) (b : Nat) (e : Engine) (a : Arena Entry) (o : HostObject)
    (field : String) (w : Value) : Prop extends s.Scripting b e a where
  writes : ∃ p key name, e.control = .write (.object p) key w ∧ StandsFor e a p o ∧
    key.text? = some name ∧ (s.typeOf o).description.setter name = some (.storeValue field .any)
  free : s.isBorrowed o = false
  present : (s.state? o).isSome

/-- A value consists of what can go to the host: its arrays and strings are not too long nor nested
too deep, its script objects go there as themselves and get handles, and all it has of the host are
host objects. -/
structure Sendable (e : Engine) (a : Arena Entry) (w : Value) (c : Content) : Prop where
  means : Engine.Means e.heap w c
  fits : c.Fits e.maxLength e.maxDepth
  stays : ∀ p ∈ c.objects, e.StaysPut p
  stocked : Stocked a c.leaves
  room : (e.handles.enterAll c.objects).isSome

/-- A field of an object has what a value consists of, and the leases in it are not new. -/
structure HasStored (s : Session) (b : Nat) (a : Arena Entry) (o : HostObject) (field : String)
    (c : Content) (v : HostValue) : Prop where
  core : ∃ e q, s.core? b = some ⟨some e, a, q⟩ ∧ Delivers b a e.handles c v
  field : (s.fieldsOf o).lookup field = some v
  leases : ∀ f ∈ v.foreigns, f.lease < s.nextLease

/-- **A value that script assigns is kept** by a property whose setter stores it. -/
theorem exists_kept (h : History types setups (s :: older)) {w : Value} {c : Content}
    (hs : s.Assigning b e a o field w) (hw : Sendable e a w c) :
    ∃ s₁ v, Proceeds s s₁ ∧ s₁.HasStored b a o field c v := by
  obtain ⟨x, hx, rfl, rfl, hacc⟩ := hs.accounted h
  obtain ⟨p, key, name, hcontrol, ⟨i, slot, token, hi, hk, ho⟩, hkey, hset⟩ := hs.writes
  obtain ⟨t, hroom⟩ := Option.isSome_iff_exists.1 hw.room
  -- The value becomes a record, which stands for a host value.
  obtain ⟨heap, r, hspells, hruns, hclean⟩ := Engine.exists_sent hcontrol hacc.sound
    hacc.connected hi hk hkey hw.means hw.stays hw.fits (h.owns (List.mem_cons_self ..) hx).indexed
    hroom
  obtain ⟨s₁, hproceeds₁, hdrives₁, hs₁, ht₁⟩ := hs.exists_driven h hruns
  obtain ⟨q₁, hcore₁⟩ := hs₁.core
  obtain ⟨v, n, hdecode, hdelivers⟩ := decode_of_spells (b := b) hspells hw.fits hw.stocked
    s₁.nextLease
  -- The setter gets it, and stores it.
  have hfree₁ : s₁.isBorrowed o = false := by
    have hfree := hs.free
    rw [isBorrowed, isWriting] at hfree ⊢
    rwa [hdrives₁.frames]
  have hset₁ : (s₁.typeOf o).description.setter name = some (.storeValue field .any) := by
    rwa [typeOf, hdrives₁.types]
  obtain ⟨s₂, hproceeds₂, hc₂, -, hcore₂, hnext₂, hobjects₂, ht₂⟩ := exists_setting hs₁.control ht₁
    hcore₁ (hclean.step_eq.trans rfl) ho hset₁ hfree₁ hdecode
  have hstore : s₂.proceed? = some (s₂.storeField o field v).finish := by
    rw [proceed?, hc₂]
    rfl
  have hstep : s₂.step? = some (s₂.lettingGo (s₂.storeField o field v).finish) := by
    rw [Session.step?, hc₂, ht₂, hstore]
    rfl
  refine ⟨_, v, hproceeds₁.trans (hproceeds₂.trans (.single hstep)), ?_⟩
  have hstored : (s₂.storeField o field v).finish.HasStored b x.arena o field c v := by
    refine ⟨⟨_, q₁, hcore₂, hdelivers⟩, lookup_storeField ?_, fun f hf => ?_⟩
    · rw [state?, hobjects₂, hdrives₁.objects]
      exact hs.present
    · have hnumbered := numbered_decode b x.arena s₁.nextLease r
      rw [hdecode] at hnumbered
      exact Nat.lt_of_lt_of_eq (hnumbered.bounds f (by rwa [foreignsOfResult_ok])).2 hnext₂.symm
  rcases lettingGo_cases s₂ (s₂.storeField o field v).finish with heq | ⟨vs, heq⟩ <;> rw [heq]
  · exact hstored
  · exact ⟨hstored.core, hstored.field, hstored.leases⟩

end ScriptBridge.Session
