/-
# Values that come back to script

Script reads a property of a host object whose getter gives what a field has.  Where script has
assigned the value that the field has, it gets back what it assigned, whatever has happened
meanwhile: equal scalars, the same script objects, stand-ins of the same host objects, and copies
of arrays.
-/
import ScriptBridge.Proofs.Session.Assignment
import ScriptBridge.Proofs.Session.Storage

namespace ScriptBridge

open ScriptBridge.Bridge ScriptBridge.Host ScriptBridge.Script ScriptBridge.Table ScriptBridge.Wire

namespace Session

variable {s s' t u : Session} {b n : Nat} {e e' : Engine} {a a' : Arena Entry} {q : List Slot}
  {o : HostObject} {v : HostValue} {r : Record} {slot : Slot} {name field : String} {g : Getter}
  {w : Value} {c : Content} {f : ForeignObject} {types : List HostType} {setups : List Setup}
  {hist older newer : List Session}

/-! ### Fields that are read -/

/-- What the field of an object has is referred to. -/
lemma mem_values_of_field (hv : (s.fieldsOf o).lookup field = some v) : v ∈ s.values := by
  have hfields : v ∈ s.objects.flatMap fun st => st.fields.map Prod.snd := by
    rw [fieldsOf] at hv
    cases hst : s.state? o with
    | none =>
      rw [hst] at hv
      cases hv
    | some st =>
      rw [hst] at hv
      obtain ⟨l₁, l₂, heq, -⟩ := List.lookup_eq_some_iff.1 hv
      refine List.mem_flatMap.2 ⟨st, List.mem_of_find?_eq_some hst, ?_⟩
      rw [show st.fields = _ from heq]
      exact List.mem_map_of_mem (List.mem_append_right _ (List.mem_cons_self ..))
  simp only [values, List.mem_append]
  exact .inl (.inr hfields)

/-- The object at a slot is referred to. -/
lemma mem_values_of_slot (hcore : s.core? b = some ⟨some e, a, q⟩) (hregular : a.IsRegular)
    (ho : a.get? slot = some (.object o)) : .object o ∈ s.values := by
  obtain ⟨br, hbr, hcores⟩ := bridge?_of_core? hcore
  have harena : br.arena = a := congrArg Core.arena hcores
  have hentry : .object o ∈ arenaValues br := by
    rw [arenaValues, harena]
    exact List.mem_map_of_mem (List.mem_filterMap.2
      ⟨.object o, (Arena.mem_values hregular).2 ⟨slot, ho⟩, rfl⟩)
  simp only [values, List.mem_append]
  exact .inr (List.mem_flatMap.2 ⟨br, List.mem_of_getElem? hbr, hentry⟩)

/-- **The getter of a property gives what a field has.** -/
lemma exists_given (hc : s.control = .engine b) (ht : s.tidy? = none)
    (hcore : s.core? b = some ⟨some e, a, q⟩) (hregular : a.IsRegular)
    (hstep : e.step = (e', .request (.get slot name))) (ho : a.get? slot = some (.object o))
    (hget : (s.typeOf o).description.getter name = some g) (hg : g.action = .field field)
    (hfree : s.isWriting o = false) (hv : (s.fieldsOf o).lookup field = some v) :
    ∃ t, Proceeds s t ∧ t.control = .respond b (.ok v) ∧ t.frames = s.frames ∧
      t.core? b = some ⟨some e', a, q⟩ ∧ t.objects = s.objects ∧ t.tidy? = none := by
  have hdrives : Drives s (s.served b e' .getProperty o.type) := drives_served
  have hcore₀ : (s.served b e' .getProperty o.type).core? b = some ⟨some e', a, q⟩ :=
    core?_served hcore
  -- The getter starts.
  let s₁ : Session := ((s.served b e' .getProperty o.type).push (.getting b o g.fallible)).goto
    (.act g.action ⟨o, [], .null⟩)
  have hstep₁ : s.step? = some s₁ := by
    rw [step?, hc]
    exact congrArg some (engineStep_read (engine?_of_core? hcore) hstep
      ((entryOf?_of_core? hcore slot).trans ho) hget hfree)
  have ht₁ : s₁.tidy? = none := (broadens_served hc rfl _).tidy? ht
  have hfields₁ : (s₁.fieldsOf o).lookup field = some v := by
    rw [fieldsOf, state?, show s₁.objects = s.objects from hdrives.objects]
    exact hv
  -- It gives what the field has.
  let s₂ : Session := s₁.give v
  have hact : s₁.actStep g.action ⟨o, [], .null⟩ = s₂ := by
    rw [hg, actStep, hfields₁]
    rfl
  have hbroadens₂ : Broadens s₁ s₂ := by
    refine .of_references (g := []) (l := []) (.of_bridges rfl) rfl rfl rfl rfl rfl (by simp)
      (HostValue.referencesOf_subset fun x hx => ?_) ?_
    · rcases List.mem_cons.1 hx with rfl | hx
      · exact .inr (mem_values_of_slot (s := s₂) hcore₀ hregular ho)
      · obtain rfl := List.mem_singleton.1 hx
        exact .inl rfl
    · rintro c (hc' | ⟨f, hf, -⟩)
      · cases hc'
      · cases hf
  have hstep₂ : s₁.step? = some s₂ := hbroadens₂.step? (by rintro _ ⟨⟩) ht₁ (congrArg some hact)
  -- The value is handed to script.
  let t : Session := { s₂ with frames := s.frames, control := .respond b (.ok v) }
  have hframes₂ : s₂.frames = .getting b o g.fallible :: s.frames :=
    congrArg (List.cons (Frame.getting b o g.fallible)) hdrives.frames
  have hdone : ({ s₂ with frames := s.frames } : Session).doneStep (.getting b o g.fallible)
      (.ok v) = t := by
    unfold doneStep getterResult
    cases g.fallible <;> rfl
  have hbroadens₃ : Broadens s₂ t := by
    refine .of_references (g := [.getting b o g.fallible]) (l := []) (.of_bridges rfl) rfl rfl rfl
      hframes₂ rfl (List.forall_mem_singleton.2 fun _ => rfl)
      (HostValue.referencesOf_subset fun x hx => .inr ?_) ?_
    · rcases List.mem_cons.1 hx with rfl | hx
      · exact mem_values_of_field (s := t) hfields₁
      · obtain rfl := List.mem_singleton.1 hx
        exact mem_values_of_slot (s := t) hcore₀ hregular ho
    · rintro c (hc' | ⟨f, hf, hfc⟩)
      · cases hc'
      · obtain rfl := List.mem_singleton.1 hf
        cases hfc
        simp [uses, t, Control.bridge?]
  have ht₂ := hbroadens₂.tidy? ht₁
  have hstep₃ : s₂.step? = some t := hbroadens₃.step? (by rintro _ ⟨⟩) ht₂ (by
    rw [proceed?_of_done rfl hframes₂ (by simp)]
    exact congrArg some hdone)
  exact ⟨t, .head hstep₁ (.head hstep₂ (.single hstep₃)), rfl, rfl, hcore₀, hdrives.objects,
    hbroadens₃.tidy? ht₂⟩

/-- What a field has becomes a record, and the engine gets that. -/
lemma exists_answered (hc : s.control = .respond b (.ok v)) (ht : s.tidy? = none)
    (hcore : s.core? b = some ⟨some e, a, q⟩) (hregular : a.IsRegular)
    (hv : (s.fieldsOf o).lookup field = some v) (hencode : encode b a v = (.ok r, a')) :
    ∃ t, Proceeds s t ∧ t.control = .engine b ∧ t.frames = s.frames ∧
      t.core? b = some ⟨some (e.answer r), a', q⟩ := by
  have hmints := mints_encode b a v
  rw [hencode] at hmints
  obtain ⟨br, hbr, hcores⟩ := bridge?_of_core? hcore
  obtain ⟨hengine, harena, -⟩ : br.engine = some e ∧ br.arena = a ∧ br.deferred = q := by
    simpa [Bridge.core] using hcores
  let s₁ : Session := (s.updateBridge b ({ · with arena := a' })).goto (.answer b (.ok r))
  have hrespond : s.respondStep b (.ok v) = s₁ := by
    unfold respondStep
    dsimp only
    rw [hbr]
    dsimp only
    rw [harena, hencode]
    rfl
  have hbroadens₁ : Broadens s s₁ := by
    have hwidens : Widens s (s.updateBridge b ({ · with arena := a' })) :=
      .updateBridge (fun _ => rfl) fun br' hbr' => by
        obtain rfl := Option.some.inj (hbr.symm.trans hbr')
        rw [harena]
        exact hmints.values_subset hregular
    refine .of_references (g := []) (l := []) (hwidens.trans (.of_bridges rfl)) rfl rfl rfl rfl rfl
      (by simp) (HostValue.referencesOf_subset fun x hx => .inr ?_) ?_
    · rw [hc] at hx
      obtain rfl := List.mem_singleton.1 hx
      exact mem_values_of_field (s := s₁) hv
    · rintro c (hc' | ⟨f, hf, -⟩)
      · rw [hc] at hc'
        cases hc'
        simp [uses, s₁, goto, Control.bridge?]
      · cases hf
  have hstep₁ : s.step? = some s₁ := hbroadens₁.step? (by simp [hc]) ht (by
    rw [proceed?, hc]
    exact congrArg some hrespond)
  have hcore₁ : s₁.core? b = some ⟨some e, a', q⟩ := by
    change (s.updateBridge b ({ · with arena := a' })).core? b = _
    rw [core?_updateBridge (g := fun k => { k with arena := a' }) (fun _ => rfl), if_pos rfl, hcore]
    rfl
  -- The engine goes on.
  have hstep₂ : s₁.step? = some (s₁.answerStep b (.ok r)) :=
    (broadens_answerStep rfl hcore₁ (hmints.regular hregular)).step? (by rintro _ ⟨⟩)
      (hbroadens₁.tidy? ht) rfl
  have hanswer : s₁.answerStep b (.ok r) = (s₁.updateBridge b fun br =>
      { br with arena := a', engine := br.engine.map (·.answer r) }).goto (.engine b) := by
    obtain ⟨br₁, hbr₁, hcores₁⟩ := bridge?_of_core? hcore₁
    have harena₁ : br₁.arena = a' := congrArg Core.arena hcores₁
    unfold answerStep
    rw [hbr₁]
    dsimp only
    rw [harena₁]
  refine ⟨_, .head hstep₁ (.single hstep₂), ?_, ?_, ?_⟩ <;> rw [hanswer]
  · rfl
  · rfl
  · change (s₁.updateBridge b _).core? b = _
    rw [core?_updateBridge (g := fun k => ⟨k.engine.map (·.answer r), a', k.deferred⟩)
      (fun _ => rfl),
      if_pos rfl, hcore₁]
    rfl

/-! ### Leases over time -/

lemma History.nextLease_le (h : History types setups (u :: newer)) (hs : s ∈ u :: newer) :
    s.nextLease ≤ u.nextLease := by
  generalize heq : u :: newer = hist at h hs
  induction h generalizing u newer with
  | starts =>
    cases heq
    rw [List.mem_singleton.1 hs]
  | goes h hgo ih =>
    cases heq
    rcases List.mem_cons.1 hs with rfl | hs
    · exact Nat.le_refl _
    · exact Nat.le_trans (ih rfl hs) hgo.nextLease_le

/-- A lease that is kept has kept its script object ever since it was made. -/
lemma History.pinned?_since (h : History types setups (u :: newer)) (hs : s ∈ u :: newer)
    (he : (u.engine? b).isSome) (hf : f ∈ u.kept b) (hlt : f.lease < s.nextLease) :
    u.pinned? b f.handle = s.pinned? b f.handle := by
  generalize heq : u :: newer = hist at h hs
  induction h generalizing u newer with
  | starts =>
    cases heq
    rw [List.mem_singleton.1 hs]
  | @goes t u' rest h hgo ih =>
    cases heq
    rcases List.mem_cons.1 hs with rfl | hs
    · rfl
    · obtain ⟨e, he⟩ := Option.isSome_iff_exists.1 he
      obtain ⟨y, hy, -⟩ := side?_isSome_of_engine? he
      obtain ⟨k, x, z, hx, -⟩ := hgo.moves hy
      have hlt' := Nat.lt_of_lt_of_le hlt (h.nextLease_le hs)
      rw [hgo.pinned?_eq h hy hf hlt']
      exact ih (by rw [engine?_of_side? hx]; rfl) (hgo.kept_of_lt hf hlt') rfl hs

/-! ### The way back -/

/-- Script is about to read a property of a host object that nobody is changing, and the getter
gives what a field has. -/
structure Reading (s : Session) (b : Nat) (e : Engine) (a : Arena Entry) (o : HostObject)
    (field : String) : Prop extends s.Scripting b e a where
  reads : ∃ p key name g, e.control = .read (.object p) key ∧ StandsFor e a p o ∧
    key.text? = some name ∧ (s.typeOf o).description.getter name = some g ∧ g.action = .field field
  free : s.isWriting o = false
  shallow : e.isFull = false

/-- What script reads is what it assigned, if the field has that. -/
lemma Reading.exists_returned (h : History types setups (u :: newer)) (hi : Intact b (u :: newer))
    (hu : u.Reading b e a o field) {e₀ : Engine} {a₀ : Arena Entry} {length depth : Nat}
    (hmeans : Engine.Means e₀.heap w c) (hfits : c.Fits length depth)
    (hv : (u.fieldsOf o).lookup field = some v) (hdelivers : Delivers b a₀ e.handles c v)
    (hroom : u.HasRoom b v)
    (helements : (∃ vs, v = .array vs) → ∀ i, e.heap.Yields Intrinsic.arrayParent (.index i)) :
    ∃ u' e' a' w', Proceeds u u' ∧ u'.Scripting b e' a' ∧ u'.frames = u.frames ∧
      e'.control = .ret w' ∧ e'.stack = e.stack ∧ Engine.Alike e₀.heap a₀ e'.heap a' w w' := by
  obtain ⟨x, hx, rfl, rfl⟩ := hu.side
  have hfaithful := h.faithful hi (List.mem_cons_self ..) hx
  obtain ⟨p, key, name, g, hcontrol, ⟨i, slot, token, hp, hk, ho⟩, hkey, hget, hg⟩ := hu.reads
  -- The host is asked, and the getter gives the value.
  obtain ⟨heap, hspares, hruns, hclean⟩ := Engine.exists_asked hcontrol hfaithful.sound
    hfaithful.connected hu.shallow hp hk hkey
  obtain ⟨u₁, hproceeds₁, hdrives₁, hu₁, ht₁⟩ := hu.exists_driven h hruns
  obtain ⟨q₁, hcore₁⟩ := hu₁.core
  have hget₁ : (u₁.typeOf o).description.getter name = some g := by
    rwa [typeOf, hdrives₁.types]
  have hfree₁ : u₁.isWriting o = false := by
    rw [isWriting, hdrives₁.frames]
    exact hu.free
  have hv₁ : (u₁.fieldsOf o).lookup field = some v := by
    rwa [fieldsOf, state?, hdrives₁.objects]
  obtain ⟨u₂, hproceeds₂, hc₂, hf₂, hcore₂, hobjects₂, ht₂⟩ := exists_given hu₁.control ht₁ hcore₁
    hfaithful.regular (hclean.step_eq.trans rfl) ho hget₁ hg hfree₁ hv₁
  have hv₂ : (u₂.fieldsOf o).lookup field = some v := by
    rwa [fieldsOf, state?, hobjects₂]
  -- The value becomes a record, and the engine gets that.
  obtain ⟨br, hbr, hcores⟩ := bridge?_of_core? (side?_eq_some.1 hx).1
  have harena : br.arena = x.arena := congrArg Core.arena hcores
  obtain ⟨r, a', hencode⟩ := hdelivers.exists_encode hfits (harena ▸ hroom br hbr)
  have hrenders := renders_encode b hencode
  obtain ⟨u₃, hproceeds₃, hc₃, hf₃, hcore₃⟩ := exists_answered hc₂ ht₂ hcore₂ hfaithful.regular hv₂
    hencode
  -- The record becomes what is read.
  have hproceeds := hproceeds₁.trans (hproceeds₂.trans hproceeds₃)
  have hframes : u₃.frames = u.frames := hf₃.trans (hf₂.trans hdrives₁.frames)
  have hnames := names_encode b x.arena (congrArg Prod.fst hencode)
  have hadmits : x.engine.Admits r := by
    refine ⟨exists_proxy hfaithful.honest (hi u (List.mem_cons_self ..) _ (engine?_of_side? hx)),
      fun harray => helements ?_⟩
    obtain ⟨items, hitems⟩ := harray
    by_contra hleaf
    exact (hrenders.leaf fun vs heq => hleaf ⟨vs, heq⟩).1 items hitems
  have hadmits₃ := hspares.retains.admits hadmits
  let e₃ : Engine :=
    { x.engine with
      heap := heap, stack := .awaiting none (Engine.receivers p) :: x.engine.stack
      control := .reply r, released := [] }
  obtain ⟨heap', w', hmirrors, hruns₃⟩ := Engine.exists_accepted (e := e₃) rfl rfl hspares.sound
    hrenders.isError ⟨hadmits₃.proxy, hadmits₃.elements⟩ hrenders.isReadable
    (hdelivers.isCalm hrenders)
    (fun handle hhandle => by
      rw [hnames.eq, List.mem_map] at hhandle
      obtain ⟨f, hf, rfl⟩ := hhandle
      exact (hdelivers.foreigns f hf).2) (Nat.le_refl _)
  have hu₃ : u₃.Scripting b e₃ a' := by
    obtain ⟨k, rest, hf, hk⟩ := hu.frames
    exact ⟨hc₃, ⟨q₁, hcore₃⟩, k, rest, hframes.trans hf, hk⟩
  obtain ⟨older₃, h₃⟩ := h.reaches (goes_of_proceeds hproceeds)
  obtain ⟨u₄, hproceeds₄, hdrives₄, hu₄, -⟩ := hu₃.exists_driven h₃ hruns₃
  exact ⟨u₄, _, a', w', hproceeds.trans hproceeds₄, hu₄, hdrives₄.frames.trans hframes, rfl, rfl,
    hmeans.alike hfits hdelivers hrenders hmirrors⟩

/-- **What script assigns comes back to it.**  A value of scalars, host objects, script objects and
arrays within the limits of a bridge is assigned to a property of a host object whose setter stores
it. Whatever happens then, script that reads it by a getter of the same field gets back what it
assigned, as long as the field has it. -/
theorem comes_back_to_script (h : History types setups (s :: older))
    (hs : s.Assigning b e a o field w) (hw : Sendable e a w c) :
    ∃ s₁ v, Proceeds s s₁ ∧ (s₁.fieldsOf o).lookup field = some v ∧
      ∀ u newer e₁ a₁, History types setups (u :: newer) → s₁ ∈ u :: newer →
        Intact b (u :: newer) → u.Reading b e₁ a₁ o field →
        (u.fieldsOf o).lookup field = some v → u.HasRoom b v →
        ((∃ vs, v = .array vs) → ∀ i, e₁.heap.Yields Intrinsic.arrayParent (.index i)) →
          ∃ u' e₂ a₂ w', Proceeds u u' ∧ u'.Scripting b e₂ a₂ ∧ u'.frames = u.frames ∧
            e₂.control = .ret w' ∧ e₂.stack = e₁.stack ∧ Engine.Alike e.heap a e₂.heap a₂ w w' := by
  obtain ⟨s₁, v, hproceeds, hstored⟩ := exists_kept h hs hw
  refine ⟨s₁, v, hproceeds, hstored.field, ?_⟩
  intro u newer e₁ a₁ hu hmem hi hreading hv hroom helements
  refine hreading.exists_returned hu hi hw.means hw.fits hv ?_ hroom helements
  -- The leases in the value still have their script objects.
  obtain ⟨e', q, hcore, hdelivers⟩ := hstored.core
  refine hdelivers.mono fun f hf => ?_
  obtain ⟨x, hx, rfl, rfl⟩ := hreading.side
  have hkept : f ∈ u.kept b := hu.mem_kept_of_live (List.mem_cons_self ..)
    ⟨(hdelivers.foreigns f hf).1, .inr (HostValue.mem_foreignsOf.2 ⟨v, mem_values_of_field hv, hf⟩)⟩
  rw [← pinned?_of_side? hx, ← pinned?_of_core? hcore]
  exact hu.pinned?_since hmem (by rw [engine?_of_side? hx]; rfl) hkept (hstored.leases f hf)

/-! ### A value that comes back to script -/

/-- A type of objects with a property that is a field. -/
def boxType : HostType where
  name := "Box"
  description := .ofRegistrations "Box"
    [.getter "p" ⟨.field "f", false⟩, .setter "p" (.storeValue "f" .any)]

/-- The first object of that type. -/
def firstBox : HostObject := ⟨0, 0, "Box"⟩

/-- A program that makes an object a global. -/
def boxed : List Session :=
  obey 40 0 (.setVariable "x" (.fresh 0 "x" [])) none (made [boxType] [{}])

lemma history_boxed : History [boxType] [{}] boxed :=
  (history_made (by decide +kernel)).obey ..

/-- A script that assigns an array of a host object and a script object to the property. -/
def fillBox : Expr :=
  .op (.put "p") [.var "x", .op .array [.var "x", .op (.object ["k"]) [.int 1]]]

/-- A program that is about to assign it. -/
def assigning : List Session := follow 15 (tell 0 (.evaluate fillBox) boxed)

/-- The same program, when it is about to read the property. -/
def rereading : List Session :=
  follow 6 (tell 0 (.evaluate (.op (.get "p") [.var "x"]))
    (follow 40 (settleDown none (follow 60 assigning))))

lemma history_assigning : History [boxType] [{}] assigning := (history_boxed.tell ..).follow _

lemma history_rereading : History [boxType] [{}] rereading :=
  ((((history_assigning.follow _).settleDown _).follow _).tell ..).follow _

/-- The host object that an object stands in for. -/
def held? (e : Engine) (a : Arena Entry) (p : Ref) : Option HostObject :=
  match (e.heap.get? p).map Object.kind with
  | some (.proxy slot _) =>
    match a.get? slot with
    | some (.object o) => some o
    | _ => none
  | _ => none

lemma standsFor_of_held? {p : Ref} (h : held? e a p = some o) : StandsFor e a p o := by
  unfold held? at h
  split at h
  · next slot token hk =>
    obtain ⟨i, hi, hk⟩ := Option.map_eq_some_iff.1 hk
    split at h
    · next o' ho =>
      obtain rfl := Option.some.inj h
      exact ⟨i, slot, token, hi, hk, ho⟩
    · cases h
  · cases h

/-- The engine and the entries of a bridge with a script of an operation at work. -/
def scripting? (b : Nat) (s : Session) : Option (Engine × Arena Entry) :=
  match s.control, s.core? b, s.frames with
  | .engine c, some ⟨some e, a, _⟩, .running d .value :: _ =>
    if c = b ∧ d = b then some (e, a) else none
  | _, _, _ => none

lemma scripting_of_scripting? (h : scripting? b s = some (e, a)) : s.Scripting b e a := by
  unfold scripting? at h
  split at h
  · next c e' a' q d rest hc hcore hf =>
    split at h
    · next heq =>
      obtain ⟨rfl, rfl⟩ := heq
      obtain ⟨rfl, rfl⟩ := Prod.mk.inj (Option.some.inj h)
      exact ⟨hc, ⟨q, hcore⟩, .value, rest, hf, nofun⟩
    · cases h
  · cases h

/-- Whether a setter stores what it gets in a field. -/
def keepsIn (field : String) : Option Action → Bool
  | some (.storeValue f .any) => f == field
  | _ => false

/-- Whether a getter gives what a field has. -/
def givesFrom (field : String) : Option Getter → Bool
  | some ⟨.field f, _⟩ => f == field
  | _ => false

/-- The value that script is about to assign to a property that is a field of an object. -/
def assigned? (s : Session) (e : Engine) (a : Arena Entry) (o : HostObject) (field : String) :
    Option Value :=
  match e.control with
  | .write (.object p) key w =>
    if held? e a p = some o ∧ s.isBorrowed o = false ∧ (s.state? o).isSome ∧
      key.text?.any (fun name => keepsIn field ((s.typeOf o).description.setter name)) then some w
    else none
  | _ => none

lemma assigning_of_assigned? (hs : s.Scripting b e a) (h : assigned? s e a o field = some w) :
    s.Assigning b e a o field w := by
  unfold assigned? at h
  split at h
  · next p key w' hc =>
    split at h
    · next hcheck =>
      obtain ⟨hheld, hfree, hpresent, hset⟩ := hcheck
      obtain rfl := Option.some.inj h
      obtain ⟨name, hkey, hkeeps⟩ := (Option.any_eq_true ..).1 hset
      unfold keepsIn at hkeeps
      split at hkeeps
      · next _ f heq =>
        obtain rfl := beq_iff_eq.1 hkeeps
        exact ⟨hs, ⟨p, key, name, hc, standsFor_of_held? hheld, hkey, heq⟩, hfree, hpresent⟩
      · cases hkeeps
    · cases h
  · cases h

/-- Whether script is about to read a property that is a field of an object. -/
def isRereading (s : Session) (e : Engine) (a : Arena Entry) (o : HostObject) (field : String) :
    Bool :=
  match e.control with
  | .read (.object p) key =>
    held? e a p == some o && !s.isWriting o && !e.isFull &&
      key.text?.any fun name => givesFrom field ((s.typeOf o).description.getter name)
  | _ => false

lemma reading_of_isRereading (hs : s.Scripting b e a) (h : isRereading s e a o field = true) :
    s.Reading b e a o field := by
  unfold isRereading at h
  split at h
  · next p key hc =>
    simp only [Bool.and_eq_true, beq_iff_eq, Bool.not_eq_true'] at h
    obtain ⟨⟨⟨hheld, hfree⟩, hshallow⟩, hget⟩ := h
    obtain ⟨name, hkey, hgives⟩ := (Option.any_eq_true ..).1 hget
    unfold givesFrom at hgives
    split at hgives
    · next _ f fallible heq =>
      obtain rfl := beq_iff_eq.1 hgives
      exact ⟨hs, ⟨p, key, name, _, hc, standsFor_of_held? hheld, hkey, heq, rfl⟩, hfree,
        hshallow⟩
    · cases hgives
  · cases h

/-- Whether a value is an array of a host object and a script object that can go to the host. -/
def isPair (e : Engine) (a : Arena Entry) (w : Value) : Bool :=
  match Engine.content? e.heap 2 w with
  | some (.array [.entry slot, .object q]) =>
    e.isIntact .date && !e.isHeir Intrinsic.dateParent q && decide (2 ≤ e.maxLength) &&
      decide (1 ≤ e.maxDepth) && (e.handles.enterAll [q]).isSome &&
      (match a.get? slot with
        | some (.object _) => true
        | _ => false)
  | _ => false

lemma sendable_of_isPair (h : isPair e a w = true) : ∃ c, Sendable e a w c := by
  unfold isPair at h
  split at h
  · next slot q hc =>
    simp only [Bool.and_eq_true, Bool.not_eq_true', decide_eq_true_eq] at h
    obtain ⟨⟨⟨⟨⟨hdate, hheir⟩, hlength⟩, hdepth⟩, hroom⟩, ho⟩ := h
    split at ho
    · next o ho' =>
      refine ⟨_, Engine.means_of_content? hc, ?_, fun p hp => ?_, fun s hs => ?_, hroom⟩
      · obtain ⟨depth, hdepth⟩ := Nat.exists_eq_add_of_le' hdepth
        have hmax : 2 ≤ Record.maxLength := by decide
        rw [hdepth]
        refine ⟨hlength, hmax, ?_, ?_, trivial⟩ <;> cases depth <;> trivial
      · obtain rfl := List.mem_singleton.1 hp
        exact ⟨hdate, hheir⟩
      · rcases List.mem_cons.1 hs with heq | hs
        · cases heq
          exact ⟨o, ho'⟩
        · cases List.mem_singleton.1 hs
    · cases ho
  · cases h

/-- Whether a value becomes a record. -/
def isRoomy (s : Session) (b : Nat) (v : HostValue) : Bool :=
  (s.bridge? b).all fun br => (encode b br.arena v).1.toOption.isSome

lemma hasRoom_of_isRoomy (h : isRoomy s b v = true) : s.HasRoom b v := fun br hbr herror => by
  rw [isRoomy, hbr, Option.all_some, herror] at h
  cases h

/-- A lease in an array of an object and a script object that a field has. -/
def leased? (o : HostObject) (field : String) (s : Session) : Option (Option ForeignObject) :=
  match (s.fieldsOf o).lookup field with
  | none => some none
  | some (.array [.object p, .foreign f]) => if p = o then some (some f) else none
  | some _ => none

/-- Whether a field has nothing or one array of an object and a script object in all states. -/
def isSteady (o : HostObject) (field : String) (hist : List Session) : Bool :=
  match hist.head?.bind (leased? o field) with
  | some (some f) => hist.all fun s => match leased? o field s with
    | some none => true
    | some (some g) => g == f
    | none => false
  | _ => false

lemma exists_of_isSteady (h : isSteady o field (u :: newer) = true) :
    ∃ f, (u.fieldsOf o).lookup field = some (.array [.object o, .foreign f]) ∧
      ∀ s ∈ u :: newer, ∀ v, (s.fieldsOf o).lookup field = some v →
        v = .array [.object o, .foreign f] := by
  have hleased : ∀ {s : Session} {g v}, leased? o field s = some g →
      (s.fieldsOf o).lookup field = some v →
        ∃ f, g = some f ∧ v = .array [.object o, .foreign f] := by
    intro s g v hg hv
    unfold leased? at hg
    rw [hv] at hg
    split at hg
    · next heq => cases heq
    · next p f heq =>
      split at hg
      · next hp =>
        cases heq
        subst hp
        exact ⟨f, (Option.some.inj hg).symm, rfl⟩
      · cases hg
    · cases hg
  unfold isSteady at h
  split at h
  · next f hf =>
    rw [List.head?_cons, Option.bind_some] at hf
    refine ⟨f, ?_, fun s hs v hv => ?_⟩
    · cases hv : (u.fieldsOf o).lookup field with
      | none =>
        rw [leased?, hv] at hf
        cases hf
      | some v =>
        obtain ⟨g, hg, rfl⟩ := hleased hf hv
        cases hg
        rfl
    · have hs := List.all_eq_true.1 h s hs
      split at hs
      · next hg => obtain ⟨g, hg, -⟩ := hleased hg hv; cases hg
      · next g' hg =>
        obtain ⟨g, hg, rfl⟩ := hleased hg hv
        cases hg
        rw [beq_iff_eq.1 hs]
      · cases hs
  · cases h

/-- An array of a host object and a script object comes back to script. -/
theorem comes_back_to_script_rereading : ∃ s u u' e e' a a' w w',
    assigning.head? = some s ∧ s.Assigning 0 e a firstBox "f" w ∧ rereading.head? = some u ∧
      Proceeds u u' ∧ u'.Scripting 0 e' a' ∧ e'.control = .ret w' ∧
      Engine.Alike e.heap a e'.heap a' w w' := by
  have hassigning : assigning.head?.any (fun s => (scripting? 0 s).any fun (e, a) =>
      (assigned? s e a firstBox "f").any (isPair e a)) = true := by decide +kernel
  have hend : (follow 60 assigning).head?.all (·.step?.isNone) = true := by decide +kernel
  have hreading : rereading.head?.any (fun u => (scripting? 0 u).any fun (e, a) =>
      isRereading u e a firstBox "f" && ((u.fieldsOf firstBox).lookup "f").all (isRoomy u 0) &&
        e.heap.ascend Heap.isBare 5 Intrinsic.arrayParent) = true := by decide +kernel
  have hsteady : isSteady firstBox "f" rereading = true := by decide +kernel
  have hi : Intact 0 rereading := intact_of_all (by decide +kernel)
  have hmem : ∀ t ∈ follow 60 assigning, t ∈ rereading := fun t ht =>
    mem_follow_of_mem (mem_tell_of_mem (mem_follow_of_mem (mem_settleDown_of_mem ht)))
  have h := history_assigning
  generalize assigning = hist at hassigning hend hmem h ⊢
  cases hist with
  | nil => cases hassigning
  | cons s older =>
  rw [List.head?_cons, Option.any_some] at hassigning
  obtain ⟨⟨e, a⟩, hs, hassigned⟩ := (Option.any_eq_true ..).1 hassigning
  obtain ⟨w, hw, hpair⟩ := (Option.any_eq_true ..).1 hassigned
  have hs := assigning_of_assigned? (scripting_of_scripting? hs) hw
  obtain ⟨c, hsendable⟩ := sendable_of_isPair hpair
  obtain ⟨s₁, v, hproceeds, hv, hback⟩ := comes_back_to_script h hs hsendable
  have hs₁ : s₁ ∈ rereading := hmem s₁ (mem_follow hproceeds hend)
  have hu := history_rereading
  generalize rereading = hist at hreading hsteady hi hs₁ hu ⊢
  cases hist with
  | nil => cases hreading
  | cons u newer =>
  rw [List.head?_cons, Option.any_some] at hreading
  obtain ⟨⟨e₁, a₁⟩, hu₁, hcheck⟩ := (Option.any_eq_true ..).1 hreading
  simp only [Bool.and_eq_true] at hcheck
  obtain ⟨⟨hcheck, hroomy⟩, hbare⟩ := hcheck
  obtain ⟨f, hf, hsame⟩ := exists_of_isSteady hsteady
  rw [hf, Option.all_some] at hroomy
  obtain rfl := hsame s₁ hs₁ v hv
  obtain ⟨u', e', a', w', hproceeds', hscripting, -, hret, -, halike⟩ := hback u newer e₁ a₁ hu hs₁
    hi (reading_of_isRereading (scripting_of_scripting? hu₁) hcheck) hf
    (hasRoom_of_isRoomy hroomy)
    fun _ i => Heap.yields_of_ascend hbare fun p hp => Heap.isOpenAt_of_isBare hp i
  exact ⟨s, u, u', e, e', a, a', w, w', rfl, hs, rfl, hproceeds', hscripting, hret, halike⟩

/-! ### Values that do not come back to script -/

/-- A program that runs a script on an object. -/
def boxing (script : Expr) : List Session := obey 90 0 (.evaluate script) none boxed

lemma history_boxing (script : Expr) : History [boxType] [{}] (boxing script) :=
  history_boxed.obey ..

/-- The property of the object. -/
def inBox : Expr := .op (.get "p") [.var "x"]

/-- A script that assigns to the property. -/
def putBox (value : Expr) : Expr := .op (.put "p") [.var "x", value]

/-- A script that gives arrays an element. -/
def giveFirst : Expr := .op (.put "0") [.op (.get "prototype") [.var "Array"], .int 7]

/-- A script that makes an array of a hole a global. -/
def makeHole : Expr :=
  .seq [.op (.assign "a") [.op .array []], .op (.put "length") [.var "a", .int 1]]

/-- The text that an operation has given. -/
def gaveText? (s : Session) : Option String :=
  match s.control with
  | .done (.ok (.string text)) => some text
  | _ => none

/-- Whether an operation has given null. -/
def gaveNull (s : Session) : Bool :=
  match s.control with
  | .done (.ok .null) => true
  | _ => false

/-- The number that an operation has given. -/
def gaveNumber? (s : Session) : Option Int32 :=
  match s.control with
  | .done (.ok (.int n)) => some n
  | _ => none

/-- Not every value comes back to script: a host object does not where script has put a function in
the place of the class of stand-ins, a number in an array does not where arrays inherit a setter for
an element, a script object cannot be sent where something else is in the place of the class of
dates, and a hole shows what arrays inherit. -/
theorem lost_on_way_back :
    (History [boxType] [{}]
        (boxing (.seq [putBox (.var "x"), replaceProxy, .op .typeOf [inBox]])) ∧
      ((boxing (.seq [putBox (.var "x"), replaceProxy, .op .typeOf [inBox]])).find? isOver).bind
        gaveText? = some "object") ∧
    (History [boxType] [{}]
        (boxing (.seq [putBox (.op .array [.int 1]), takeFirst, .op (.get "0") [inBox]])) ∧
      ((boxing (.seq [putBox (.op .array [.int 1]), takeFirst,
        .op (.get "0") [inBox]])).find? isOver).any gaveNull = true) ∧
    (History [boxType] [{}]
        (boxing (.seq [.op (.assign "Date") [.null], putBox (.op (.object ["k"]) [.int 1])])) ∧
      ((boxing (.seq [.op (.assign "Date") [.null],
        putBox (.op (.object ["k"]) [.int 1])])).find? isOver).bind failure? =
        some (.hostMethod (.thrown "TypeError: invalid 'instanceof' right operand"))) ∧
    (History [boxType] [{}]
        (boxing (.seq [giveFirst, makeHole, putBox (.var "a"), .op (.get "0") [inBox]])) ∧
      ((boxing (.seq [giveFirst, makeHole, putBox (.var "a"),
        .op (.get "0") [inBox]])).find? isOver).bind gaveNumber? = some 7) :=
  ⟨⟨history_boxing _, by decide +kernel⟩, ⟨history_boxing _, by decide +kernel⟩,
    ⟨history_boxing _, by decide +kernel⟩, history_boxing _, by decide +kernel⟩

end Session

end ScriptBridge
