/-
# Host code hands on what it was given

Host code cannot make up a foreign object, nor a host object that is there already: whatever it
keeps or passes on, it was given or has just made.  So what holds of all that a session refers to
goes on to hold.  What a dispose hook works on is not among it, since a hook hands nothing on.
-/
import ScriptBridge.Proofs.Bridge.Contents
import ScriptBridge.Proofs.Session.History

namespace ScriptBridge

open ScriptBridge.Bridge ScriptBridge.Host ScriptBridge.Script

/-- What may be found in a session. -/
structure Session.Stock where
  /-- The references to host objects and leases that may be kept and handed on. -/
  ref : HostValue → Prop
  /-- The host objects whose dispose hooks may be running. -/
  hook : HostObject → Prop
  /-- The entries that may be about to be let go of. -/
  entry : Entry → Prop
  /-- What dispose hooks may have logged. -/
  log : List String → Prop
  /-- The least number that the next host object may have. -/
  least : Nat

variable {P : Session.Stock}

/-! ### Values -/

namespace Host.HostValue

/-- All references in a value may be handed on. -/
def Only (P : Session.Stock) (v : HostValue) : Prop := ∀ w ∈ v.references, P.ref w

/-- The leases in a value may be handed on; its host objects do not matter. -/
def Loose (P : Session.Stock) (v : HostValue) : Prop := ∀ f ∈ v.foreigns, P.ref (.foreign f)

variable {v : HostValue} {vs : List HostValue} {f : ForeignObject} {o : HostObject}

@[simp] lemma only_null : null.Only P := fun _ hw => by cases hw

@[simp] lemma only_bool (x : Bool) : (bool x).Only P := fun _ hw => by cases hw

@[simp] lemma only_int (n : Int32) : (int n).Only P := fun _ hw => by cases hw

@[simp] lemma only_number (x : Number.Binary64) : (number x).Only P := fun _ hw => by cases hw

@[simp] lemma only_ofWide (n : Int) : (ofWide n).Only P := only_number _

@[simp] lemma only_string (x : String) : (string x).Only P := fun _ hw => by cases hw

@[simp] lemma only_date (t : Calendar.Instant) : (date t).Only P := fun _ hw => by cases hw

@[simp] lemma only_object : (object o).Only P ↔ P.ref (.object o) := by simp [Only, references]

@[simp] lemma only_foreign : (foreign f).Only P ↔ P.ref (.foreign f) := by
  simp [Only, references]

@[simp] lemma only_array : (array vs).Only P ↔ ∀ v ∈ vs, v.Only P := by
  simp only [Only, references, mem_referencesOf]
  exact ⟨fun h v hv w hw => h w ⟨v, hv, hw⟩, fun h w ⟨v, hv, hw⟩ => h v hv w hw⟩

lemma only_of_references (h : v.references = []) : v.Only P := fun w hw => by
  rw [h] at hw
  cases hw

lemma only_iff : v.Only P ↔
    (∀ o ∈ v.objects, P.ref (.object o)) ∧ ∀ f ∈ v.foreigns, P.ref (.foreign f) := by
  refine ⟨fun h => ⟨fun o ho => h _ ((object_mem_references v).2 ho),
    fun f hf => h _ ((foreign_mem_references v).2 hf)⟩, fun h w hw => ?_⟩
  rcases mem_references_cases v hw with ⟨o, rfl⟩ | ⟨f, rfl⟩
  · exact h.1 o ((object_mem_references v).1 hw)
  · exact h.2 f ((foreign_mem_references v).1 hw)

lemma Only.object (hv : v.Only P) (ho : o ∈ v.objects) : P.ref (.object o) :=
  (only_iff.1 hv).1 o ho

lemma Only.loose (hv : v.Only P) : v.Loose P := (only_iff.1 hv).2

@[simp] lemma loose_object : (object o).Loose P := fun _ hf => by cases hf

lemma forall_loose : (∀ v ∈ vs, v.Loose P) ↔ ∀ f ∈ foreignsOf vs, P.ref (.foreign f) := by
  simp only [Loose, mem_foreignsOf]
  exact ⟨fun h f ⟨v, hv, hf⟩ => h v hv f hf, fun h v hv f hf => h f ⟨v, hv, hf⟩⟩

lemma only_of_asForeign (h : v.asForeign = some f) (hv : v.Only P) : P.ref (.foreign f) := by
  cases v <;> cases h
  exact only_foreign.1 hv

lemma only_of_asObject (h : v.asObject = some o) (hv : v.Only P) : P.ref (.object o) := by
  cases v <;> cases h
  exact only_object.1 hv

lemma only_of_asArray (h : v.asArray = some vs) (hv : v.Only P) : ∀ w ∈ vs, w.Only P := by
  cases v <;> cases h
  exact only_array.1 hv

end Host.HostValue

open HostValue

namespace Host.Args

variable {args : Args} {position : Nat} {v : HostValue}

lemma only_value (hargs : ∀ v ∈ args.values, v.Only P) (h : args.value position = .ok v) :
    v.Only P := by
  unfold value at h
  split at h
  · next w hw =>
    cases h
    exact hargs _ (List.mem_of_getElem? hw)
  · cases h

/-- A reader gives what it finds in an argument. -/
lemma read_eq_ok {α : Type} {param : Param} {get : HostValue → Option α} {a : α}
    (h : args.read position param get = .ok a) :
    ∃ v, args.value position = .ok v ∧ get v = some a := by
  unfold read at h
  cases hvalue : args.value position with
  | error e =>
    rw [hvalue] at h
    cases h
  | ok v =>
    rw [hvalue] at h
    change v.expect position param.name (get v) = .ok a at h
    refine ⟨v, rfl, ?_⟩
    cases hget : get v with
    | none =>
      rw [hget] at h
      cases h
    | some a' =>
      rw [hget] at h
      cases h
      rfl

lemma only_get {param : Param} (hargs : ∀ v ∈ args.values, v.Only P)
    (h : args.get position param = .ok v) : v.Only P := by
  have hread : ∀ {α : Type} {param : Param} {get : HostValue → Option α} {f : α → HostValue},
      f <$> args.read position param get = .ok v → ∃ w a, args.value position = .ok w ∧
        get w = some a ∧ f a = v := by
    intro α param get f hmap
    cases hr : args.read position param get with
    | error e =>
      rw [hr] at hmap
      cases hmap
    | ok a =>
      rw [hr] at hmap
      obtain ⟨w, hw, hget⟩ := read_eq_ok hr
      exact ⟨w, a, hw, hget, by cases hmap; rfl⟩
  cases param with
  | any => exact only_value hargs h
  | array =>
    obtain ⟨w, items, hw, hget, rfl⟩ := hread h
    exact only_array.2 (only_of_asArray hget (only_value hargs hw))
  | «foreign» =>
    obtain ⟨w, f, hw, hget, rfl⟩ := hread h
    exact only_foreign.2 (only_of_asForeign hget (only_value hargs hw))
  | object =>
    obtain ⟨w, o, hw, hget, rfl⟩ := hread h
    exact only_object.2 (only_of_asObject hget (only_value hargs hw))
  | _ =>
    obtain ⟨w, a, hw, hget, rfl⟩ := hread h
    simp

lemma only_foreign {f : ForeignObject} (hargs : ∀ v ∈ args.values, v.Only P)
    (h : args.foreign position = .ok f) : P.ref (.foreign f) := by
  obtain ⟨v, hv, hget⟩ := read_eq_ok h
  exact only_of_asForeign hget (only_value hargs hv)

end Host.Args

/-! ### What is still to be done -/

/-- The host object that an entry refers to may be handed on. -/
def Bridge.Entry.Fits (P : Session.Stock) (e : Entry) : Prop :=
  ∀ o, e.target? = some o → P.ref (.object o)

namespace Session

/-- The values of a scene that host code can hand on. -/
def Scene.given (scene : Scene) : List HostValue := scene.value :: scene.args

/-- What is about to be done uses and lets go of what it may. -/
def Control.Fits (P : Stock) : Control → Prop
  | .act _ scene => ∀ v ∈ scene.given, v.Only P
  | .release entries => ∀ e ∈ entries, e.Fits P ∧ P.entry e
  | .drop vs => ∀ v ∈ vs, v.Loose P
  | ctl => ∀ v ∈ ctl.values, v.Only P

/-- A frame keeps what it may. -/
def Frame.Fits (P : Stock) : Frame → Prop
  | .interrupted ctl => ctl.Fits P
  | .hook o => P.hook o
  | .sequence _ last scene => last.Only P ∧ ∀ v ∈ scene.given, v.Only P
  | .listing _ results scene => (∀ v ∈ results, v.Only P) ∧ ∀ v ∈ scene.given, v.Only P
  | f => ∀ v ∈ f.values, v.Only P

lemma Scene.loose {scene : Scene} (h : ∀ v ∈ scene.given, v.Only P) :
    ∀ v ∈ scene.values, v.Loose P :=
  List.forall_mem_cons.2 ⟨loose_object, fun v hv => (h v hv).loose⟩

/-- The leases among what is about to be used may be handed on. -/
lemma Control.Fits.loose {ctl : Control} (h : ctl.Fits P) : ∀ v ∈ ctl.values, v.Loose P := by
  cases ctl with
  | act a scene => exact Scene.loose h
  | release entries =>
    simp only [Control.values, List.forall_mem_map, loose_object, implies_true]
  | drop vs => exact h
  | _ => exact fun v hv => (h v hv).loose

lemma Frame.Fits.loose {f : Frame} (h : f.Fits P) : ∀ v ∈ f.values, v.Loose P := by
  cases f with
  | interrupted ctl => exact Control.Fits.loose h
  | hook o => exact List.forall_mem_singleton.2 loose_object
  | «sequence» rest last scene => exact List.forall_mem_cons.2 ⟨h.1.loose, Scene.loose h.2⟩
  | listing rest results scene =>
    exact List.forall_mem_append.2
      ⟨fun v hv => (h.1 v (List.mem_reverse.1 hv)).loose, Scene.loose h.2⟩
  | _ => exact fun v hv => (h v hv).loose

variable {s s' : Session} {b : Nat} {ctl : Control} {f : Frame} {v : HostValue}

/-! ### Sessions -/

/-- What a session keeps is what may be found in it, not counting what is about to be done. -/
structure Keeps (P : Stock) (s : Session) : Prop where
  frames : ∀ f ∈ s.frames, f.Fits P
  registers : ∀ e ∈ s.registers, e.2.Only P
  fields : ∀ st ∈ s.objects, ∀ e ∈ st.fields, e.2.Only P
  entries : ∀ br ∈ s.bridges, ∀ e ∈ br.arena.values, e.Fits P
  log : P.log s.disposed
  least : P.least ≤ s.nextObject

/-- Whatever a session refers to may be found in it. -/
structure Refers (P : Stock) (s : Session) : Prop where
  keeps : s.Keeps P
  control : s.control.Fits P

lemma refers_iff : s.Refers P ↔ s.Keeps P ∧ s.control.Fits P :=
  ⟨fun h => ⟨h.keeps, h.control⟩, fun h => ⟨h.1, h.2⟩⟩

@[simp] lemma keeps_goto : (s.goto ctl).Keeps P ↔ s.Keeps P :=
  ⟨fun h => { h with }, fun h => { h with }⟩

@[simp] lemma keeps_push : (s.push f).Keeps P ↔ f.Fits P ∧ s.Keeps P := by
  constructor
  · intro h
    have hframes := List.forall_mem_cons.1 h.frames
    exact ⟨hframes.1, { h with frames := hframes.2 }⟩
  · intro h
    exact { h.2 with frames := List.forall_mem_cons.2 ⟨h.1, h.2.frames⟩ }

lemma Keeps.updateBridge (h : s.Keeps P) {g : Bridge → Bridge}
    (hg : ∀ br ∈ s.bridges, ∀ e ∈ (g br).arena.values, e.Fits P) :
    (s.updateBridge b g).Keeps P where
  frames := h.frames
  registers := h.registers
  fields := h.fields
  entries := fun br hbr => by
    obtain ⟨n, hn, rfl⟩ : ∃ n, ∃ hn : n < (s.bridges.modify b g).length,
        (s.bridges.modify b g)[n] = br := List.mem_iff_getElem.1 hbr
    rw [List.length_modify] at hn
    rw [List.getElem_modify]
    split
    · exact hg _ (List.getElem_mem hn)
    · exact h.entries _ (List.getElem_mem hn)
  log := h.log
  least := h.least

/-- Only the arena of a bridge refers to anything. -/
lemma Keeps.updateBridge_of_arena (h : s.Keeps P) {g : Bridge → Bridge}
    (hg : ∀ br, (g br).arena = br.arena) : (s.updateBridge b g).Keeps P :=
  h.updateBridge fun br hbr e he => h.entries br hbr e (hg br ▸ he)

lemma Keeps.withArena (h : s.Keeps P) {a : Table.Arena Entry} (ha : ∀ e ∈ a.values, e.Fits P) :
    (s.updateBridge b ({ · with arena := a })).Keeps P :=
  h.updateBridge fun _ _ => ha

lemma Keeps.record (h : s.Keeps P) (crossing : Crossing) : (s.record b crossing).Keeps P :=
  h.updateBridge_of_arena fun _ => rfl

lemma Keeps.describe (h : s.Keeps P) (type : Nat) :
    (s.updateBridge b (·.describe type)).Keeps P :=
  h.updateBridge_of_arena fun br => by
    unfold Bridge.describe
    split <;> rfl

lemma Keeps.entries_of_bridge? (h : s.Keeps P) {br : Bridge} (hb : s.bridge? b = some br) :
    ∀ e ∈ br.arena.values, e.Fits P := h.entries br (List.mem_of_getElem? hb)

lemma Keeps.fits_entryOf? (h : s.Keeps P) {slot : Wire.Slot} {entry : Entry}
    (he : s.entryOf? b slot = some entry) : entry.Fits P := by
  obtain ⟨br, hb, hget⟩ := Option.bind_eq_some_iff.1 he
  exact h.entries_of_bridge? hb _ (Table.Arena.mem_values_of_get? hget)

@[simp] lemma refers_goto : (s.goto ctl).Refers P ↔ s.Keeps P ∧ ctl.Fits P := by
  rw [refers_iff, keeps_goto]
  rfl

@[simp] lemma refers_give : (s.give v).Refers P ↔ s.Keeps P ∧ v.Only P := by
  simp [give, Control.Fits, Control.values, outcomeValues]

@[simp] lemma refers_finish : s.finish.Refers P ↔ s.Keeps P := by
  simp [finish, Control.finished, Control.Fits, Control.values, outcomeValues]

@[simp] lemma refers_fail {e : BridgeError} : (s.fail e).Refers P ↔ s.Keeps P := by
  simp [fail, Control.Fits, Control.values, outcomeValues]

@[simp] lemma refers_throw {e : HostError} : (s.throw e).Refers P ↔ s.Keeps P := by
  simp [throw, Control.Fits, Control.values, outcomeValues]

@[simp] lemma refers_refuse {e : HostError} : (s.refuse b e).Refers P ↔ s.Keeps P := by
  simp [refuse, Control.Fits, Control.values, outcomeValues]

lemma Refers.updateBridge_of_arena (h : s.Refers P) {g : Bridge → Bridge}
    (hg : ∀ br, (g br).arena = br.arena) : (s.updateBridge b g).Refers P :=
  ⟨h.keeps.updateBridge_of_arena hg, h.control⟩

lemma Refers.interrupt (h : s.Refers P) (hctl : ctl.Fits P) : (s.interrupt ctl).Refers P := by
  simp only [Session.interrupt, refers_goto, keeps_push]
  exact ⟨⟨h.control, h.keeps⟩, hctl⟩

/-- Taking the frame on top off the stack. -/
lemma Keeps.pop {rest : List Frame} (h : s.Keeps P) (hs : s.frames = f :: rest) :
    f.Fits P ∧ ({ s with frames := rest } : Session).Keeps P := by
  have hframes := h.frames
  rw [hs, List.forall_mem_cons] at hframes
  exact ⟨hframes.1, { h with frames := hframes.2 }⟩

/-- The leases that a session refers to may be handed on. -/
lemma Refers.loose (h : s.Refers P) : ∀ f ∈ foreignsOf s.values, P.ref (.foreign f) := by
  have harena : ∀ v ∈ s.bridges.flatMap arenaValues, v.Loose P := by
    simp only [arenaValues, List.forall_mem_flatMap, List.forall_mem_map, loose_object,
      implies_true]
  rw [← forall_loose]
  simp only [values, List.forall_mem_append, List.forall_mem_map, List.forall_mem_flatMap]
  exact ⟨⟨⟨⟨h.control.loose, fun f hf => (h.keeps.frames f hf).loose⟩,
    fun e he => (h.keeps.registers e he).loose⟩,
    fun st hst e he => (h.keeps.fields st hst e he).loose⟩, List.forall_mem_flatMap.1 harena⟩

lemma Control.fits_of_values (h : ∀ v ∈ ctl.values, v.Only P) (hentry : ∀ e, P.entry e) :
    ctl.Fits P := by
  cases ctl with
  | act a scene => exact (List.forall_mem_cons.1 h).2
  | release entries =>
    simp only [Control.values, List.forall_mem_map, List.mem_filterMap, only_object] at h
    exact fun e he => ⟨fun o ho => h o ⟨e, he, ho⟩, hentry e⟩
  | drop vs => exact fun v hv => (h v hv).loose
  | _ => exact h

lemma Frame.fits_of_values (h : ∀ v ∈ f.values, v.Only P) (hhook : ∀ o, f = .hook o → P.hook o)
    (hentry : ∀ e, P.entry e) : f.Fits P := by
  cases f with
  | interrupted ctl => exact Control.fits_of_values h hentry
  | hook o => exact hhook o rfl
  | «sequence» rest last scene =>
    exact (List.forall_mem_cons.1 h).imp_right fun hscene => (List.forall_mem_cons.1 hscene).2
  | listing rest results scene =>
    obtain ⟨hresults, hscene⟩ := List.forall_mem_append.1 h
    exact ⟨fun v hv => hresults v (List.mem_reverse.2 hv), (List.forall_mem_cons.1 hscene).2⟩
  | _ => exact h

/-- What all values of a session refer to may be found in it. -/
lemma refers_of_values (h : ∀ v ∈ s.values, v.Only P) (hhook : ∀ o, .hook o ∈ s.frames → P.hook o)
    (hentry : ∀ e, P.entry e) (hlog : P.log s.disposed) (hleast : P.least ≤ s.nextObject) :
    s.Refers P := by
  simp only [values, List.forall_mem_append, List.forall_mem_map, List.forall_mem_flatMap,
    arenaValues, List.mem_filterMap, only_object] at h
  obtain ⟨⟨⟨⟨hc, hf⟩, hr⟩, ho⟩, ha⟩ := h
  exact ⟨⟨fun f hm => Frame.fits_of_values (hf f hm) (fun o heq => hhook o (heq ▸ hm)) hentry,
    hr, ho, fun br hbr e he o heq => ha br hbr o ⟨e, he, heq⟩, hlog, hleast⟩,
    Control.fits_of_values hc hentry⟩

/-! ### Leases only -/

/-- Leases of a sort, and anything else. -/
def Stock.leases (p : ForeignObject → Prop) : Stock where
  ref := fun w => ∀ f, w = .foreign f → p f
  hook := fun _ => True
  entry := fun _ => True
  log := fun _ => True
  least := 0

/-- The arenas refer to host objects only. -/
lemma refers_iff_values {p : ForeignObject → Prop} :
    s.Refers (.leases p) ↔ ∀ f ∈ foreignsOf s.values, p f := by
  refine ⟨fun h f hf => h.loose f hf f rfl, fun h => ?_⟩
  refine refers_of_values (fun v hv w hw f heq => ?_) (fun _ _ => trivial) (fun _ => trivial)
    trivial (Nat.zero_le _)
  exact h f (mem_foreignsOf.2 ⟨v, hv, (foreign_mem_references v).1 (heq ▸ hw)⟩)

/-! ### Registers and fields -/

lemma mem_put {α : Type} {entries : List (String × α)} {name : String} {a : α}
    {e : String × α} (he : e ∈ put entries name a) : e.2 = a ∨ e ∈ entries := by
  unfold put at he
  induction entries with
  | nil => exact .inl (congrArg Prod.snd (List.mem_singleton.1 he))
  | cons entry entries ih =>
    rw [alter] at he
    split at he <;> rcases List.mem_cons.1 he with rfl | he
    · exact .inl rfl
    · exact .inr (List.mem_cons_of_mem _ he)
    · exact .inr (List.mem_cons_self ..)
    · exact (ih he).imp_right (List.mem_cons_of_mem _)

lemma mem_of_lookup {α : Type} {entries : List (String × α)} {name : String} {a : α}
    (h : entries.lookup name = some a) : (name, a) ∈ entries := by
  obtain ⟨l, l', heq, -⟩ := List.lookup_eq_some_iff.1 h
  rw [heq]
  exact List.mem_append_right _ (List.mem_cons_self ..)

lemma only_lookup {entries : List (String × HostValue)} (h : ∀ e ∈ entries, e.2.Only P)
    (name : String) : ((entries.lookup name).getD .null).Only P := by
  cases hl : entries.lookup name with
  | none => exact only_null
  | some v => exact h _ (mem_of_lookup hl)

lemma Keeps.setRegister (h : s.Keeps P) (hv : v.Only P) (name : String) :
    (s.setRegister name v).Keeps P :=
  { h with registers := fun e he => (mem_put he).elim (fun heq => heq ▸ hv) (h.registers e) }

lemma Keeps.dropRegister (h : s.Keeps P) (name : String) : (s.dropRegister name).Refers P :=
  ⟨{ h with registers := fun e he => h.registers e (List.mem_of_mem_filter he) },
    List.forall_mem_singleton.2 (only_bool _)⟩

lemma Keeps.updateFields (h : s.Keeps P) (o : HostObject)
    {g : List (String × HostValue) → List (String × HostValue)}
    (hg : ∀ fields, (∀ e ∈ fields, e.2.Only P) → ∀ e ∈ g fields, e.2.Only P) :
    (s.updateFields o g).Keeps P :=
  { h with
    fields := fun st hst => by
      obtain ⟨st', hst', rfl⟩ := List.mem_map.1 hst
      split
      · exact hg _ (h.fields st' hst')
      · exact h.fields st' hst' }

lemma Keeps.storeField (h : s.Keeps P) (hv : v.Only P) (o : HostObject) (name : String) :
    (s.storeField o name v).Keeps P :=
  h.updateFields o fun _ hfields e he =>
    (mem_put he).elim (fun heq => heq ▸ hv) (hfields e)

lemma Keeps.only_fieldsOf (h : s.Keeps P) (o : HostObject) :
    ∀ e ∈ s.fieldsOf o, e.2.Only P := by
  unfold fieldsOf
  cases hst : s.state? o with
  | none => simp
  | some st => exact h.fields st (List.mem_of_find?_eq_some hst)

/-! ### Making values -/

/-- The host objects that have been made between two states may be handed on. -/
def Allots (P : Stock) (s s' : Session) : Prop :=
  ∀ o, s.nextObject ≤ o.key → o.key < s'.nextObject → P.ref (.object o)

mutual
lemma nextObject_le_build (s : Session) : ∀ t : Template, s.nextObject ≤ (s.build t).2.nextObject
  | .plain .. => Nat.le_refl _
  | .array ts => nextObject_le_buildItems s ts
  | .fresh _ _ fields => Nat.le_succ_of_le (nextObject_le_buildFields s fields)
  | .register _ => Nat.le_refl _

lemma nextObject_le_buildItems (s : Session) :
    ∀ ts : List Template, s.nextObject ≤ (s.buildItems ts).2.nextObject
  | [] => Nat.le_refl _
  | t :: ts => Nat.le_trans (nextObject_le_build s t) (nextObject_le_buildItems _ ts)

lemma nextObject_le_buildFields (s : Session) :
    ∀ fields : List (String × Template), s.nextObject ≤ (s.buildFields fields).2.nextObject
  | [] => Nat.le_refl _
  | (_, t) :: rest => Nat.le_trans (nextObject_le_build s t) (nextObject_le_buildFields _ rest)
end

lemma nextObject_le_buildAccess (s : Session) (access : Access Template) :
    s.nextObject ≤ (s.buildAccess access).2.nextObject := by
  cases access with
  | get => exact Nat.le_refl _
  | set t => exact nextObject_le_build s t
  | invoke ts => exact nextObject_le_buildItems s ts

mutual
/-- **What is made refers to what was kept and to host objects that are made with it.** -/
lemma keeps_build : ∀ (s : Session) (t : Template), Allots P s (s.build t).2 → s.Keeps P →
    (s.build t).1.Only P ∧ (s.build t).2.Keeps P
  | s, .plain v pure, _, h => ⟨only_of_references pure, h⟩
  | s, .array ts, hnew, h => by
    have hitems := keeps_buildItems s ts hnew h
    exact ⟨only_array.2 hitems.1, hitems.2⟩
  | s, .fresh type ident fields, hnew, h => by
    have hfields := keeps_buildFields s fields
      (fun o hle hlt => hnew o hle (Nat.lt_succ_of_lt hlt)) h
    refine ⟨only_object.2 (hnew _ (nextObject_le_buildFields s fields) (Nat.lt_succ_self _)),
      { hfields.2 with
        fields := fun st hst => ?_
        least := Nat.le_succ_of_le hfields.2.least }⟩
    rcases List.mem_append.1 hst with hst | hst
    · exact hfields.2.fields st hst
    · obtain rfl := List.mem_singleton.1 hst
      exact hfields.1
  | s, .register name, _, h => ⟨only_lookup h.registers name, h⟩

lemma keeps_buildItems : ∀ (s : Session) (ts : List Template), Allots P s (s.buildItems ts).2 →
    s.Keeps P → (∀ v ∈ (s.buildItems ts).1, v.Only P) ∧ (s.buildItems ts).2.Keeps P
  | s, [], _, h => ⟨by simp [Session.buildItems], h⟩
  | s, t :: ts, hnew, h => by
    have hfirst := keeps_build s t
      (fun o hle hlt => hnew o hle (Nat.lt_of_lt_of_le hlt (nextObject_le_buildItems _ ts))) h
    have hrest := keeps_buildItems _ ts
      (fun o hle => hnew o (Nat.le_trans (nextObject_le_build s t) hle)) hfirst.2
    exact ⟨List.forall_mem_cons.2 ⟨hfirst.1, hrest.1⟩, hrest.2⟩

lemma keeps_buildFields : ∀ (s : Session) (fields : List (String × Template)),
    Allots P s (s.buildFields fields).2 → s.Keeps P →
    (∀ e ∈ (s.buildFields fields).1, e.2.Only P) ∧ (s.buildFields fields).2.Keeps P
  | s, [], _, h => ⟨by simp [Session.buildFields], h⟩
  | s, (name, t) :: rest, hnew, h => by
    have hfirst := keeps_build s t
      (fun o hle hlt => hnew o hle (Nat.lt_of_lt_of_le hlt (nextObject_le_buildFields _ rest))) h
    have hrest := keeps_buildFields _ rest
      (fun o hle => hnew o (Nat.le_trans (nextObject_le_build s t) hle)) hfirst.2
    exact ⟨List.forall_mem_cons.2 ⟨hfirst.1, hrest.1⟩, hrest.2⟩
end

lemma Keeps.buildAccess (h : s.Keeps P) (access : Access Template)
    (hnew : Allots P s (s.buildAccess access).2) :
    (∀ v ∈ (s.buildAccess access).1.values, v.Only P) ∧ (s.buildAccess access).2.Keeps P := by
  cases access with
  | get => exact ⟨by simp [Session.buildAccess, Access.values], h⟩
  | set t =>
    have hmade := keeps_build s t hnew h
    exact ⟨by simpa [Session.buildAccess, Access.values] using hmade.1, hmade.2⟩
  | invoke ts => exact keeps_buildItems s ts hnew h

/-! ### Host code -/

lemma only_storedValue {w : HostValue} {kind : Param} (hv : v.Only P)
    (h : storedValue v kind = .ok w) : w.Only P := by
  have hplain : ∀ {α : Type} {r : Except HostError α} {g : α → HostValue},
      g <$> r = .ok w → (∀ a, (g a).Only P) → w.Only P := by
    intro α r g hmap hg
    cases r with
    | error e => cases hmap
    | ok a =>
      cases hmap
      exact hg a
  cases kind with
  | bool => exact hplain h only_bool
  | int => exact hplain h only_int
  | number => exact hplain h only_number
  | string => exact hplain h only_string
  | _ =>
    cases h
    exact hv

lemma Keeps.withBridge (h : s.Keeps P) {n : Session → Nat → Session}
    (hn : ∀ b, (n s b).Refers P) : (s.withBridge n).Refers P := by
  unfold Session.withBridge
  split
  · exact hn _
  · exact refers_throw.2 h

lemma nextObject_operateHere (s : Session) (op : Operation) :
    (s.operateHere op).nextObject = s.nextObject := by
  unfold operateHere withBridge
  split <;> rfl

lemma Keeps.operateHere (h : s.Keeps P) {op : Operation} (hop : ∀ v ∈ op.values, v.Only P) :
    (s.operateHere op).Refers P :=
  h.withBridge fun b => by
    simp only [refers_goto, keeps_push]
    exact ⟨⟨by simp [Frame.Fits, Frame.values], by simp [Frame.Fits, Frame.values], h⟩, hop⟩

lemma Keeps.withResult (h : s.Keeps P) {α : Type} {r : Except HostError α} {next : α → Session}
    (hn : ∀ a, r = .ok a → (next a).Refers P) : (s.withResult r next).Refers P := by
  cases r with
  | ok a => exact hn a rfl
  | error e => exact refers_throw.2 h

lemma nextObject_gotoMember (s : Session) (f : ForeignObject) (op : Operation) :
    (s.gotoMember f op).nextObject = s.nextObject := by
  unfold gotoMember
  split <;> rfl

lemma Keeps.gotoMember (h : s.Keeps P) (f : ForeignObject) {op : Operation}
    (hop : ∀ v ∈ op.values, v.Only P) : (s.gotoMember f op).Refers P := by
  unfold Session.gotoMember
  split
  · exact refers_fail.2 h
  · exact refers_goto.2 ⟨h, hop⟩

lemma Keeps.useMember (h : s.Keeps P) {scene : Scene} (hscene : ∀ v ∈ scene.given, v.Only P)
    (position : Nat) (name : String) (access : Access Template)
    (hnew : Allots P s (s.useMember scene position name access)) :
    (s.useMember scene position name access).Refers P := by
  have hargs : ∀ v ∈ scene.args, v.Only P := fun v hv => hscene v (List.mem_cons_of_mem _ hv)
  refine h.withResult fun f hf => ?_
  rw [Session.useMember, hf] at hnew
  have hmade := h.buildAccess access fun o hle hlt => hnew o hle (by
    simp only [Session.withResult, nextObject_gotoMember]
    exact hlt)
  refine Keeps.gotoMember (keeps_push.2 ⟨by simp [Frame.Fits, Frame.values], hmade.2⟩) f ?_
  exact List.forall_mem_cons.2 ⟨only_foreign.2 (Args.only_foreign hargs hf), hmade.1⟩

lemma Keeps.actFirst (h : s.Keeps P) (actions : List Action) {scene : Scene} {none : Session}
    (hnone : none.Refers P) (hscene : ∀ v ∈ scene.given, v.Only P)
    {frame : List Action → Frame} (hf : ∀ rest, (frame rest).Fits P) :
    (s.actFirst actions scene none frame).Refers P := by
  cases actions with
  | nil => exact hnone
  | cons a rest => exact refers_goto.2 ⟨keeps_push.2 ⟨hf rest, h⟩, hscene⟩

/-- **Host code hands on what it was given and what it makes.** -/
theorem Keeps.actStep (h : s.Keeps P) {scene : Scene} (hscene : ∀ v ∈ scene.given, v.Only P)
    (a : Action) (hnew : Allots P s (s.actStep a scene)) : (s.actStep a scene).Refers P := by
  have hvalue : scene.value.Only P := hscene _ (List.mem_cons_self ..)
  have hargs : ∀ v ∈ scene.args, v.Only P := fun v hv => hscene v (List.mem_cons_of_mem _ hv)
  have herase : ∀ fields : List (String × HostValue), (∀ e ∈ fields, e.2.Only P) →
      ∀ name, ∀ e ∈ erase fields name, e.2.Only P :=
    fun fields hfields name e he => hfields e (List.mem_of_mem_filter he)
  cases a with
  | const t => exact refers_give.2 (keeps_build s t hnew h).symm
  | throw text => exact refers_throw.2 h
  | panic payload =>
    exact refers_goto.2 ⟨h, by simp [Control.Fits, Control.values, outcomeValues]⟩
  | eval script => exact h.operateHere (by simp [Operation.values])
  | getVariable name => exact h.operateHere (by simp [Operation.values])
  | setVariable name t =>
    have hmade := keeps_build s t
      (fun o hle hlt => hnew o hle (Nat.lt_of_lt_of_eq hlt (nextObject_operateHere ..).symm)) h
    exact hmade.2.operateHere (by simpa [Operation.values] using hmade.1)
  | flush => exact h.operateHere (by simp [Operation.values])
  | dispose =>
    exact h.withBridge (n := fun s b => (s.push (.keeping b)).goto (.dispose b)) fun b => by
      simp [Frame.Fits, Frame.values, Control.Fits, Control.values, h]
  | isDisposed =>
    exact h.withBridge (n := fun s b => s.give (.bool (s.engine? b).isNone)) fun b => by simp [h]
  | used =>
    exact h.withBridge
      (n := fun s b => s.give (.ofWide ((s.bridge? b).elim 0 fun br => br.arena.occupancy.used)))
      fun b => by simp [h]
  | drop register => exact h.dropRegister register
  | dropBridge =>
    refine refers_give.2 ⟨?_, only_bool _⟩
    unfold leaveBridge
    split
    · exact h.updateBridge_of_arena fun _ => rfl
    · exact h
  | field name => exact refers_give.2 ⟨h, only_lookup (h.only_fieldsOf _) name⟩
  | ident => exact refers_give.2 ⟨h, only_string _⟩
  | storeValue field kind =>
    refine h.withResult fun v hv => refers_finish.2 (h.storeField ?_ _ _)
    exact only_storedValue hvalue hv
  | sink => exact refers_finish.2 h
  | echo => exact refers_give.2 ⟨h, only_array.2 hargs⟩
  | label text => exact refers_give.2 ⟨h, only_string _⟩
  | arity => exact refers_give.2 ⟨h, by simp⟩
  | arg kind position =>
    exact h.withResult fun v hv => refers_give.2 ⟨h, Args.only_get hargs hv⟩
  | store field kind position =>
    exact h.withResult fun v hv =>
      refers_finish.2 (h.storeField (Args.only_get hargs hv) _ _)
  | forget field =>
    exact refers_give.2 ⟨h.updateFields _ fun fields hf => herase fields hf field, only_bool _⟩
  | save register position =>
    exact h.withResult fun v hv =>
      refers_give.2 ⟨h.setRegister (Args.only_value hargs hv) register, only_bool _⟩
  | invoke position name args => exact h.useMember hscene position name (.invoke args) hnew
  | get position name => exact h.useMember hscene position name .get hnew
  | set position name t => exact h.useMember hscene position name (.set t) hnew
  | seq actions =>
    exact h.actFirst actions (refers_finish.2 h) hscene fun rest => ⟨only_null, hscene⟩
  | list actions =>
    exact h.actFirst actions (refers_give.2 ⟨h, by simp⟩) hscene fun rest => ⟨by simp, hscene⟩
  | attempt action =>
    exact refers_goto.2 ⟨keeps_push.2 ⟨by simp [Frame.Fits, Frame.values], h⟩, hscene⟩

end Session

end ScriptBridge
