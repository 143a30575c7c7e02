/-
# Objects in use

Host code runs on an object under a use of it: a getter shares the object with others, a setter, a
method or a dispose hook has it alone.  What would use an object that others have alone, or alone
an object that others have, is refused and does nothing.  Uses end in the order opposite to that in
which they began, however host code ends, so that every object is free again when a program waits.
-/
import ScriptBridge.Proofs.Session.AtWork
import ScriptBridge.Proofs.Session.Stage

namespace ScriptBridge.Session

open ScriptBridge.Bridge ScriptBridge.Host ScriptBridge.Table ScriptBridge.Wire

variable {s s' t : Session} {b : Nat} {f : Frame} {o : HostObject} {S T : List Role} {u : Borrow}
  {types : List HostType} {setups : List Setup} {hist older : List Session}

/-! ### A stage in order -/

/-- The uses of objects on stage. -/
abbrev borrowsOf (T : List Role) : List Borrow := T.filterMap Role.borrow?

lemma borrowsOf_replicate (o : HostObject) (n : Nat) (T : List Role) :
    borrowsOf (List.replicate n (.scene o) ++ T) = borrowsOf T := by
  rw [borrowsOf, List.filterMap_append, List.filterMap_replicate_of_none rfl, List.nil_append]

/-- Whether the host itself uses an object. -/
def Use.IsHosts (use : Use) : Prop := ∃ exclusive, use = .host exclusive

/-- What is on stage is in order: uses go together, host code works on what is used last, and a
command that waits for a look at its outcome has left nothing in use. -/
inductive Staged : List Role → Prop
  /-- Nothing is on stage. -/
  | nil : Staged []
  /-- An object is used. -/
  | use {u : Borrow} {T : List Role} (h : Staged T) (hu : ∀ w ∈ borrowsOf T, u.Suits w) :
    Staged (.use u :: T)
  /-- Host code goes on with the object that is used last. -/
  | scene {o : HostObject} {T : List Role} (h : Staged T)
    (ho : (borrowsOf T).head?.map (·.object) = some o) : Staged (.scene o :: T)
  /-- A look at the outcome of a command is waited for. -/
  | pause {T : List Role} (h : Staged T) (hT : ∀ w ∈ borrowsOf T, w.use.IsHosts) :
    Staged (.pause :: T)

namespace Staged

/-- Host code may have any number of things to do with its object. -/
lemma replicate (h : Staged T) (ho : (borrowsOf T).head?.map (·.object) = some o) (n : Nat) :
    Staged (List.replicate n (.scene o) ++ T) := by
  induction n with
  | zero => exact h
  | succ n ih =>
    rw [List.replicate_succ, List.cons_append]
    exact .scene ih (by rw [borrowsOf_replicate, ho])

lemma plays (h : Staged S) (hp : Plays S T) : Staged T := by
  cases hp with
  | rests => exact h
  | continues n =>
    cases h with
    | scene h ho => exact h.replicate ho n
  | begins hfree => exact .scene (h.use hfree) rfl
  | ends =>
    cases h with
    | use h => exact h

lemma performs (h : Staged S) (hp : Performs S T) : Staged T := by
  cases hp with
  | plays hp => exact h.plays hp
  | begins => exact .pause .nil nofun
  | lends o exclusive =>
    exact .pause (.use .nil nofun) (List.forall_mem_singleton.2 ⟨exclusive, rfl⟩)
  | ends =>
    cases h with
    | pause h => exact h

lemma pairwise (h : Staged T) : (borrowsOf T).Pairwise Borrow.Suits := by
  induction h with
  | nil => exact .nil
  | use _ hu ih => exact .cons hu ih
  | scene _ _ ih => exact ih
  | pause _ _ ih => exact ih

end Staged

lemma stage_of_create (h : create types setups = .ok s) : s.stage = [] := by
  unfold create at h
  cases hmap : setups.mapM Bridge.create with
  | error err => rw [hmap] at h; cases h
  | ok bridges => rw [hmap] at h; cases h; rfl

/-- **The stage is in order at all times.** -/
theorem History.staged (h : History types setups hist) : ∀ s ∈ hist, Staged s.stage := by
  induction h with
  | starts hcreate =>
    exact List.forall_mem_singleton.2 (by rw [stage_of_create hcreate]; exact .nil)
  | goes h hgo ih =>
    exact List.forall_mem_cons.2 ⟨(ih _ (List.mem_cons_self ..)).performs hgo.performs, ih⟩

/-! ### What begins ends -/

/-- A use of an object goes together with all that have not ended. -/
def Lends (s : Session) (u : Borrow) : Prop := ∀ w ∈ s.borrows, u.Suits w

/-- What becomes of the uses of objects. -/
inductive Lent (s s' : Session) : Prop
  /-- They go on. -/
  | same (h : s'.borrows = s.borrows)
  /-- The last one ends. -/
  | ends (u : Borrow) (h : s.borrows = u :: s'.borrows)
  /-- One more begins, which goes together with all others. -/
  | begins (u : Borrow) (h : s'.borrows = u :: s.borrows) (hu : s.Lends u)

/-- **Uses of objects begin and end one by one**, the last one first. -/
theorem Goes.lent (h : Goes s s') : Lent s s' := by
  have hS := filterMap_stage s
  have hT := filterMap_stage s'
  have hperforms := h.performs
  generalize s.stage = S at hS hperforms
  generalize s'.stage = T at hT hperforms
  cases hperforms with
  | plays hplays =>
    cases hplays with
    | rests => exact .same (hT.symm.trans hS)
    | continues n =>
      rw [show List.filterMap _ _ = _ from borrowsOf_replicate ..] at hT
      exact .same (hT.symm.trans hS)
    | @begins u _ hfree => exact .begins u (by rw [← hT, ← hS]; rfl) (by rwa [Lends, ← hS])
    | @ends u => exact .ends u (by rw [← hT, ← hS]; rfl)
  | begins => exact .same (hT.symm.trans hS)
  | lends o exclusive =>
    exact .begins ⟨o, .host exclusive⟩ (by rw [← hT, ← hS]; rfl) (by rw [Lends, ← hS]; nofun)
  | ends => exact .same (hT.symm.trans hS)

/-- A use of an object, and all that began before, stay until it ends. -/
lemma Lent.suffix {below : List Borrow} (h : Lent s s') (hs : u :: below <:+ s.borrows) :
    u :: below <:+ s'.borrows ∨ s'.borrows = below := by
  cases h with
  | same h => exact .inl (h ▸ hs)
  | ends w h =>
    rw [h] at hs
    rcases List.suffix_cons_iff.1 hs with heq | hs
    · exact .inr (List.cons.inj heq).2.symm
    · exact .inl hs
  | begins w h => exact .inl (h ▸ hs.trans (List.suffix_cons ..))

lemma borrows_lettingGo (before : Session) : (before.lettingGo t).borrows = t.borrows := by
  rw [← filterMap_stage, stage_lettingGo, filterMap_stage]

/-- **A use of an object ends with the host code that it was for**, whether that gave a value,
failed or broke off. -/
lemma Goes.ends {r : Outcome} {rest : List Frame} (h : Goes s s') (ht : s.tidy? = none)
    (hc : s.control = .done r) (hf : s.frames = f :: rest) (hu : f.borrow? = some u) :
    s.borrows = u :: s'.borrows := by
  have hpopped : s.borrows = u :: ({ s with frames := rest } : Session).borrows := by
    rw [borrows, hf]
    exact List.filterMap_cons_some hu
  have hdone : (({ s with frames := rest } : Session).doneStep f r).borrows =
      ({ s with frames := rest } : Session).borrows := by
    cases f <;> cases hu
    case hook =>
      unfold doneStep
      dsimp only
      split <;> rfl
    all_goals rfl
  rw [h.eq_lettingGo ht (fun b => by simp [hc])
    (proceed?_of_done hc hf fun heq => by rw [heq] at hu; cases hu), borrows_lettingGo, hdone,
    hpopped]

/-- **When a use of an object ends, everything else is in use as it was before.** -/
lemma History.restored {newer : List Session} {below : List Borrow}
    (h : History types setups (newer ++ s :: older)) (hs : u :: below <:+ s.borrows)
    {newest between : List Session} (hnewer : newer = newest ++ t :: between)
    (hbetween : ∀ w ∈ between, u :: below <:+ w.borrows) :
    u :: below <:+ t.borrows ∨ t.borrows = below := by
  subst hnewer
  rw [List.append_assoc, List.cons_append] at h
  obtain ⟨v, rest, hrest, hv⟩ : ∃ v rest, between ++ s :: older = v :: rest ∧
      u :: below <:+ v.borrows := by
    cases between with
    | nil => exact ⟨s, older, rfl, hs⟩
    | cons v between => exact ⟨v, _, rfl, hbetween v (List.mem_cons_self ..)⟩
  have hearlier := h.earlier
  rw [hrest] at hearlier
  cases hearlier with
  | goes _ hgo => exact hgo.lent.suffix hv

/-! ### Outside of all operations -/

lemma AtRest.scope_of_serving {T : List Mark} {c : Engine.Control} {st : List Engine.Frame}
    (h : AtRest T c st) (hm : .serving ∈ T) : .scope ∈ T := by
  induction h with
  | nil => cases hm
  | scope => exact List.mem_cons_self ..
  | decode hs | perform hs => exact List.mem_cons_of_mem _ hs
  | awaits _ hs => exact List.mem_cons_of_mem _ (List.mem_cons_of_mem _ hs)
  | other _ ih | drain _ _ ih =>
    exact List.mem_cons_of_mem _ (ih ((List.mem_cons.1 hm).resolve_left nofun))
  | gives _ _ _ ih =>
    have hm := (List.mem_cons.1 ((List.mem_cons.1 hm).resolve_left nofun)).resolve_left nofun
    exact List.mem_cons_of_mem _ (List.mem_cons_of_mem _ (ih hm))

lemma Nested.scope_of_serving {e : Engine} {T : List Mark} (h : Nested e T) (hm : .serving ∈ T) :
    .scope ∈ T := by
  cases h with
  | rests h => exact h.scope_of_serving hm
  | works _ h =>
    have hm := (List.mem_cons.1 ((List.mem_cons.1 hm).resolve_left nofun)).resolve_left nofun
    exact List.mem_cons_of_mem _ (List.mem_cons_of_mem _ (h.scope_of_serving hm))

/-- **Host code works for a callback within an operation only.** -/
lemma History.inCall_of_isCallback (h : History types setups hist) (hs : s ∈ hist)
    (hf : f ∈ s.frames) (hb : f.isCallback b = true) : s.inCall b = true := by
  have hserving : .serving ∈ s.trail b := by
    refine List.mem_cons_of_mem _ (List.mem_map.2 ⟨f, hf, ?_⟩)
    cases f <;> first | cases hb | exact if_pos hb
  cases he : s.engine? b with
  | none => cases (h.retired hs he).idle _ hserving
  | some e =>
    obtain ⟨x, hx, -⟩ := side?_isSome_of_engine? he
    rw [← Bool.not_eq_false]
    intro hcall
    refine not_scope_of_inCall hcall ?_
    rw [(side?_eq_some.1 hx).2] at hserving ⊢
    exact (h.accounted hs hx).nested.scope_of_serving hserving

/-- Outside of all operations, only dispose hooks and the host itself use objects. -/
lemma History.use_of_not_inCall (h : History types setups hist) (hs : s ∈ hist)
    (hcall : ∀ b, s.inCall b = false) (hu : u ∈ s.borrows) : u.use = .hook ∨ u.use.IsHosts := by
  obtain ⟨f, hf, hborrow⟩ := mem_borrows.1 hu
  have hnone : ∀ b, f.isCallback b ≠ true := fun b hb => by
    have hin := h.inCall_of_isCallback hs hf hb
    rw [hcall b] at hin
    cases hin
  cases f <;> cases hborrow
  case hook => exact .inl rfl
  case borrowed exclusive => exact .inr ⟨exclusive, rfl⟩
  case getting b _ _ => exact absurd (beq_self_eq_true b) (hnone b)
  case setting b _ _ => exact absurd (beq_self_eq_true b) (hnone b)
  case calling b _ _ => exact absurd (beq_self_eq_true b) (hnone b)

/-- When nothing is left to do, or a look at an outcome is waited for, only the host itself uses
objects. -/
lemma Staged.use_of_step? (h : Staged s.stage) (hr : s.step? = none) (hu : u ∈ s.borrows) :
    u.use.IsHosts := by
  obtain ⟨r, hc⟩ := control_of_step? hr
  rw [← filterMap_cast] at hu
  rw [stage_of_role? (by rw [hc]; rfl)] at h
  rcases frames_of_step?_eq_none hr with hf | ⟨rest, hf⟩
  · rw [cast, hf] at hu
    cases hu
  · rw [cast_of_cons hf] at h hu
    cases h with
    | pause _ hT => exact hT u hu

/-! ### Access to objects -/

/-- An access to an object, which host code is to run for. -/
structure Attempt where
  /-- The bridge whose script it comes from. -/
  bridge : Nat
  /-- The use of the object. -/
  borrow : Borrow
  /-- The frame that waits for the host code. -/
  frame : Frame
  /-- What else waits. -/
  below : List Frame
  /-- The host code. -/
  action : Action
  /-- What the host code works on. -/
  scene : Scene

/-- A session is about to run host code for an access, unless the object is in use. -/
inductive Attempts (s : Session) : Attempt → Prop
  /-- Script reads a property that has a getter. -/
  | get {b : Nat} {e : Engine} {slot : Slot} {name : String} {o : HostObject} {g : Getter}
    (hc : s.control = .engine b) (he : s.engine? b = some e)
    (hr : e.step.2 = .request (.get slot name)) (ho : s.entryOf? b slot = some (.object o))
    (hg : (s.typeOf o).description.getter name = some g) :
    Attempts s
      ⟨b, ⟨o, .getter⟩, .getting b o g.fallible, s.frames, g.action, ⟨o, [], .null⟩⟩
  /-- Script assigns a property that has a setter; its value is there. -/
  | set {b : Nat} {o : HostObject} {setter : Action} {v : HostValue} {below : List Frame}
    (ht : s.tidy? = none) (hc : s.control = .done (.ok v))
    (hf : s.frames = .assignee b o setter :: below) :
    Attempts s ⟨b, ⟨o, .setter⟩, .setting b o v, below, setter, ⟨o, [], v⟩⟩
  /-- Script calls a method; its arguments are there, and there is an overload for them. -/
  | call {b : Nat} {o : HostObject} {name : String} {v : HostValue} {below : List Frame}
    {overload : Overload Action} (ht : s.tidy? = none) (hc : s.control = .done (.ok v))
    (hf : s.frames = .callee b o name :: below)
    (hr : (s.typeOf o).description.resolve name (v.asArray.getD [v]) = .ok overload) :
    Attempts s ⟨b, ⟨o, .method⟩, .calling b o (v.asArray.getD [v]), below, overload.body,
      ⟨o, v.asArray.getD [v], .null⟩⟩

/-- One session goes on as another, if need be after what nothing refers to any more has been let
go of. -/
def GoesOnAs (t s' : Session) : Prop := s' = t ∨ ∃ vs, s' = t.interrupt (.drop vs)

/-- What comes of an access.  Nothing that belongs to the host has changed yet; if the use goes
together with all others, its host code runs next, and otherwise script is told that the object is
in use. -/
structure Decides (s : Session) (x : Attempt) (t : Session) : Prop where
  objects : t.objects = s.objects
  registers : t.registers = s.registers
  runs : s.Lends x.borrow → t.control = .act x.action x.scene ∧ t.frames = x.frame :: x.below ∧
    t.borrows = x.borrow :: s.borrows
  refuses : ¬ s.Lends x.borrow →
    t.control = .respond x.bridge (.error (.reentrant x.borrow.object.typeName)) ∧
      t.frames = x.below ∧ t.borrows = s.borrows

lemma goesOnAs_lettingGo (before : Session) : GoesOnAs t (before.lettingGo t) :=
  lettingGo_cases before t

lemma entryOf?_updateBridge {g : Bridge → Bridge} (hg : ∀ br, (g br).arena = br.arena)
    (slot : Slot) : (s.updateBridge b g).entryOf? b slot = s.entryOf? b slot := by
  rw [entryOf?, entryOf?, bridge?_updateBridge, if_pos rfl, Option.bind_map]
  exact congrArg _ (funext fun br => by rw [Function.comp_apply, hg])

/-- An engine makes a request, which is counted. -/
def asked (s : Session) (b : Nat) (e : Engine) (crossing : Crossing) : Session :=
  (s.updateBridge b ({ · with engine := some e })).record b crossing

lemma entryOf?_asked (s : Session) (b : Nat) (e : Engine) (crossing : Crossing) (slot : Slot) :
    (s.asked b e crossing).entryOf? b slot = s.entryOf? b slot := by
  rw [asked, record, entryOf?_updateBridge (g := (·.record crossing)) fun _ => rfl,
    entryOf?_updateBridge (g := ({ · with engine := some e })) fun _ => rfl]

lemma engineStep_request {e : Engine} {q : Engine.Request} (he : s.engine? b = some e)
    (hq : e.step.2 = .request q) :
    s.engineStep b = (s.updateBridge b ({ · with engine := some e.step.1 })).serve b q := by
  rw [engineStep, he]
  dsimp only
  rw [hq]

/-- A property of an object is read. -/
lemma engineStep_get {e : Engine} {slot : Slot} {name : String} (he : s.engine? b = some e)
    (hr : e.step.2 = .request (.get slot name)) (ho : s.entryOf? b slot = some (.object o)) :
    s.engineStep b = (s.asked b e.step.1 .getProperty).readObject b o name := by
  rw [engineStep_request he hr, serve, ← asked, readProperty, entryOf?_asked, ho]

lemma decides_change {p : Session} {use : Use} (hu : use.isShared = false)
    (hborrows : p.borrows = s.borrows) (hobjects : p.objects = s.objects)
    (hregisters : p.registers = s.registers) (hf : f.borrow? = some ⟨o, use⟩) (a : Action)
    (scene : Scene) : Decides s ⟨b, ⟨o, use⟩, f, p.frames, a, scene⟩ (p.change b o f a scene) := by
  have hlends : s.Lends ⟨o, use⟩ ↔ p.isBorrowed o = false := by
    rw [Lends, ← hborrows, suits_of_not_isShared hu]
  have hpush : (p.push f).borrows = ⟨o, use⟩ :: s.borrows := by
    rw [← hborrows]
    exact List.filterMap_cons_some hf
  unfold change
  split
  · next hborrowed =>
    exact ⟨hobjects, hregisters, fun h => absurd hborrowed (by rw [hlends.1 h]; nofun),
      fun _ => ⟨rfl, rfl, hborrows⟩⟩
  · next hfree =>
    exact ⟨hobjects, hregisters, fun _ => ⟨rfl, rfl, hpush⟩,
      fun h => absurd (hlends.2 (Bool.eq_false_iff.2 hfree)) h⟩

lemma callMethod_eq {name : String} {v : HostValue} {overload : Overload Action}
    (hr : (s.typeOf o).description.resolve name (v.asArray.getD [v]) = .ok overload) :
    s.callMethod b o name v = (s.updateBridge b (·.describe o.type)).change b o
      (.calling b o (v.asArray.getD [v])) overload.body ⟨o, v.asArray.getD [v], .null⟩ := by
  have hr' : ((s.updateBridge b (·.describe o.type)).typeOf o).description.resolve name
      (v.asArray.getD [v]) = .ok overload := hr
  rw [callMethod, hr']

lemma borrows_of_cons {rest : List Frame} (hf : s.frames = f :: rest) (h : f.borrow? = none) :
    ({ s with frames := rest } : Session).borrows = s.borrows := by
  rw [borrows, borrows, hf, List.filterMap_cons_none h]

/-- **Host code runs for an access exactly if its use of the object goes together with all others**;
otherwise the access is refused. -/
theorem Attempts.decides {x : Attempt} (h : s.Attempts x) (hgo : Goes s s') :
    ∃ t, GoesOnAs t s' ∧ Decides s x t := by
  cases h with
  | @get b e slot name o g hc he hr ho hg =>
    refine ⟨s', .inl rfl, ?_⟩
    have hlends : s.Lends ⟨o, .getter⟩ ↔ s.isWriting o = false := suits_getter
    rw [hgo.eq_engineStep hc, engineStep_get he hr ho, readObject]
    dsimp only
    have hg' : (((s.asked b e.step.1 .getProperty).updateBridge b (·.describe o.type)).typeOf
        o).description.getter name = some g := hg
    rw [hg']
    dsimp only
    split
    · next hwriting =>
      have hwriting : s.isWriting o = true := hwriting
      exact ⟨rfl, rfl, fun h => absurd hwriting (by rw [hlends.1 h]; nofun),
        fun _ => ⟨rfl, rfl, rfl⟩⟩
    · next hfree =>
      exact ⟨rfl, rfl, fun _ => ⟨rfl, rfl, rfl⟩,
        fun h => absurd (hlends.2 (Bool.eq_false_iff.2 hfree)) h⟩
  | @set b o setter v below ht hc hf =>
    rw [hgo.eq_lettingGo ht (fun c => by rw [hc]; nofun) (proceed?_of_done hc hf nofun)]
    exact ⟨_, goesOnAs_lettingGo _, decides_change (p := { s with frames := below }) rfl
      (borrows_of_cons hf rfl) rfl rfl rfl ..⟩
  | @call b o name v below overload ht hc hf hr =>
    rw [hgo.eq_lettingGo ht (fun c => by rw [hc]; nofun) (proceed?_of_done hc hf nofun)]
    refine ⟨_, goesOnAs_lettingGo _, ?_⟩
    rw [show ({ s with frames := below } : Session).doneStep (.callee b o name) (.ok v) =
      ({ s with frames := below } : Session).callMethod b o name v from rfl,
      callMethod_eq (s := { s with frames := below }) hr]
    exact decides_change (p := ({ s with frames := below } : Session).updateBridge b _) rfl
      (borrows_of_cons hf rfl) rfl rfl rfl ..

/-- Script reads the name of a method of an object. -/
structure Probes (s : Session) (b : Nat) (o : HostObject) (name : String) : Prop where
  control : s.control = .engine b
  request : ∃ e slot, s.engine? b = some e ∧ e.step.2 = .request (.get slot name) ∧
    s.entryOf? b slot = some (.object o)
  getter : (s.typeOf o).description.getter name = none
  method : (s.typeOf o).description.hasMethod name = true

/-- The answer is the method, unless there is no slot for it. -/
structure GivesMethod (s : Session) (b : Nat) (o : HostObject) (name : String) (s' : Session) :
    Prop where
  objects : s'.objects = s.objects
  frames : s'.frames = s.frames
  answer : (∃ slot, s'.control = .answer b (.ok (.managed slot)) ∧
      s'.entryOf? b slot = some (.method o name)) ∨
    ∃ br, s.bridge? b = some br ∧ br.arena.add (.method o name) = none ∧
      s'.control = .answer b (.error (BridgeError.interop .arenaExhausted).cause)

/-- A method is looked up on an object. -/
lemma readObject_method {name : String} {br : Bridge} (hbr : s.bridge? b = some br)
    (hg : (s.typeOf o).description.getter name = none)
    (hm : (s.typeOf o).description.hasMethod name = true) :
    s.GivesMethod b o name (s.readObject b o name) := by
  have hbr' : (s.updateBridge b (·.describe o.type)).bridge? b = some (br.describe o.type) := by
    rw [bridge?_updateBridge, if_pos rfl, hbr, Option.map_some]
  have harena : (br.describe o.type).arena = br.arena := by
    unfold Bridge.describe
    split <;> rfl
  have hg' : ((s.updateBridge b (·.describe o.type)).typeOf o).description.getter name = none := hg
  have hm' : ((s.updateBridge b (·.describe o.type)).typeOf o).description.hasMethod name = true :=
    hm
  rw [readObject]
  dsimp only
  rw [hg']
  dsimp only
  rw [if_pos hm', hbr']
  dsimp only
  refine ⟨rfl, rfl, ?_⟩
  rw [harena, pin]
  cases hadd : br.arena.add (.method o name) with
  | none => exact .inr ⟨br, hbr, hadd, rfl⟩
  | some added =>
    obtain ⟨slot, a⟩ := added
    refine .inl ⟨slot, rfl, ?_⟩
    change ((s.updateBridge b (·.describe o.type)).updateBridge b ({ · with arena := a })).entryOf?
      b slot = _
    rw [entryOf?, bridge?_updateBridge, if_pos rfl, hbr', Option.map_some, Option.bind_some]
    exact (Arena.get?_add hadd slot).trans (if_pos rfl)

/-- **A method can be looked up whether its object is in use or not.** -/
theorem Probes.givesMethod {name : String} (h : s.Probes b o name) (hgo : Goes s s') :
    s.GivesMethod b o name s' := by
  obtain ⟨e, slot, he, hr, ho⟩ := h.request
  obtain ⟨br, hbr, -⟩ := Option.bind_eq_some_iff.1 he
  let u := s.asked b e.step.1 .getProperty
  have hbr' : u.bridge? b = some (({ br with engine := some e.step.1 } : Bridge).record
      .getProperty) := by
    rw [show u.bridge? b = _ from bridge?_updateBridge .., if_pos rfl, bridge?_updateBridge,
      if_pos rfl, hbr, Option.map_some, Option.map_some]
  obtain ⟨hobjects, hframes, hanswer⟩ := readObject_method (s := u) hbr' h.getter h.method
  rw [hgo.eq_engineStep h.control, engineStep_get he hr ho]
  refine ⟨hobjects, hframes, hanswer.imp_right ?_⟩
  rintro ⟨br', hbr'', hadd, hc⟩
  obtain rfl := Option.some.inj (hbr'.symm.trans hbr'')
  exact ⟨br, hbr, hadd, hc⟩

/-! ### Borrow discipline -/

/-- **Borrow discipline of host objects.**  At every moment, two uses of one object that have not
ended are both such that others may use it meanwhile: getters, and the host's own shared use.  Host
code works on the object that came into use last.  An access runs host code exactly if its use goes
together with all others; otherwise nothing has changed, and script is told that the object is in
use.  Methods can be looked up at any time.  Uses begin and end one by one; one ends with its host
code, whatever came of that, and then all objects are in use as they were before it began.  Outside
of all operations only dispose hooks and the host itself use objects, and when a program waits only
the host does. -/
theorem History.borrow_discipline {newer : List Session}
    (h : History types setups (newer ++ s :: older)) :
    s.borrows.Pairwise Borrow.Suits ∧
    (∀ a scene, s.control = .act a scene → s.borrows.head?.map (·.object) = some scene.this) ∧
    (∀ x s', s.Attempts x → Goes s s' → ∃ t, GoesOnAs t s' ∧ Decides s x t) ∧
    (∀ b o name s', s.Probes b o name → Goes s s' → s.GivesMethod b o name s') ∧
    (∀ s', Goes s s' → Lent s s') ∧
    (∀ f rest u r s', s.frames = f :: rest → f.borrow? = some u → s.control = .done r →
      s.tidy? = none → Goes s s' → s.borrows = u :: s'.borrows) ∧
    (∀ u below, u :: below <:+ s.borrows → ∀ newest t between, newer = newest ++ t :: between →
      (∀ w ∈ between, u :: below <:+ w.borrows) →
        u :: below <:+ t.borrows ∨ t.borrows = below) ∧
    ((∀ b, s.inCall b = false) → ∀ u ∈ s.borrows, u.use = .hook ∨ u.use.IsHosts) ∧
    (s.step? = none → ∀ u ∈ s.borrows, u.use.IsHosts) := by
  have hs : s ∈ newer ++ s :: older := List.mem_append_right _ (List.mem_cons_self ..)
  have hstaged := h.staged s hs
  refine ⟨?_, fun a scene hc => ?_, fun x s' hx hgo => hx.decides hgo,
    fun b o name s' hprobes hgo => hprobes.givesMethod hgo, fun s' hgo => hgo.lent,
    fun f rest u r s' hf hu hc ht hgo => hgo.ends ht hc hf hu,
    fun u below hbelow newest t between hnewer hbetween =>
      h.restored hbelow hnewer hbetween,
    fun hcall u hu => h.use_of_not_inCall hs hcall hu, fun hr u hu => hstaged.use_of_step? hr hu⟩
  · rw [← filterMap_stage]
    exact hstaged.pairwise
  · rw [← filterMap_cast]
    rw [stage, hc] at hstaged
    cases hstaged with
    | scene _ ho => exact ho

/-! ### A method that is in the way of a getter -/

/-- A host type with a property, and a method that runs a script that reads it. -/
def visitedType : HostType :=
  .described [.getter "n" ⟨.ident, true⟩,
    .method "visit" [] (.eval (.op (.get "n") [.var "x"]))] none

/-- A program in which script calls that method. -/
def visiting : List Session :=
  follow 100 (tell 0 (.evaluate (.callMember (.var "x") "visit" []))
    (obey 40 0 (.setVariable "x" (.fresh 0 "x" [])) none (made [visitedType] [{}])))

/-- Whether a getter has been refused while a method runs. -/
def isShutOut (s : Session) : Bool :=
  match s.control, s.borrows with
  | .respond 0 (.error (.reentrant "Dyn")), [⟨_, .method⟩] => true
  | _, _ => false

/-- While a method runs its object cannot be read, and afterwards the object is free again. -/
theorem borrow_discipline_visiting : ∃ newer s older u, visiting = newer ++ s :: older ∧
    s.control = .respond 0 (.error (.reentrant "Dyn")) ∧ s.borrows = [u] ∧ u.use = .method ∧
    ∀ newest t between, newer = newest ++ t :: between → (∀ w ∈ between, [u] <:+ w.borrows) →
      [u] <:+ t.borrows ∨ t.borrows = [] := by
  have hany : visiting.any isShutOut = true := by decide +kernel
  have h : History [visitedType] [{}] visiting :=
    (((history_made (by decide +kernel)).obey ..).tell ..).follow _
  generalize visiting = hist at hany h ⊢
  obtain ⟨s, hs, hshut⟩ := List.any_eq_true.1 hany
  obtain ⟨newer, older, rfl⟩ := List.append_of_mem hs
  unfold isShutOut at hshut
  split at hshut
  · next o hc hborrows =>
    refine ⟨newer, s, older, ⟨o, .method⟩, rfl, hc, hborrows, rfl, ?_⟩
    exact h.borrow_discipline.2.2.2.2.2.2.1 _ _ (hborrows ▸ List.suffix_refl _)
  · cases hshut

end ScriptBridge.Session
