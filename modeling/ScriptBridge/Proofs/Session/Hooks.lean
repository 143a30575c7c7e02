/-
# Dispose hooks

The dispose hook of a host object runs when an entry that refers to the object is let go of and
nothing else refers to it any more.  What the hook works on is not handed on, so from then on
nothing refers to the object but the hook itself, and it is not disposed again.
-/
import ScriptBridge.Proofs.Session.Origins
import ScriptBridge.Proofs.Session.Resolution

namespace ScriptBridge

open ScriptBridge.Bridge ScriptBridge.Host ScriptBridge.Host.HostValue ScriptBridge.Table
open ScriptBridge.Wire

/-- Whether the objects of a type have a dispose hook. -/
def Host.HostType.hasHook (t : HostType) : Bool := t.logged || t.hook.isSome

namespace Session

variable {P : Stock} {s s' t : Session} {o p : HostObject} {types : List HostType}
  {setups : List Setup} {hist older : List Session}

/-! ### What refers to an object -/

/-- The values that are about to be used; those that are let go of, and the host object that host
code works on, do not count. -/
def Control.shared : Control → List HostValue
  | .act _ scene => scene.given
  | .drop _ => []
  | ctl => ctl.values

/-- The values that a frame keeps for use; the host object of a dispose hook, and the one that host
code works on, do not count. -/
def Frame.shared : Frame → List HostValue
  | .interrupted ctl => ctl.shared
  | .hook _ => []
  | .sequence _ last scene => last :: scene.given
  | .listing _ results scene => results ++ scene.given
  | f => f.values

/-- The values that are kept for use. -/
def shared (s : Session) : List HostValue :=
  s.control.shared ++ s.frames.flatMap Frame.shared ++ s.registers.map Prod.snd ++
    s.objects.flatMap (fun st => st.fields.map Prod.snd) ++ s.bridges.flatMap arenaValues

lemma Control.Fits.shared {ctl : Control} (h : ctl.Fits P) : ∀ v ∈ ctl.shared, v.Only P := by
  cases ctl with
  | act a scene => exact h
  | release entries =>
    simp only [Control.shared, Control.values, List.forall_mem_map, List.mem_filterMap,
      only_object]
    rintro o ⟨e, he, ho⟩
    exact (h e he).1 o ho
  | drop vs => exact List.forall_mem_nil _
  | _ => exact h

lemma Frame.Fits.shared {f : Frame} (h : f.Fits P) : ∀ v ∈ f.shared, v.Only P := by
  cases f with
  | interrupted ctl => exact Control.Fits.shared h
  | hook o => exact List.forall_mem_nil _
  | «sequence» rest last scene => exact List.forall_mem_cons.2 h
  | listing rest results scene => exact List.forall_mem_append.2 h
  | _ => exact h

lemma Refers.shared (h : s.Refers P) : ∀ v ∈ s.shared, v.Only P := by
  simp only [Session.shared, List.forall_mem_append, List.forall_mem_map,
    List.forall_mem_flatMap, arenaValues, List.mem_filterMap, only_object]
  refine ⟨⟨⟨⟨h.control.shared, fun f hf => (h.keeps.frames f hf).shared⟩, h.keeps.registers⟩,
    h.keeps.fields⟩, ?_⟩
  rintro br hbr o ⟨e, he, ho⟩
  exact h.keeps.entries br hbr e he o ho

/-! ### What is always in a session -/

/-- What follows on a state: only what it disposes adds to the hooks that run, and the log changes
only for what is disposed, for a hook that fails, and for a command. -/
def Stock.after (s : Session) : Stock where
  ref := fun _ => True
  hook := fun o => .hook o ∈ s.frames ∨ s.Disposes o
  entry := fun _ => True
  log := fun log => log = s.disposed ∨ s.Logs log
  least := s.nextObject

/-- **Only what is disposed has its hook run, and only hooks write to the log.** -/
lemma Goes.after (h : Goes s s') : s'.Refers (.after s) := by
  refine h.refers (refers_of_values (fun _ _ _ _ => trivial) (fun _ => .inl) (fun _ => trivial)
    (.inl rfl) (Nat.le_refl _)) ?_
  exact ⟨fun _ _ _ _ _ _ _ _ => trivial, fun _ _ _ => trivial, fun _ _ => trivial,
    fun _ => .inr, fun _ => .inr⟩

lemma Goes.nextObject_le (h : Goes s s') : s.nextObject ≤ s'.nextObject := h.after.keeps.least

lemma refers_of_create (h : create types setups = .ok s) (hlog : P.log [])
    (hleast : P.least = 0) : s.Refers P := by
  unfold create at h
  cases hmap : setups.mapM Bridge.create with
  | error err =>
    rw [hmap] at h
    cases h
  | ok bridges =>
    rw [hmap] at h
    cases h
    refine ⟨⟨by simp, by simp, by simp, fun br hbr e he => ?_, hlog, Nat.le_of_eq hleast⟩,
      List.forall_mem_singleton.2 only_null⟩
    obtain ⟨setup, -, hcreate⟩ := exists_of_mapM_create hmap hbr
    unfold Bridge.create at hcreate
    dsimp only at hcreate
    split at hcreate
    · cases hcreate
      cases he
    · cases hcreate

/-- Host objects that have been made already. -/
def Stock.known (n : Nat) : Stock where
  ref := fun w => ∀ o, w = .object o → o.key < n
  hook := fun _ => True
  entry := fun _ => True
  log := fun _ => True
  least := 0

/-- Nothing refers to a host object that has not been made yet. -/
lemma History.refers_known (h : History types setups (s :: older)) {n : Nat}
    (hn : s.nextObject ≤ n) : s.Refers (.known n) := by
  generalize heq : s :: older = hist at h
  induction h generalizing s older with
  | starts hcreate =>
    cases heq
    exact refers_of_create hcreate trivial rfl
  | @goes t s' rest h hgo ih =>
    cases heq
    refine hgo.refers (ih (Nat.le_trans hgo.nextObject_le hn) rfl) ?_
    refine ⟨fun _ _ _ _ _ _ f _ o heq => (by cases heq), fun o _ hlt p heq => ?_,
      fun _ _ => trivial, fun _ _ => trivial, fun _ _ => trivial⟩
    cases heq
    exact Nat.lt_of_lt_of_le hlt hn

/-- Entries that were taken out of an arena before. -/
def Stock.yielded (older : List Session) : Stock where
  ref := fun _ => True
  hook := fun _ => True
  entry := fun e => ∃ u ∈ older, u.Yields e
  log := fun _ => True
  least := 0

/-- What is let go of was taken out of an arena before. -/
lemma History.refers_yielded (h : History types setups (s :: older)) {all : List Session}
    (hall : older ⊆ all) : s.Refers (.yielded all) := by
  generalize heq : s :: older = hist at h
  induction h generalizing s older with
  | starts hcreate =>
    cases heq
    exact refers_of_create hcreate trivial rfl
  | @goes t s' rest h hgo ih =>
    cases heq
    refine hgo.refers (ih (fun u hu => hall (List.mem_cons_of_mem _ hu)) rfl) ?_
    exact ⟨fun _ _ _ _ _ _ _ _ => trivial, fun _ _ _ => trivial,
      fun e he => ⟨t, hall (List.mem_cons_self ..), he⟩, fun _ _ => trivial, fun _ _ => trivial⟩

/-! ### From an arena to its end -/

/-- The entries that are let go of next, if need be after what nothing refers to any more. -/
def leaving (s : Session) : List Entry :=
  s.control.entries ++
    match s.frames with
    | f :: _ => f.entries
    | [] => []

lemma mem_leaving_lettingGo {entry : Entry} {before : Session} {entries : List Entry}
    (hc : t.control = .release entries) (he : entry ∈ entries) :
    entry ∈ (before.lettingGo t).leaving := by
  rcases lettingGo_eq before t with heq | ⟨-, vs, -, heq⟩ <;> rw [heq, leaving]
  · rw [hc]
    exact List.mem_append_left _ he
  · refine List.mem_append_right _ ?_
    change entry ∈ t.control.entries
    rw [hc]
    exact he

lemma control_unpin {b : Nat} {slot : Slot} {entry : Entry} {next : Control}
    (he : s.entryOf? b slot = some entry) : (s.unpin b slot next).control = .release [entry] := by
  obtain ⟨br, hb, hget⟩ := Option.bind_eq_some_iff.1 he
  obtain ⟨a, htake⟩ := Arena.take_of_get? hget
  rw [unpin, hb, Option.bind_some, htake]
  rfl

lemma control_removeSlot {b : Nat} {slot : Slot} {entry : Entry} {next : Control}
    (hi : s.inCall b = false) (he : s.entryOf? b slot = some entry) :
    (s.removeSlot b slot next).control = .release [entry] := by
  have hcall : (s.record b .removeSlot).inCall b = false := hi
  unfold removeSlot
  dsimp only
  rw [hcall, if_neg Bool.false_ne_true]
  refine control_unpin ?_
  rw [entryOf?, Session.record, bridge?_updateBridge, if_pos rfl, Option.bind_map]
  exact he

/-- **What is taken out of an arena is let go of next.** -/
lemma Goes.mem_leaving {entry : Entry} (h : Goes s s') (he : s.Yields entry) :
    entry ∈ s'.leaving := by
  cases he with
  | @removal b slot hr he =>
    cases hr with
    | @reported e hc hengine hev hi =>
      have hreleases : (s.engineStep b).control = .release [entry] := by
        unfold engineStep
        rw [hengine]
        dsimp only
        rw [hev]
        refine control_removeSlot hi ?_
        rw [entryOf?, bridge?_updateBridge, if_pos rfl, Option.bind_map]
        exact he
      rw [h.eq_engineStep hc, leaving, hreleases]
      exact List.mem_append_left _ (List.mem_singleton_self _)
    | @deferred slots ht hc =>
      have hp : s.proceed? = some (s.unpin b slot (.drain b slots)) := by
        rw [proceed?, hc]
        rfl
      rw [h.eq_lettingGo ht (by simp [hc]) hp]
      exact mem_leaving_lettingGo (control_unpin he) (List.mem_singleton_self _)
    | @torn slots ht hc hi =>
      have hp : s.proceed? = some (s.removeSlot b slot (.teardown b slots)) := by
        rw [proceed?, hc]
        rfl
      rw [h.eq_lettingGo ht (by simp [hc]) hp]
      exact mem_leaving_lettingGo (control_removeSlot hi he) (List.mem_singleton_self _)
  | @disposal b br ht hc hb he =>
    have hreleases : (s.teardownStep b []).control = .release br.arena.values := by
      rw [teardownStep, hb]
      rfl
    have hp : s.proceed? = some (s.teardownStep b []) := by rw [proceed?, hc]
    rw [h.eq_lettingGo ht (by simp [hc]) hp]
    exact mem_leaving_lettingGo hreleases he

/-! ### Letting go of the last reference -/

/-- How many references to a host object there are. -/
def countOf (s : Session) (o : HostObject) : Nat := (objectsOf s.values).countP (·.same o)

/-- The entry that is let go of is one more reference. -/
lemma countOf_release {entry : Entry} {rest : List Entry}
    (hc : s.control = .release (entry :: rest))
    (ho : entry.target? = some o) : s.countOf o = (s.goto (.release rest)).countOf o + 1 := by
  have hvalues : s.values = .object o :: (s.goto (.release rest)).values := by
    simp only [values, hc, goto, Control.values, List.filterMap_cons, ho, List.map_cons,
      List.cons_append]
  have hsame : o.same o = true := beq_self_eq_true o.key
  rw [countOf, hvalues]
  exact List.countP_cons_of_pos hsame

lemma refersTo_eq_false : s.refersTo o = false ↔ s.countOf o = 0 := by
  rw [refersTo, List.any_eq_false, countOf, List.countP_eq_zero]

lemma disposes_iff : s.Disposes o ↔ s.tidy? = none ∧ s.countOf o = 1 ∧
    ∃ entry rest, s.control = .release (entry :: rest) ∧ entry.target? = some o := by
  constructor
  · rintro ⟨ht, entry, rest, hc, ho, hlast⟩
    exact ⟨ht, by rw [countOf_release hc ho, refersTo_eq_false.1 hlast], entry, rest, hc, ho⟩
  · rintro ⟨ht, hlast, entry, rest, hc, ho⟩
    rw [countOf_release hc ho] at hlast
    exact ⟨ht, entry, rest, hc, ho, refersTo_eq_false.2 (by omega)⟩

/-- The dispose hook of the host object of an entry runs when the entry is let go of. -/
structure RunsHook (s s' : Session) (o : HostObject) : Prop where
  hasHook : (s.typeOf o).hasHook = true
  tidy : s.tidy? = none
  runs : ∃ entry rest, s.control = .release (entry :: rest) ∧ entry.target? = some o ∧
    s' = s.lettingGo ((s.goto (.release rest)).runHook o)

lemma Goes.eq_releaseStep {entries : List Entry} (h : Goes s s') (ht : s.tidy? = none)
    (hc : s.control = .release entries) : s' = s.lettingGo (s.releaseStep entries) :=
  h.eq_lettingGo ht (by rw [hc]; nofun) (by rw [proceed?, hc])

/-- What is let go of besides leaves the log as it is, and one frame on the stack at most. -/
lemma lettingGo_log_frames (before s : Session) :
    (before.lettingGo s).disposed = s.disposed ∧
      s.frames.length ≤ (before.lettingGo s).frames.length ∧
      (before.lettingGo s).frames.length ≤ s.frames.length + 1 := by
  rcases lettingGo_eq before s with heq | ⟨-, vs, -, heq⟩ <;> rw [heq]
  · exact ⟨rfl, Nat.le_refl _, Nat.le_succ _⟩
  · exact ⟨rfl, Nat.le_succ _, Nat.le_refl _⟩

/-- A dispose hook leaves a trace. -/
lemma lettingGo_runHook_ne {before u : Session} (hhook : (u.typeOf o).hasHook = true) :
    before.lettingGo (u.runHook o) ≠ before.lettingGo u := by
  intro heq
  obtain ⟨hlog, hle, -⟩ := lettingGo_log_frames before (u.runHook o)
  obtain ⟨hlog', -, hle'⟩ := lettingGo_log_frames before u
  unfold HostType.hasHook at hhook
  cases hnone : (u.typeOf o).hook with
  | none =>
    rw [hnone, Option.isSome_none, Bool.or_false] at hhook
    rw [runHook_of_none hnone, if_pos hhook] at hlog heq
    rw [heq, hlog'] at hlog
    exact absurd (congrArg List.length hlog) (Nat.ne_of_lt (Nat.lt_succ_self _))
  | some a =>
    rw [heq, (runHook_of_some hnone).2, List.length_cons, List.length_cons] at hle
    omega

/-- The hook of an object that is disposed is what comes next. -/
lemma Goes.eq_of_disposes (h : Goes s s') (ho : s.Disposes o) :
    ∃ entry rest, s.control = .release (entry :: rest) ∧ entry.target? = some o ∧
      (s.goto (.release rest)).refersTo o = false ∧
      s' = s.lettingGo ((s.goto (.release rest)).runHook o) := by
  obtain ⟨ht, entry, rest, hc, hentry, hlast⟩ := ho
  refine ⟨entry, rest, hc, hentry, hlast, ?_⟩
  have hstep := h.eq_releaseStep ht hc
  rw [releaseStep_cons, hentry] at hstep
  dsimp only at hstep
  rwa [hlast, if_neg Bool.false_ne_true] at hstep

/-- **A dispose hook runs exactly when the last reference is an entry that is let go of.** -/
lemma Goes.runsHook_iff (h : Goes s s') :
    RunsHook s s' o ↔ (s.typeOf o).hasHook = true ∧ s.Disposes o := by
  constructor
  · rintro ⟨hhook, ht, entry, rest, hc, ho, heq⟩
    refine ⟨hhook, ht, entry, rest, hc, ho, ?_⟩
    have hstep := h.eq_releaseStep ht hc
    rw [releaseStep_cons, ho] at hstep
    dsimp only at hstep
    cases hshared : (s.goto (.release rest)).refersTo o with
    | false => rfl
    | true =>
      rw [hshared, if_pos rfl] at hstep
      exact absurd (heq.symm.trans hstep) (lettingGo_runHook_ne hhook)
  · rintro ⟨hhook, ho⟩
    obtain ⟨entry, rest, hc, hentry, -, heq⟩ := h.eq_of_disposes ho
    exact ⟨hhook, ho.tidy, entry, rest, hc, hentry, heq⟩

/-- A hook that runs was run before, or is run now. -/
lemma Goes.mem_hook (h : Goes s s') (ho : .hook o ∈ s'.frames) :
    .hook o ∈ s.frames ∨ RunsHook s s' o := by
  rcases h.after.keeps.frames _ ho with hold | hdisposes
  · exact .inl hold
  · cases hhook : (s.typeOf o).hook with
    | some a =>
      refine .inr (h.runsHook_iff.2 ⟨?_, hdisposes⟩)
      rw [HostType.hasHook, hhook, Option.isSome_some, Bool.or_true]
    | none =>
      obtain ⟨entry, rest, hc, hentry, -, heq⟩ := h.eq_of_disposes hdisposes
      have hnone : ((s.goto (.release rest)).typeOf o).hook = none := hhook
      have hframes : ((s.goto (.release rest)).runHook o).frames = s.frames := by
        rw [runHook_of_none hnone]
        split <;> rfl
      rw [heq] at ho
      rcases lettingGo_eq s ((s.goto (.release rest)).runHook o) with heq | ⟨-, vs, -, heq⟩
      · rw [heq, hframes] at ho
        exact .inl ho
      · rw [heq] at ho
        rcases List.mem_cons.1 ho with hnew | ho
        · cases hnew
        · exact .inl (hframes ▸ ho)

/-! ### Once -/

/-- No reference to a host object. -/
def Stock.without (o : HostObject) : Stock where
  ref := fun w => ∀ p, w = .object p → p.same o = false
  hook := fun _ => True
  entry := fun _ => True
  log := fun _ => True
  least := 0

/-- What is disposed is not handed on. -/
lemma Goes.refers_without (h : Goes s s') (ho : s.Disposes o) : s'.Refers (.without o) := by
  obtain ⟨entry, rest, hc, -, hlast, heq⟩ := h.eq_of_disposes ho
  have hrest : (s.goto (.release rest)).Refers (.without o) := by
    refine refers_of_values (fun v hv w hw p heq => ?_) (fun _ _ => trivial) (fun _ => trivial)
      trivial (Nat.zero_le _)
    rw [refersTo, List.any_eq_false] at hlast
    refine Bool.eq_false_iff.2 (hlast p (mem_objectsOf.2 ⟨v, hv, ?_⟩))
    exact (object_mem_references v).1 (heq ▸ hw)
  rw [heq]
  exact (hrest.runHook trivial fun _ => trivial).lettingGo fun f _ p heq => by cases heq

/-- What is disposed has been made before. -/
lemma Refers.key_lt_of_disposes {n : Nat} (h : s.Refers (.known n)) (ho : s.Disposes o) :
    o.key < n := by
  obtain ⟨-, entry, rest, hc, hentry, -⟩ := ho
  have hfits := h.control
  rw [hc] at hfits
  exact (hfits entry (List.mem_cons_self ..)).1 o hentry o rfl

/-- **Once an object has been disposed, nothing refers to it but its dispose hook.** -/
lemma History.refers_without {newer : List Session}
    (h : History types setups (newer ++ s' :: s :: older)) (ho : s.Disposes o) :
    ∀ t ∈ newer ++ [s'], t.Refers (.without o) := by
  cases h.earlier with
  | goes hs hgo =>
    have hkey := (hs.refers_known (Nat.le_refl _)).key_lt_of_disposes ho
    have hlater := h.later (p := fun t => o.key < t.nextObject ∧ t.Refers (.without o))
      ⟨Nat.lt_of_lt_of_le hkey hgo.nextObject_le, hgo.refers_without ho⟩
      fun t t' hgo' ⟨hlt, hrefers⟩ => by
        refine ⟨Nat.lt_of_lt_of_le hlt hgo'.nextObject_le, hgo'.refers hrefers ?_⟩
        -- What is made later is another object.
        refine ⟨fun _ _ _ _ _ _ f _ p heq => (by cases heq), fun p hle _ q heq => ?_,
          fun _ _ => trivial, fun _ _ => trivial, fun _ _ => trivial⟩
        cases heq
        exact beq_false_of_ne (by omega)
    exact fun t ht => (hlater t ht).2

/-! ### The discipline of dispose hooks -/

/-- **The dispose hook of a host object** runs exactly when an entry that refers to the object is
let go of while nothing else does.  Nothing else has a hook run or writes to the log, an entry is
let go of when its slot is given up or its bridge disposed and at no other time, and once the hook
of an object has run, nothing but the hook refers to the object and it runs no more. -/
theorem History.dispose_hooks {newer : List Session}
    (h : History types setups (newer ++ s' :: s :: older)) (o : HostObject) :
    (RunsHook s s' o ↔ (s.typeOf o).hasHook = true ∧ s.tidy? = none ∧ s.countOf o = 1 ∧
      ∃ entry rest, s.control = .release (entry :: rest) ∧ entry.target? = some o) ∧
    (.hook o ∈ s'.frames → .hook o ∈ s.frames ∨ RunsHook s s' o) ∧
    (s'.disposed = s.disposed ∨ s.Logs s'.disposed) ∧
    (∀ entry, s.Yields entry → entry ∈ s'.leaving) ∧
    (∀ entry rest, s.control = .release (entry :: rest) → ∃ u ∈ older, u.Yields entry) ∧
    (RunsHook s s' o → ∀ t ∈ newer ++ [s'],
      (∀ p ∈ objectsOf t.shared, p.same o = false) ∧
      ∀ t' p, Goes t t' → RunsHook t t' p → p.same o = false) := by
  cases h.earlier with
  | goes hs hgo =>
    refine ⟨by rw [hgo.runsHook_iff, disposes_iff], hgo.mem_hook, hgo.after.keeps.log,
      fun _ => hgo.mem_leaving, fun entry rest hc => ?_, fun hruns t ht => ?_⟩
    · have hfits := (hs.refers_yielded (List.Subset.refl _)).control
      rw [hc] at hfits
      exact (hfits entry (List.mem_cons_self ..)).2
    · have hwithout := h.refers_without (hgo.runsHook_iff.1 hruns).2 t ht
      refine ⟨fun p hp => ?_, fun t' p hgo' hruns' => ?_⟩
      · obtain ⟨v, hv, hp⟩ := mem_objectsOf.1 hp
        exact (hwithout.shared v hv).object hp p rfl
      · obtain ⟨-, entry, rest, hc, hp, -⟩ := (hgo'.runsHook_iff.1 hruns').2
        have hfits := hwithout.control
        rw [hc] at hfits
        exact (hfits entry (List.mem_cons_self ..)).1 p hp p rfl

/-! ### A hook that runs -/

/-- Whether an entry is let go of that is the last reference to an object with a dispose hook. -/
def isDisposing (s : Session) : Bool :=
  match s.control with
  | .release (entry :: _) =>
    s.tidy?.isNone && entry.target?.any fun o => (s.typeOf o).hasHook && s.countOf o == 1
  | _ => false

lemma exists_of_isDisposing (h : s.isDisposing = true) :
    ∃ o, (s.typeOf o).hasHook = true ∧ s.tidy? = none ∧ s.countOf o = 1 ∧
      ∃ entry rest, s.control = .release (entry :: rest) ∧ entry.target? = some o := by
  unfold isDisposing at h
  split at h
  · next entry rest hc =>
    rw [Bool.and_eq_true, Option.isNone_iff_eq_none] at h
    obtain ⟨ht, h⟩ := h
    obtain ⟨o, ho, h⟩ := Option.any_eq_true _ _ |>.1 h
    rw [Bool.and_eq_true, beq_iff_eq] at h
    exact ⟨o, h.1, ht, h.2, entry, rest, hc, ho⟩
  · cases h

/-- Something is known of the state that one state of some comes from. -/
lemma exists_of_any_tail {p : Session → Bool} (h : hist.tail.any p = true) :
    ∃ newer s' s older, hist = newer ++ s' :: s :: older ∧ p s = true := by
  cases hist with
  | nil => cases h
  | cons x l =>
    obtain ⟨s, hs, hp⟩ := List.any_eq_true.1 h
    obtain ⟨l₁, l₂, rfl⟩ := List.append_of_mem hs
    obtain ⟨newer, s', heq⟩ : ∃ newer s', x :: l₁ = newer ++ [s'] :=
      ⟨_, _, (List.dropLast_concat_getLast (List.cons_ne_nil x l₁)).symm⟩
    refine ⟨newer, s', s, l₂, ?_, hp⟩
    rw [← List.cons_append, heq, List.append_assoc, List.singleton_append]

/-- A program that makes an object a global and disposes its bridge. -/
def disposing : List Session :=
  obey 60 0 .dispose none (obey 60 0 (.setVariable "x" (.fresh 0 "x" [])) none
    (made [bareType] [{}]))

lemma history_disposing : History [bareType] [{}] disposing :=
  ((history_made (by decide +kernel)).obey ..).obey ..

/-- The dispose hook of an object that only script had kept runs when its bridge is disposed. -/
theorem dispose_hooks_disposing : ∃ newer s' s older o, disposing = newer ++ s' :: s :: older ∧
    RunsHook s s' o ∧ ∀ t ∈ newer ++ [s'], ∀ p ∈ objectsOf t.shared, p.same o = false := by
  obtain ⟨newer, s', s, older, heq, hs⟩ : ∃ newer s' s older,
      disposing = newer ++ s' :: s :: older ∧ s.isDisposing = true := by
    exact exists_of_any_tail (by decide +kernel)
  have h := heq ▸ history_disposing
  obtain ⟨o, hlast⟩ := exists_of_isDisposing hs
  have hruns := (h.dispose_hooks o).1.2 hlast
  exact ⟨newer, s', s, older, o, heq, hruns,
    fun t ht => ((h.dispose_hooks o).2.2.2.2.2 hruns t ht).1⟩

end Session

end ScriptBridge
