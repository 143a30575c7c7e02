/-
# Host code on stage

Of all that is still to be done, only a few things are host code: a getter, a setter, a method or
a dispose hook that runs, what it still has to do, and the host's own use of an object.  These are
on stage.  All that bridges and engines do goes on behind it, and host code itself only goes on
with what it has to do, until it leaves the stage as it found it.
-/
import ScriptBridge.Proofs.Session.Frames
import ScriptBridge.Proofs.Session.Origins

namespace ScriptBridge.Session

open ScriptBridge.Bridge ScriptBridge.Host ScriptBridge.Table ScriptBridge.Wire

variable {s s' t : Session} {b : Nat} {c : Command} {f : Frame} {r : Outcome} {o : HostObject}
  {ctl : Control}

/-! ### Uses of objects -/

/-- How an object is used. -/
inductive Use where
  /-- Its getter runs. -/
  | getter
  /-- Its setter runs. -/
  | setter
  /-- Its method runs. -/
  | method
  /-- Its dispose hook runs. -/
  | hook
  /-- The host itself uses it, maybe alone. -/
  | host (exclusive : Bool)
  deriving DecidableEq

/-- Whether others may use the object in the same way meanwhile. -/
def Use.isShared : Use → Bool
  | getter => true
  | host exclusive => !exclusive
  | _ => false

/-- A use of an object. -/
structure Borrow where
  /-- What is used. -/
  object : HostObject
  /-- How it is used. -/
  use : Use
  deriving DecidableEq

/-- Two uses go together: if they are of one object, others may use it meanwhile in either way. -/
def Borrow.Suits (u w : Borrow) : Prop :=
  w.object.same u.object = true → u.use.isShared = true ∧ w.use.isShared = true

/-- The use of an object that ends with a frame. -/
def Frame.borrow? : Frame → Option Borrow
  | .getting _ o _ => some ⟨o, .getter⟩
  | .setting _ o _ => some ⟨o, .setter⟩
  | .calling _ o _ => some ⟨o, .method⟩
  | .hook o => some ⟨o, .hook⟩
  | .borrowed o exclusive => some ⟨o, .host exclusive⟩
  | _ => none

/-- The uses of objects that have not ended, the latest first. -/
def borrows (s : Session) : List Borrow := s.frames.filterMap Frame.borrow?

lemma Frame.isWriting_eq (o : HostObject) (f : Frame) :
    f.isWriting o = f.borrow?.any fun w => w.object.same o && !w.use.isShared := by
  cases f with
  | borrowed p exclusive => cases exclusive <;> simp [Frame.isWriting, Frame.borrow?, Use.isShared]
  | _ => simp [Frame.isWriting, Frame.borrow?, Use.isShared]

lemma Frame.isReading_eq (o : HostObject) (f : Frame) :
    f.isReading o = f.borrow?.any fun w => w.object.same o && w.use.isShared := by
  cases f with
  | borrowed p exclusive => cases exclusive <;> simp [Frame.isReading, Frame.borrow?, Use.isShared]
  | _ => simp [Frame.isReading, Frame.borrow?, Use.isShared]

/-- A frame keeps the object whose use ends with it. -/
lemma Frame.mem_values_of_borrow? {u : Borrow} (h : f.borrow? = some u) :
    .object u.object ∈ f.values := by
  cases f <;> cases h <;> simp [Frame.values]

lemma mem_borrows {u : Borrow} : u ∈ s.borrows ↔ ∃ f ∈ s.frames, f.borrow? = some u :=
  List.mem_filterMap

/-! ### Roles -/

/-- What something that is still to be done is on stage. -/
inductive Role where
  /-- The use of an object, which ends then. -/
  | use (u : Borrow)
  /-- Host code that goes on with an object. -/
  | scene (o : HostObject)
  /-- A look at the outcome of a command. -/
  | pause
  deriving DecidableEq

/-- The use of an object that a role is. -/
def Role.borrow? : Role → Option Borrow
  | use u => some u
  | _ => none

/-- What is about to be done on stage. -/
def Control.role? : Control → Option Role
  | .act _ scene => some (.scene scene.this)
  | _ => none

/-- What a frame waits for on stage. -/
def Frame.role? : Frame → Option Role
  | .interrupted ctl => ctl.role?
  | .pausing => some .pause
  | .sequence _ _ scene => some (.scene scene.this)
  | .listing _ _ scene => some (.scene scene.this)
  | f => f.borrow?.map .use

/-- All that is on stage, but for what is about to be done. -/
def cast (s : Session) : List Role := s.frames.filterMap Frame.role?

/-- All that is on stage, what is done next first. -/
def stage (s : Session) : List Role := s.control.role?.toList ++ s.cast

@[simp] lemma cast_push_of_none (h : f.role? = none) : (s.push f).cast = s.cast :=
  List.filterMap_cons_none h

lemma cast_push_of_some {m : Role} (h : f.role? = some m) : (s.push f).cast = m :: s.cast :=
  List.filterMap_cons_some h

lemma cast_of_cons {rest : List Frame} (hf : s.frames = f :: rest) :
    s.cast = f.role?.toList ++ ({ s with frames := rest } : Session).cast := by
  rw [cast, hf, List.filterMap_cons]
  cases f.role? <;> rfl

lemma stage_of_role? (h : s.control.role? = none) : s.stage = s.cast := by
  rw [stage, h]
  rfl

/-- What is not on with a scene is not about to do host code. -/
lemma role?_eq_none (h : ∀ o T, s.stage ≠ .scene o :: T) : s.control.role? = none := by
  rw [stage] at h
  cases hc : s.control with
  | act a scene => exact absurd rfl (hc ▸ h scene.this s.cast)
  | _ => rfl

lemma cast_of_untouched (h : Untouched s s') : s'.cast = s.cast := by rw [cast, h.frames, cast]

/-- What is put off stays on stage. -/
lemma stage_interrupt (h : ctl.role? = none) : (s.interrupt ctl).stage = s.stage := by
  rw [stage_of_role? h, stage, interrupt]
  cases hrole : s.control.role? with
  | none => exact cast_push_of_none hrole
  | some m => exact cast_push_of_some hrole

lemma stage_lettingGo (before : Session) : (before.lettingGo t).stage = t.stage := by
  rcases lettingGo_cases before t with heq | ⟨vs, heq⟩ <;> rw [heq]
  exact stage_interrupt rfl

lemma Frame.role?_of_borrow? {u : Borrow} (h : f.borrow? = some u) : f.role? = some (.use u) := by
  cases f <;> cases h <;> rfl

lemma Frame.bind_role? (f : Frame) : f.role?.bind Role.borrow? = f.borrow? := by
  cases f with
  | interrupted ctl => cases ctl <;> rfl
  | _ => rfl

lemma filterMap_cast (s : Session) : s.cast.filterMap Role.borrow? = s.borrows := by
  rw [cast, List.filterMap_filterMap, borrows]
  exact congrArg (List.filterMap · s.frames) (funext Frame.bind_role?)

/-- The uses of objects are on stage. -/
lemma filterMap_stage (s : Session) : s.stage.filterMap Role.borrow? = s.borrows := by
  have hcontrol : s.control.role?.toList.filterMap Role.borrow? = [] := by
    cases s.control <;> rfl
  rw [stage, List.filterMap_append, hcontrol, List.nil_append, filterMap_cast]

/-- What happens on stage. -/
inductive Plays : List Role → List Role → Prop
  /-- Nothing of it is host code. -/
  | rests (T : List Role) : Plays T T
  /-- Host code goes on, with more that it has to do. -/
  | continues {o : HostObject} {T : List Role} (n : Nat) :
    Plays (.scene o :: T) (List.replicate n (.scene o) ++ T)
  /-- An object comes into use, which goes together with all other uses. -/
  | begins {u : Borrow} {T : List Role} (h : ∀ w ∈ T.filterMap Role.borrow?, u.Suits w) :
    Plays T (.scene u.object :: .use u :: T)
  /-- The use of an object ends. -/
  | ends {u : Borrow} {T : List Role} : Plays (.use u :: T) T

lemma plays_of_eq {S T : List Role} (h : T = S) : Plays S T := h ▸ .rests T

/-! ### Operations -/

lemma stage_call (s : Session) (b : Nat) (crossing : Crossing) (op : Engine.Operation) :
    (s.call b crossing op).stage = s.cast := by
  unfold call
  dsimp only
  split <;> rfl

lemma stage_exchange (s : Session) (b : Nat) (crossing : Crossing) (v : HostValue)
    (op : Record → Engine.Operation) : (s.exchange b crossing v op).stage = s.cast := by
  unfold exchange
  dsimp only
  (repeat' split) <;> rfl

lemma stage_operateStep (s : Session) (b : Nat) (op : Operation) :
    (s.operateStep b op).stage = s.cast := by
  cases op with
  | evaluate script => exact stage_call s ..
  | getVariable name =>
    unfold operateStep
    dsimp only
    split
    · rfl
    · exact stage_call s ..
  | setVariable name v =>
    unfold operateStep
    dsimp only
    split
    · rfl
    · exact stage_exchange (s.push _) ..
  | member target name access =>
    unfold operateStep
    dsimp only
    (repeat' split) <;> first | rfl | skip
    cases access with
    | get => exact stage_call (s.push _) ..
    | set v => exact stage_exchange (s.push _) ..
    | invoke args => exact stage_exchange (s.push _) ..
  | flush =>
    unfold operateStep
    dsimp only
    split <;> rfl

lemma stage_decodeStep (s : Session) (b : Nat) (r : Record) :
    (s.decodeStep b r).stage = s.cast := by
  unfold decodeStep
  split <;> rfl

lemma stage_performStep (s : Session) (b : Nat) (tasks : List Task) (heard : List Heard)
    (result : Except Fault HostValue) : (s.performStep b tasks heard result).stage = s.cast := by
  unfold performStep
  (repeat' split) <;> rfl

lemma stage_takeReply (s : Session) (b : Nat) (p : Purpose) (r : Record) :
    (s.takeReply b p r).stage = s.cast := by
  cases p <;> rfl

/-! ### Slots -/

lemma stage_unpin (s : Session) (b : Nat) (slot : Slot) {next : Control} (hn : next.role? = none) :
    (s.unpin b slot next).stage = s.cast := by
  unfold unpin
  split
  · exact stage_of_role? hn
  · exact cast_push_of_none hn

lemma stage_removeSlot (s : Session) (b : Nat) (slot : Slot) {next : Control}
    (hn : next.role? = none) : (s.removeSlot b slot next).stage = s.cast := by
  unfold removeSlot
  dsimp only
  split
  · exact stage_of_role? hn
  · exact stage_unpin (s.record b .removeSlot) b slot hn

lemma stage_drainStep (s : Session) (b : Nat) (slots : List Slot) :
    (s.drainStep b slots).stage = s.cast := by
  unfold drainStep
  split
  · exact stage_unpin s b _ rfl
  · split <;> rfl

lemma stage_leaveScope (s : Session) (b : Nat) (r : Outcome) :
    (s.leaveScope b r).stage = s.cast := by
  unfold leaveScope
  split <;> rfl

lemma stage_disposeStep (s : Session) (b : Nat) : (s.disposeStep b).stage = s.cast := by
  unfold disposeStep
  (repeat' split) <;> rfl

lemma stage_teardownStep (s : Session) (b : Nat) (slots : List Slot) :
    (s.teardownStep b slots).stage = s.cast := by
  cases slots with
  | cons slot rest => exact stage_removeSlot s b slot rfl
  | nil =>
    unfold teardownStep
    dsimp only
    split <;> rfl

lemma plays_runHook (hfree : ∀ w ∈ s.borrows, Borrow.Suits ⟨o, .hook⟩ w)
    (hc : s.control.role? = none) : Plays s.cast (s.runHook o).stage := by
  cases hhook : (s.typeOf o).hook with
  | none =>
    rw [runHook_of_none hhook]
    refine plays_of_eq (Eq.trans ?_ (stage_of_role? hc))
    split <;> rfl
  | some a =>
    obtain ⟨hcontrol, hframes⟩ := runHook_of_some hhook
    have hcast : (s.push (.interrupted s.control)).cast = s.cast := cast_push_of_none hc
    have hstage : (s.runHook o).stage = .scene o :: .use ⟨o, .hook⟩ :: s.cast := by
      rw [stage, hcontrol, cast, hframes, ← hcast]
      rfl
    rw [hstage]
    exact .begins (u := ⟨o, .hook⟩) (by rwa [filterMap_cast])

/-- A dispose hook runs only where nothing refers to its object, so that nothing uses it. -/
lemma plays_releaseStep (s : Session) (entries : List Entry) :
    Plays s.cast (s.releaseStep entries).stage := by
  cases entries with
  | nil => exact .rests _
  | cons entry rest =>
    rw [releaseStep_cons]
    split
    · exact .rests _
    · next o _ =>
      split
      · exact .rests _
      · next hrefers =>
        refine plays_runHook (s := s.goto (.release rest)) (fun w hw hsame => ?_) rfl
        obtain ⟨f, hf, hborrow⟩ := mem_borrows.1 hw
        have hmem : HostValue.object w.object ∈ (s.goto (.release rest)).values := by
          simp only [values, List.mem_append, List.mem_flatMap]
          exact .inl (.inl (.inl (.inr ⟨f, hf, Frame.mem_values_of_borrow? hborrow⟩)))
        refine absurd (List.any_eq_true.2 ⟨w.object, ?_, hsame⟩) hrefers
        exact HostValue.mem_objectsOf.2 ⟨_, hmem, List.mem_singleton_self _⟩

/-! ### Callbacks -/

lemma isWriting_eq_any (s : Session) (o : HostObject) :
    s.isWriting o = s.borrows.any fun w => w.object.same o && !w.use.isShared := by
  rw [isWriting, borrows, List.any_filterMap]
  exact congrArg (List.any s.frames) (funext (Frame.isWriting_eq o))

lemma isBorrowed_eq_any (s : Session) (o : HostObject) :
    s.isBorrowed o = s.borrows.any fun w => w.object.same o := by
  have hreading : s.frames.any (Frame.isReading o) =
      s.borrows.any fun w => w.object.same o && w.use.isShared := by
    rw [borrows, List.any_filterMap]
    exact congrArg (List.any s.frames) (funext (Frame.isReading_eq o))
  rw [isBorrowed, isWriting_eq_any, hreading, Bool.eq_iff_iff]
  simp only [Bool.or_eq_true, List.any_eq_true, Bool.and_eq_true, Bool.not_eq_true']
  constructor
  · rintro (⟨w, hw, hsame, -⟩ | ⟨w, hw, hsame, -⟩) <;> exact ⟨w, hw, hsame⟩
  · rintro ⟨w, hw, hsame⟩
    cases hshared : w.use.isShared
    · exact .inl ⟨w, hw, hsame, hshared⟩
    · exact .inr ⟨w, hw, hsame, hshared⟩

/-- A getter may run exactly where no use of its object shuts out others. -/
lemma suits_getter : (∀ w ∈ s.borrows, Borrow.Suits ⟨o, .getter⟩ w) ↔ s.isWriting o = false := by
  simp only [isWriting_eq_any, List.any_eq_false, Bool.and_eq_true, Bool.not_eq_true', not_and,
    Bool.not_eq_false, Borrow.Suits, Use.isShared, true_and]

/-- What may change an object may run exactly where the object is not in use. -/
lemma suits_of_not_isShared {use : Use} (hu : use.isShared = false) :
    (∀ w ∈ s.borrows, Borrow.Suits ⟨o, use⟩ w) ↔ s.isBorrowed o = false := by
  simp only [isBorrowed_eq_any, List.any_eq_false, Borrow.Suits, hu, Bool.false_eq_true, false_and,
    imp_false]

/-- Host code begins to use an object. -/
lemma plays_push {u : Borrow} {a : Action} {scene : Scene} (hf : f.borrow? = some u)
    (hscene : scene.this = u.object) (hfree : ∀ w ∈ s.borrows, u.Suits w) :
    Plays s.cast ((s.push f).goto (.act a scene)).stage := by
  have hstage : ((s.push f).goto (.act a scene)).stage = .scene u.object :: .use u :: s.cast := by
    rw [← hscene, ← cast_push_of_some (Frame.role?_of_borrow? hf)]
    rfl
  rw [hstage]
  exact .begins (by rwa [filterMap_cast])

lemma plays_readObject (s : Session) (b : Nat) (o : HostObject) (name : String) :
    Plays s.cast (s.readObject b o name).stage := by
  unfold readObject
  dsimp only
  split
  · next g _ =>
    split
    · exact .rests _
    · next hwriting =>
      exact plays_push (s := s.updateBridge b (·.describe o.type)) rfl rfl
        (suits_getter.2 (Bool.eq_false_iff.2 hwriting))
  · (repeat' split) <;> exact .rests _

lemma plays_serve (s : Session) (b : Nat) (req : Engine.Request) :
    Plays s.cast (s.serve b req).stage := by
  cases req with
  | get slot name =>
    unfold serve readProperty
    dsimp only
    (repeat' split) <;> first | exact .rests _ | exact plays_readObject (s.record b .getProperty) ..
  | set slot name r =>
    unfold serve writeProperty
    dsimp only
    (repeat' split) <;> exact .rests _
  | invoke slot r =>
    unfold serve callEntry
    dsimp only
    split <;> exact .rests _

lemma plays_change {use : Use} (hf : f.borrow? = some ⟨o, use⟩) (hu : use.isShared = false)
    (a : Action) {scene : Scene} (hscene : scene.this = o) :
    Plays s.cast (s.change b o f a scene).stage := by
  unfold change
  split
  · exact .rests _
  · next hborrowed =>
    exact plays_push hf hscene ((suits_of_not_isShared hu).2 (Bool.eq_false_iff.2 hborrowed))

lemma plays_callMethod (s : Session) (b : Nat) (o : HostObject) (name : String) (v : HostValue) :
    Plays s.cast (s.callMethod b o name v).stage := by
  unfold callMethod
  dsimp only
  split
  · exact .rests _
  · exact plays_change (s := s.updateBridge b (·.describe o.type)) rfl rfl _ rfl

lemma stage_respondStep (s : Session) (b : Nat) (r : Except HostError HostValue) :
    (s.respondStep b r).stage = s.cast := by
  unfold respondStep
  (repeat' split) <;> rfl

lemma stage_answerStep (s : Session) (b : Nat) (r : Except HostError Record) :
    (s.answerStep b r).stage = s.cast := by
  unfold answerStep
  split <;> rfl

lemma stage_takeFinished (s : Session) (b : Nat) (r : Record) :
    (s.takeFinished b r).stage = s.cast := by
  unfold takeFinished
  split
  · next c p rest hframes =>
    rw [stage_takeReply, cast_of_cons hframes]
    rfl
  · rfl

/-- An engine at work makes nothing but getters run. -/
lemma plays_engineStep (hc : s.control = .engine b) : Plays s.stage (s.engineStep b).stage := by
  have hstage : s.stage = s.cast := stage_of_role? (by rw [hc]; rfl)
  rw [hstage]
  unfold engineStep
  split
  · exact .rests _
  · next e _ =>
    dsimp only
    split
    · exact plays_of_eq hstage
    · exact plays_of_eq (stage_removeSlot (s.updateBridge b _) b _ rfl)
    · exact plays_serve (s.updateBridge b _) b _
    · exact plays_of_eq (stage_takeFinished (s.updateBridge b _) b _)

/-! ### Host code -/

lemma stage_operateHere (s : Session) (op : Operation) : (s.operateHere op).stage = s.cast := by
  unfold operateHere withBridge
  split <;> rfl

lemma stage_useMember (s : Session) (scene : Scene) (position : Nat) (name : String)
    (access : Access Template) : (s.useMember scene position name access).stage = s.cast := by
  have hbuilt : (s.buildAccess access).2.cast = s.cast :=
    cast_of_untouched (untouched_buildAccess s access)
  unfold useMember withResult gotoMember
  split
  · dsimp only
    split <;> exact hbuilt
  · rfl

/-- Some actions are done one after the other. -/
lemma plays_actFirst {actions : List Action} {scene : Scene} {none : Session}
    {frame : List Action → Frame} (hnone : none.stage = s.cast)
    (hf : ∀ rest, (frame rest).role? = some (.scene scene.this)) :
    Plays (.scene scene.this :: s.cast) (s.actFirst actions scene none frame).stage := by
  cases actions with
  | nil =>
    rw [show s.actFirst [] scene none frame = none from rfl, hnone]
    exact .continues 0
  | cons a rest =>
    have hstage : (s.actFirst (a :: rest) scene none frame).stage =
        List.replicate 2 (.scene scene.this) ++ s.cast := by
      rw [show List.replicate 2 (Role.scene scene.this) ++ s.cast =
        .scene scene.this :: .scene scene.this :: s.cast from rfl, ← cast_push_of_some (hf rest)]
      rfl
    rw [hstage]
    exact .continues 2

/-- **Host code goes on with its own object only.** -/
lemma plays_actStep (s : Session) (a : Action) (scene : Scene) :
    Plays (.scene scene.this :: s.cast) (s.actStep a scene).stage := by
  have hends : ∀ {t : Session}, t.stage = s.cast → Plays (.scene scene.this :: s.cast) t.stage := by
    intro t ht
    rw [ht]
    exact .continues 0
  have hbuilt : ∀ t, (s.build t).2.cast = s.cast := fun t => cast_of_untouched (untouched_build s t)
  cases a with
  | const t => exact hends (t := giveMade (s.build t)) (hbuilt t)
  | eval | getVariable | flush => exact hends (stage_operateHere s _)
  | setVariable name t =>
    exact hends ((stage_operateHere _ _).trans (hbuilt t))
  | invoke | get | set => exact hends (stage_useMember s ..)
  | seq actions => exact plays_actFirst rfl fun _ => rfl
  | list actions => exact plays_actFirst rfl fun _ => rfl
  | attempt action => exact .continues 1
  | dispose | isDisposed | used =>
    refine hends ?_
    unfold actStep withBridge
    dsimp only
    split <;> rfl
  | storeValue | arg | store | save =>
    refine hends ?_
    unfold actStep withResult
    dsimp only
    split <;> rfl
  | dropBridge =>
    refine hends ?_
    unfold actStep leaveBridge
    dsimp only
    split <;> rfl
  | _ => exact hends rfl

/-! ### Steps -/

/-- What waited goes on when it is given an outcome, and what was used is not any more. -/
lemma plays_doneStep (s : Session) (hf : f ≠ .pausing) (r : Outcome) :
    Plays (f.role?.toList ++ s.cast) (s.doneStep f r).stage := by
  cases f with
  | pausing => exact absurd rfl hf
  | interrupted ctl => exact .rests _
  | scope b => exact plays_of_eq (stage_leaveScope s b r)
  | getting | setting | calling | borrowed => exact .ends
  | assignee b o setter =>
    cases r with
    | error e => exact .rests _
    | ok v => exact plays_change rfl rfl setter rfl
  | callee b o name =>
    cases r with
    | error e => exact .rests _
    | ok v => exact plays_callMethod s b o name v
  | hook o =>
    unfold doneStep
    dsimp only
    split <;> exact .ends
  | «sequence» rest last scene =>
    cases r with
    | error e => exact .continues 0
    | ok v => exact plays_actFirst rfl fun _ => rfl
  | listing rest results scene =>
    cases r with
    | error e => exact .continues 0
    | ok v => exact plays_actFirst rfl fun _ => rfl
  | attempting =>
    unfold doneStep
    dsimp only
    split <;> exact .rests _
  | _ => exact .rests _

lemma stage_tidy? (h : s.tidy? = some t) : t.stage = s.stage := by
  unfold tidy? at h
  split at h
  · cases h
    exact stage_interrupt rfl
  · split at h
    · cases h
      rfl
    · split at h
      · cases h
        unfold endLease
        dsimp only
        split
        · rfl
        · exact stage_interrupt (s := s) (show Control.finished.role? = none from rfl)
      · obtain ⟨st, -, rfl⟩ := Option.map_eq_some_iff.1 h
        unfold forgetObject
        dsimp only
        split
        · rfl
        · exact stage_interrupt rfl

lemma plays_proceed? (h : s.proceed? = some t) : Plays s.stage t.stage := by
  have hbehind : ∀ {u : Session}, s.control.role? = none → u.stage = s.cast →
      Plays s.stage u.stage := fun hc hu => plays_of_eq (hu.trans (stage_of_role? hc).symm)
  unfold proceed? at h
  split at h
  · next r hc =>
    split at h
    · cases h
    · cases h
    · next f rest hne hframes =>
      cases h
      rw [stage_of_role? (by rw [hc]; rfl), cast_of_cons hframes]
      exact plays_doneStep _ hne r
  · next a scene hc =>
    cases h
    rw [stage, hc]
    exact plays_actStep s a scene
  · next hc => cases h; exact hbehind (by rw [hc]; rfl) (stage_operateStep s ..)
  · next hc => cases h; exact plays_engineStep hc
  · next hc => cases h; exact hbehind (by rw [hc]; rfl) (stage_decodeStep s ..)
  · next hc => cases h; exact hbehind (by rw [hc]; rfl) (stage_performStep s ..)
  · next hc => cases h; exact hbehind (by rw [hc]; rfl) (stage_respondStep s ..)
  · next hc => cases h; exact hbehind (by rw [hc]; rfl) (stage_answerStep s ..)
  · next hc => cases h; exact hbehind (by rw [hc]; rfl) (stage_drainStep s ..)
  · next entries hc =>
    cases h
    rw [stage_of_role? (by rw [hc]; rfl)]
    exact plays_releaseStep s entries
  · next hc => cases h; exact hbehind (by rw [hc]; rfl) (stage_disposeStep s _)
  · next hc => cases h; exact hbehind (by rw [hc]; rfl) (stage_teardownStep s ..)
  all_goals next hc => cases h; exact hbehind (by rw [hc]; rfl) rfl

/-- **A program by itself plays by the rules**: what begins is let in only where it goes together
with all that has not ended, and what is on stage leaves it in turn. -/
theorem plays_step? (h : s.step? = some t) : Plays s.stage t.stage := by
  unfold step? at h
  split at h
  · next hc =>
    cases h
    exact plays_engineStep hc
  · cases htidy : s.tidy? with
    | some u =>
      rw [htidy] at h
      cases h
      exact plays_of_eq (stage_tidy? htidy)
    | none =>
      rw [htidy] at h
      obtain ⟨u, hu, rfl⟩ := Option.map_eq_some_iff.1 h
      rw [stage_lettingGo]
      exact plays_proceed? hu

/-! ### Looks at outcomes -/

/-- Whether a frame waits for a look at an outcome. -/
def Frame.isPausing : Frame → Bool
  | .pausing => true
  | _ => false

/-- How often a look at an outcome is waited for. -/
def looks (s : Session) : Nat := s.frames.countP Frame.isPausing

lemma looks_eq_count (s : Session) : s.looks = s.stage.count .pause := by
  have hcontrol : s.control.role?.toList.count .pause = 0 := by
    cases s.control <;> rfl
  rw [stage, List.count_append, hcontrol, Nat.zero_add, looks, cast, List.count,
    List.countP_filterMap]
  refine List.countP_congr fun f _ => ?_
  cases f with
  | interrupted ctl => cases ctl <;> exact iff_of_false nofun nofun
  | pausing => exact iff_of_true rfl rfl
  | _ => exact iff_of_false nofun nofun

lemma Plays.count_pause {S T : List Role} (h : Plays S T) : T.count .pause = S.count .pause := by
  cases h with
  | rests => rfl
  | continues n => simp [List.count_append, List.count_replicate]
  | begins => simp
  | ends => simp

/-- **A program by itself adds no look at an outcome** to those that are waited for, and takes none
away. -/
theorem looks_step? (h : s.step? = some t) : t.looks = s.looks := by
  rw [looks_eq_count, looks_eq_count]
  exact (plays_step? h).count_pause

/-! ### Commands -/

/-- What happens on stage in a program that is told what to do. -/
inductive Performs : List Role → List Role → Prop
  /-- It goes on by itself. -/
  | plays {S T : List Role} (h : Plays S T) : Performs S T
  /-- A command begins. -/
  | begins : Performs [] [.pause]
  /-- A command begins during which the host itself uses an object. -/
  | lends (o : HostObject) (exclusive : Bool) : Performs [] [.pause, .use ⟨o, .host exclusive⟩]
  /-- A command ends. -/
  | ends {T : List Role} : Performs (.pause :: T) T

lemma stage_start {form : Form} (h : s.start b c = some (t, form)) :
    t.stage = s.cast ∨ ∃ o exclusive, t.stage = .use ⟨o, .host exclusive⟩ :: s.cast := by
  have hbuilt : ∀ v, (s.build v).2.cast = s.cast := fun v => cast_of_untouched (untouched_build s v)
  cases c with
  | setVariable | make | inspect => cases h; exact .inl (hbuilt _)
  | member direct on name access =>
    unfold start startMember at h
    dsimp only at h
    split at h
    · cases h
      have hgiven := (cast_of_untouched (untouched_buildAccess _ access)).trans (hbuilt on)
      refine .inl ?_
      split
      · exact hgiven
      · unfold gotoMember
        split <;> exact hgiven
    · cases h
  | dropBridge =>
    cases h
    unfold leaveBridge
    split <;> exact .inl rfl
  | same v w =>
    cases h
    exact .inl ((cast_of_untouched (untouched_build _ w)).trans (hbuilt v))
  | evaluateHolding script on exclusive =>
    unfold start startHolding at h
    dsimp only at h
    split at h
    · next o _ =>
      split at h <;> cases h
      · exact .inr ⟨o, exclusive, congrArg _ (hbuilt on)⟩
      · exact .inl (hbuilt on)
    · cases h
  | _ => cases h; exact .inl rfl

/-- A command begins on an empty stage with a look at its outcome that is waited for. -/
lemma stage_begin? {form : Form} (hs : s.frames = []) (h : s.begin? b c = some (s', form)) :
    s'.stage = [.pause] ∨ ∃ o exclusive, s'.stage = [.pause, .use ⟨o, .host exclusive⟩] := by
  obtain ⟨fresh, started, hfresh, hstart, rfl⟩ := exists_of_begin? h
  have hcast : s.cast = [] := by rw [cast, hs, List.filterMap_nil]
  have hfresh : fresh.cast = [] := by
    rcases hfresh with rfl | rfl <;> exact hcast
  have hpush : started.control.role? = none →
      (started.push .pausing).stage = .pause :: started.stage := fun hnone => by
    rw [stage_of_role? hnone, stage_of_role? (s := started.push .pausing) hnone]
    exact cast_push_of_some rfl
  rw [stage_lettingGo]
  rcases stage_start hstart with hstage | ⟨o, exclusive, hstage⟩ <;> rw [hfresh] at hstage
  · rw [hpush (role?_eq_none (by rw [hstage]; nofun)), hstage]
    exact .inl rfl
  · rw [hpush (role?_eq_none (by rw [hstage]; nofun)), hstage]
    exact .inr ⟨o, exclusive, rfl⟩

/-- A command ends with the look at its outcome. -/
lemma stage_conclude {rest : List Frame} {r : Outcome} (hc : s.control = .done r)
    (hs : s.frames = .pausing :: rest) (save : Option String) :
    s.stage = .pause :: (s.conclude save).stage := by
  rw [stage_of_role? (by rw [hc]; rfl), cast_of_cons hs, conclude, stage_lettingGo]
  unfold settle resume
  rw [hs]
  split <;> rfl

/-- **Whatever happens, host code and commands come and go in order.** -/
theorem Goes.performs (h : Goes s s') : Performs s.stage s'.stage := by
  cases h with
  | steps h => exact .plays (plays_step? h)
  | begins hr hs hb h =>
    obtain ⟨r, hc⟩ := control_of_step? hr
    have hempty : s.stage = [] := by
      rw [stage_of_role? (by rw [hc]; rfl), cast, hs, List.filterMap_nil]
    rw [hempty]
    rcases stage_begin? hs h with hstage | ⟨o, exclusive, hstage⟩ <;> rw [hstage]
    · exact .begins
    · exact .lends o exclusive
  | concludes save hr hs h =>
    subst h
    obtain ⟨r, hc⟩ := control_of_step? hr
    rw [stage_conclude hc hs save]
    exact .ends

end ScriptBridge.Session
