/-
# Sessions that are alike but for their slots

Two sessions are alike if one is the other with the slots of each bridge exchanged for others.
Host code sees no slots, so whatever it does leaves them alike.
-/
import ScriptBridge.Proofs.Bridge.Tracking
import ScriptBridge.Proofs.Engine.RenamedSteps
import ScriptBridge.Proofs.Session.Passage

namespace ScriptBridge

open ScriptBridge.Bridge ScriptBridge.Host ScriptBridge.Script ScriptBridge.Table
open ScriptBridge.Wire

/-- A bridge is another one, whose arena is monotonic, with slots exchanged. -/
structure Bridge.Alike (f : Slot → Slot) (x y : Bridge) : Prop where
  engine : x.engine = y.engine.map (Engine.rename f)
  arena : Arena.Tracks f x.arena y.arena
  deferred : x.deferred = y.deferred.map f
  tally : x.tally = y.tally
  described : x.described = y.described
  stage : x.stage = y.stage

namespace Session

/-- What is about to be done, with other slots for each bridge. -/
def Control.rename (f : Nat → Slot → Slot) : Control → Control
  | .decode b r => .decode b (r.rename (f b))
  | .answer b r => .answer b (r.map (Record.rename (f b)))
  | .drain b slots => .drain b (slots.map (f b))
  | .teardown b slots => .teardown b (slots.map (f b))
  | c => c

/-- What is still to be done, with other slots for each bridge. -/
def Frame.rename (f : Nat → Slot → Slot) : Frame → Frame
  | .interrupted c => .interrupted (c.rename f)
  | frame => frame

/-- A session is another one, whose arenas are monotonic, with slots exchanged. -/
structure Alike (f : Nat → Slot → Slot) (s t : Session) : Prop where
  types : s.types = t.types
  length : s.bridges.length = t.bridges.length
  bridges : ∀ b x y, s.bridge? b = some x → t.bridge? b = some y → x.Alike (f b) y
  current : s.current = t.current
  objects : s.objects = t.objects
  nextObject : s.nextObject = t.nextObject
  leases : s.leases = t.leases
  nextLease : s.nextLease = t.nextLease
  registers : s.registers = t.registers
  disposed : s.disposed = t.disposed
  frames : s.frames = t.frames.map (Frame.rename f)
  control : s.control = t.control.rename f

variable {f : Nat → Slot → Slot} {s t : Session} {b : Nat}

section Marks

variable (f) (c : Control) (frame : Frame) (o : HostObject)

@[simp] lemma Control.values_rename : (c.rename f).values = c.values := by cases c <;> rfl

@[simp] lemma Control.bridge?_rename : (c.rename f).bridge? = c.bridge? := by cases c <;> rfl

@[simp] lemma Frame.values_rename : (frame.rename f).values = frame.values := by
  cases frame with
  | interrupted c => exact Control.values_rename f c
  | _ => rfl

@[simp] lemma Frame.bridge?_rename : (frame.rename f).bridge? = frame.bridge? := by
  cases frame with
  | interrupted c => exact Control.bridge?_rename f c
  | _ => rfl

@[simp] lemma Frame.isScope_rename : (frame.rename f).isScope b = frame.isScope b := by
  cases frame <;> rfl

@[simp] lemma Frame.isRunning_rename : (frame.rename f).isRunning b = frame.isRunning b := by
  cases frame <;> rfl

@[simp] lemma Frame.isKeeping_rename : (frame.rename f).isKeeping b = frame.isKeeping b := by
  cases frame <;> rfl

@[simp] lemma Frame.isWriting_rename : (frame.rename f).isWriting o = frame.isWriting o := by
  cases frame <;> rfl

@[simp] lemma Frame.isReading_rename : (frame.rename f).isReading o = frame.isReading o := by
  cases frame <;> rfl

end Marks

/-- The values that a session refers to other than by the entries of its bridges. -/
def ownValues (s : Session) : List HostValue :=
  s.control.values ++ s.frames.flatMap Frame.values ++ s.registers.map Prod.snd ++
    s.objects.flatMap fun st => st.fields.map Prod.snd

lemma values_eq_append (s : Session) :
    s.values = s.ownValues ++ s.bridges.flatMap arenaValues := rfl

/-- Where all entries of the bridges are still referred to, they are not let go of. -/
lemma filter_referencesOf_values (s t : Session)
    (h : s.bridges.flatMap arenaValues ⊆ t.values) :
    (HostValue.referencesOf s.values).filter
        (fun v => !isAmong (HostValue.referencesOf t.values) v) =
      (HostValue.referencesOf s.ownValues).filter
        fun v => !isAmong (HostValue.referencesOf t.values) v := by
  rw [values_eq_append s, HostValue.referencesOf_eq_flatMap (s.ownValues ++ _),
    List.flatMap_append, List.filter_append, ← HostValue.referencesOf_eq_flatMap,
    ← HostValue.referencesOf_eq_flatMap]
  refine List.append_right_eq_self.2 (List.filter_eq_nil_iff.2 fun v hv => ?_)
  rw [isAmong_of_mem (HostValue.mem_referencesOf_of_subset h hv)]
  exact Bool.false_ne_true

/-! ### What is the same -/

namespace Alike

/-- Alike sessions have the same bridges, which are alike. -/
lemma bridge_cases (h : Alike f s t) (b : Nat) : (s.bridge? b = none ∧ t.bridge? b = none) ∨
    ∃ x y, s.bridge? b = some x ∧ t.bridge? b = some y ∧ x.Alike (f b) y := by
  cases hs : s.bridge? b with
  | none =>
    refine .inl ⟨rfl, List.getElem?_eq_none ?_⟩
    rw [← h.length]
    exact List.getElem?_eq_none_iff.1 hs
  | some x =>
    have hlt := (List.getElem?_eq_some_iff.1 hs).1
    rw [h.length] at hlt
    have ht : t.bridge? b = some t.bridges[b] := List.getElem?_eq_getElem hlt
    exact .inr ⟨x, _, rfl, ht, h.bridges b x _ hs ht⟩

lemma engine? (h : Alike f s t) (b : Nat) :
    s.engine? b = (t.engine? b).map (Engine.rename (f b)) := by
  rcases h.bridge_cases b with ⟨hs, ht⟩ | ⟨x, y, hs, ht, hxy⟩ <;>
    rw [Session.engine?, Session.engine?, hs, ht]
  · rfl
  · exact hxy.engine

lemma inCall (h : Alike f s t) (b : Nat) : s.inCall b = t.inCall b := by
  simp only [Session.inCall, h.frames, List.any_map, Function.comp_def, Frame.isScope_rename]

lemma isBusy (h : Alike f s t) (b : Nat) : s.isBusy b = t.isBusy b := by
  simp only [Session.isBusy, h.frames, List.any_map, Function.comp_def, Frame.isRunning_rename]

lemma isAt (h : Alike f s t) (b : Nat) (stage : Bridge.Stage) :
    s.isAt b stage = t.isAt b stage := by
  rcases h.bridge_cases b with ⟨hs, ht⟩ | ⟨x, y, hs, ht, hxy⟩ <;>
    rw [Session.isAt, Session.isAt, hs, ht]
  rw [Option.any_some, Option.any_some, hxy.stage]

lemma isWriting (h : Alike f s t) (o : HostObject) : s.isWriting o = t.isWriting o := by
  simp only [Session.isWriting, h.frames, List.any_map, Function.comp_def, Frame.isWriting_rename]

lemma isBorrowed (h : Alike f s t) (o : HostObject) : s.isBorrowed o = t.isBorrowed o := by
  simp only [Session.isBorrowed, h.isWriting, h.frames, List.any_map, Function.comp_def,
    Frame.isReading_rename]

lemma typeOf (h : Alike f s t) (o : HostObject) : s.typeOf o = t.typeOf o := by
  rw [Session.typeOf, Session.typeOf, h.types]

lemma state? (h : Alike f s t) (o : HostObject) : s.state? o = t.state? o := by
  rw [Session.state?, Session.state?, h.objects]

lemma identOf (h : Alike f s t) (o : HostObject) : s.identOf o = t.identOf o := by
  rw [Session.identOf, Session.identOf, h.state?]

lemma fieldsOf (h : Alike f s t) (o : HostObject) : s.fieldsOf o = t.fieldsOf o := by
  rw [Session.fieldsOf, Session.fieldsOf, h.state?]

lemma hasBridge (h : Alike f s t) (b : Nat) : s.hasBridge b = t.hasBridge b := h.isAt b _

lemma uses (h : Alike f s t) (b : Nat) : s.uses b = t.uses b := by
  simp only [Session.uses, h.control, h.frames, Control.bridge?_rename, List.any_map,
    Function.comp_def, Frame.bridge?_rename]

lemma bridgeAt? (h : Alike f s t) (stage : Bridge.Stage) {p q : Nat → Bool} (hp : ∀ b, p b = q b) :
    s.bridgeAt? stage p = t.bridgeAt? stage q := by
  simp only [Session.bridgeAt?, h.length, h.isAt, hp]

lemma abandoned? (h : Alike f s t) : s.abandoned? = t.abandoned? :=
  h.bridgeAt? _ fun b => by
    simp only [h.frames, List.any_map, Function.comp_def, Frame.isKeeping_rename]

lemma unused? (h : Alike f s t) : s.unused? = t.unused? :=
  h.bridgeAt? _ fun b => by rw [h.uses]

/-! ### What is referred to -/

lemma perm_arenaValues {f : Slot → Slot} {x y : Bridge} (h : x.Alike f y) :
    (arenaValues x).Perm (arenaValues y) :=
  (h.arena.perm_values.filterMap _).map _

/-- The entries of all bridges refer to the same objects, though not in the same order. -/
lemma perm_entries (h : Alike f s t) :
    (s.bridges.flatMap arenaValues).Perm (t.bridges.flatMap arenaValues) := by
  have hrel : List.Forall₂ (fun x y => (arenaValues x).Perm (arenaValues y)) s.bridges t.bridges :=
    List.forall₂_iff_get.2 ⟨h.length, fun b hs ht => by
      refine perm_arenaValues (h.bridges b _ _ (List.getElem?_eq_getElem hs) ?_)
      exact List.getElem?_eq_getElem ht⟩
  generalize s.bridges = xs at hrel
  generalize t.bridges = ys at hrel
  induction hrel with
  | nil => exact .refl _
  | cons hxy _ ih => exact hxy.append ih

lemma ownValues (h : Alike f s t) : s.ownValues = t.ownValues := by
  simp only [Session.ownValues, h.control, h.frames, h.registers, h.objects,
    Control.values_rename, List.flatMap_map, Frame.values_rename]

lemma perm_values (h : Alike f s t) : s.values.Perm t.values := by
  rw [values_eq_append, values_eq_append, h.ownValues]
  exact h.perm_entries.append_left _

lemma objectsOf_any (h : Alike f s t) (p : HostObject → Bool) :
    (HostValue.objectsOf s.values).any p = (HostValue.objectsOf t.values).any p := by
  simp only [HostValue.objectsOf_eq_flatMap]
  exact (h.perm_values.flatMap_right _).any_eq

lemma foreignsOf_any (h : Alike f s t) (p : ForeignObject → Bool) :
    (HostValue.foreignsOf s.values).any p = (HostValue.foreignsOf t.values).any p := by
  simp only [HostValue.foreignsOf_eq_flatMap]
  exact (h.perm_values.flatMap_right _).any_eq

lemma refersTo (h : Alike f s t) (o : HostObject) : s.refersTo o = t.refersTo o :=
  h.objectsOf_any _

lemma deadLease? (h : Alike f s t) : s.deadLease? = t.deadLease? := by
  simp only [Session.deadLease?, h.leases, h.foreignsOf_any]

lemma deadObject? (h : Alike f s t) : s.deadObject? = t.deadObject? := by
  simp only [Session.deadObject?, h.objects, h.objectsOf_any]

lemma isAmong (h : Alike f s t) :
    Session.isAmong (HostValue.referencesOf s.values) =
      Session.isAmong (HostValue.referencesOf t.values) := by
  funext v
  have hperm := h.perm_values.flatMap_right HostValue.references
  simp only [HostValue.referencesOf_eq_flatMap]
  cases v with
  | object o => exact hperm.any_eq
  | foreign g => exact hperm.any_eq
  | _ => rfl

/-! ### What leaves sessions alike -/

lemma goto (h : Alike f s t) (c : Control) : Alike f (s.goto (c.rename f)) (t.goto c) :=
  { h with control := rfl }

lemma push (h : Alike f s t) (frame : Frame) :
    Alike f (s.push (frame.rename f)) (t.push frame) :=
  { h with frames := by rw [Session.push, h.frames]; rfl }

/-- A frame is taken off the stack. -/
lemma pop (h : Alike f s t) {l : List Frame} :
    Alike f { s with frames := l.map (Frame.rename f) } { t with frames := l } :=
  { h with frames := rfl }

lemma give (h : Alike f s t) (v : HostValue) : Alike f (s.give v) (t.give v) :=
  h.goto (.done (.ok v))

lemma finish (h : Alike f s t) : Alike f s.finish t.finish := h.goto .finished

lemma fail (h : Alike f s t) (e : BridgeError) : Alike f (s.fail e) (t.fail e) :=
  h.goto (.done (.error (.operation e)))

lemma throw (h : Alike f s t) (e : HostError) : Alike f (s.throw e) (t.throw e) :=
  h.goto (.done (.error (.host e)))

lemma interrupt (h : Alike f s t) (c : Control) :
    Alike f (s.interrupt (c.rename f)) (t.interrupt c) := by
  unfold Session.interrupt
  rw [h.control]
  exact (h.push (.interrupted t.control)).goto c

/-- A bridge changes in both sessions. -/
lemma updateBridge (h : Alike f s t) {g k : Bridge → Bridge}
    (hg : ∀ x y, s.bridge? b = some x → t.bridge? b = some y → x.Alike (f b) y →
      (g x).Alike (f b) (k y)) : Alike f (s.updateBridge b g) (t.updateBridge b k) :=
  { h with
    length := by simpa [Session.updateBridge] using h.length
    bridges := fun c x y hx hy => by
      rw [bridge?_updateBridge] at hx hy
      split at hx
      · next heq =>
        subst heq
        rw [if_pos rfl] at hy
        obtain ⟨x', hx', rfl⟩ := Option.map_eq_some_iff.1 hx
        obtain ⟨y', hy', rfl⟩ := Option.map_eq_some_iff.1 hy
        exact hg x' y' hx' hy' (h.bridges b x' y' hx' hy')
      · next hne =>
        rw [if_neg hne] at hy
        exact h.bridges c x y hx hy }

lemma record (h : Alike f s t) (b : Nat) (c : Crossing) : Alike f (s.record b c) (t.record b c) :=
  h.updateBridge fun _ _ _ _ hxy => { hxy with tally := congrArg (Tally.record · c) hxy.tally }

lemma describe (h : Alike f s t) (b : Nat) (type : Nat) :
    Alike f (s.updateBridge b (·.describe type)) (t.updateBridge b (·.describe type)) :=
  h.updateBridge fun _ _ _ _ hxy => by
    unfold Bridge.describe
    rw [hxy.described]
    split
    · exact hxy
    · exact { hxy with described := rfl }

lemma updateFields (h : Alike f s t) (o : HostObject)
    (g : List (String × HostValue) → List (String × HostValue)) :
    Alike f (s.updateFields o g) (t.updateFields o g) :=
  { h with objects := by rw [Session.updateFields, h.objects]; rfl }

lemma log (h : Alike f s t) (text : String) : Alike f (s.log text) (t.log text) :=
  { h with disposed := congrArg (text :: ·) h.disposed }

lemma setRegister (h : Alike f s t) (name : String) (v : HostValue) :
    Alike f (s.setRegister name v) (t.setRegister name v) :=
  { h with registers := congrArg (put · name v) h.registers }

lemma dropRegister (h : Alike f s t) (name : String) :
    Alike f (s.dropRegister name) (t.dropRegister name) :=
  { h with
    registers := congrArg (erase · name) h.registers
    control := by rw [Session.dropRegister, h.registers]; rfl }

lemma leaveBridge (h : Alike f s t) (b : Nat) : Alike f (s.leaveBridge b) (t.leaveBridge b) := by
  unfold Session.leaveBridge
  rw [h.hasBridge]
  split
  · exact h.updateBridge fun _ _ _ _ hxy => { hxy with stage := rfl }
  · exact h

lemma gotoMember (h : Alike f s t) (g : ForeignObject) (op : Operation) :
    Alike f (s.gotoMember g op) (t.gotoMember g op) := by
  unfold Session.gotoMember
  rw [h.isAt]
  split
  · exact h.fail _
  · exact h.goto (.operate g.bridge op)

/-- What is let go of is the same in both sessions, as long as no entry of an arena is among it. -/
lemma lettingGo {s₀ t₀ : Session} (h₀ : Alike f s₀ t₀) (h : Alike f s t)
    (hk : t₀.bridges.flatMap arenaValues ⊆ t.values) :
    Alike f (s₀.lettingGo s) (t₀.lettingGo t) := by
  have hlost : (HostValue.referencesOf s₀.values).filter
        (fun v => !Session.isAmong (HostValue.referencesOf s.values) v) =
      (HostValue.referencesOf t₀.values).filter
        (fun v => !Session.isAmong (HostValue.referencesOf t.values) v) := by
    rw [h.isAmong, filter_referencesOf_values t₀ t hk,
      filter_referencesOf_values s₀ t fun v hv => hk (h₀.perm_entries.subset hv), h₀.ownValues]
  unfold Session.lettingGo
  dsimp only
  rw [hlost, h.control]
  generalize (HostValue.referencesOf t₀.values).filter
    (fun v => !Session.isAmong (HostValue.referencesOf t.values) v) = lost
  cases hc : t.control <;> dsimp only [Control.rename] <;>
    first
      | exact h
      | (rcases lost with _ | ⟨v, _ | ⟨w, lost⟩⟩ <;> first | exact h | exact h.interrupt (.drop _))

end Alike

/-! ### Making values -/

/-- A value and a session are the same as another value and session, but for the slots. -/
structure AlikeMade {α : Type} (f : Nat → Slot → Slot) (x y : α × Session) : Prop where
  fst : x.1 = y.1
  snd : Alike f x.2 y.2

lemma AlikeMade.exists_eq {α : Type} {x y : α × Session} (h : AlikeMade f x y) :
    ∃ a s' t', x = (a, s') ∧ y = (a, t') ∧ Alike f s' t' := by
  obtain ⟨a, s'⟩ := x
  obtain ⟨a', t'⟩ := y
  obtain ⟨rfl, hst⟩ := h
  exact ⟨a, s', t', rfl, rfl, hst⟩

lemma Alike.allocate (h : Alike f s t) (type : Nat) (ident : String)
    (fields : List (String × HostValue)) :
    AlikeMade f (s.allocate type ident fields) (t.allocate type ident fields) where
  fst := by rw [Session.allocate, Session.allocate, h.nextObject, h.types]
  snd := { h with
    objects := by rw [Session.allocate, Session.allocate, h.objects, h.nextObject, h.types]
    nextObject := congrArg (· + 1) h.nextObject }

mutual
theorem Alike.build {s t : Session} (h : Alike f s t) :
    ∀ tpl : Template, AlikeMade f (s.build tpl) (t.build tpl)
  | .plain .. => ⟨rfl, h⟩
  | .array ts => by
    obtain ⟨hvs, hs⟩ := h.buildItems ts
    exact ⟨congrArg HostValue.array hvs, hs⟩
  | .fresh type ident fields => by
    obtain ⟨fs, s', t', hs, ht, hst⟩ := (h.buildFields fields).exists_eq
    rw [Session.build, Session.build, hs, ht]
    exact hst.allocate type ident fs
  | .register name => ⟨by rw [Session.build, Session.build, h.registers], h⟩

theorem Alike.buildItems {s t : Session} (h : Alike f s t) :
    ∀ ts : List Template, AlikeMade f (s.buildItems ts) (t.buildItems ts)
  | [] => ⟨rfl, h⟩
  | tpl :: ts => by
    obtain ⟨hv, hs⟩ := h.build tpl
    obtain ⟨hvs, hs⟩ := hs.buildItems ts
    exact ⟨congrArg₂ List.cons hv hvs, hs⟩

theorem Alike.buildFields {s t : Session} (h : Alike f s t) :
    ∀ fields : List (String × Template), AlikeMade f (s.buildFields fields) (t.buildFields fields)
  | [] => ⟨rfl, h⟩
  | (name, tpl) :: rest => by
    obtain ⟨hv, hs⟩ := h.build tpl
    obtain ⟨hvs, hs⟩ := hs.buildFields rest
    exact ⟨congrArg₂ List.cons (congrArg (name, ·) hv) hvs, hs⟩
end

lemma Alike.buildAccess (h : Alike f s t) (access : Access Template) :
    AlikeMade f (s.buildAccess access) (t.buildAccess access) := by
  cases access with
  | get => exact ⟨rfl, h⟩
  | set tpl =>
    obtain ⟨hv, hs⟩ := h.build tpl
    exact ⟨congrArg Access.set hv, hs⟩
  | invoke ts =>
    obtain ⟨hvs, hs⟩ := h.buildItems ts
    exact ⟨congrArg Access.invoke hvs, hs⟩

lemma AlikeMade.give {x y : HostValue × Session} (h : AlikeMade f x y) :
    Alike f (giveMade x) (giveMade y) := by
  unfold giveMade
  rw [h.fst]
  exact h.snd.give _

/-! ### Doing one action -/

namespace Alike

lemma withBridge (h : Alike f s t) {n : Session → Nat → Session}
    (hn : ∀ b, Alike f (n s b) (n t b)) : Alike f (s.withBridge n) (t.withBridge n) := by
  unfold Session.withBridge
  rw [h.current, h.hasBridge]
  split
  · exact hn _
  · exact h.throw _

lemma operateHere (h : Alike f s t) (op : Operation) :
    Alike f (s.operateHere op) (t.operateHere op) :=
  h.withBridge fun b => ((h.push .reporting).push (.keeping b)).goto (.operate b op)

lemma withResult (h : Alike f s t) {α : Type} (r : Except HostError α) {n m : α → Session}
    (hn : ∀ a, Alike f (n a) (m a)) : Alike f (s.withResult r n) (t.withResult r m) := by
  cases r with
  | ok a => exact hn a
  | error e => exact h.throw e

lemma useMember (h : Alike f s t) (scene : Scene) (position : Nat) (name : String)
    (access : Access Template) :
    Alike f (s.useMember scene position name access) (t.useMember scene position name access) :=
  h.withResult _ fun g => by
    obtain ⟨made, s', t', hs, ht, hst⟩ := (h.buildAccess access).exists_eq
    rw [hs, ht]
    exact (hst.push .reporting).gotoMember g _

lemma actFirst (h : Alike f s t) (actions : List Action) (scene : Scene) {none none' : Session}
    (hnone : Alike f none none') {frame : List Action → Frame}
    (hf : ∀ rest, (frame rest).rename f = frame rest) :
    Alike f (s.actFirst actions scene none frame) (t.actFirst actions scene none' frame) := by
  cases actions with
  | nil => exact hnone
  | cons a rest =>
    have hpush := h.push (frame rest)
    rw [hf] at hpush
    exact hpush.goto (.act a scene)

lemma used (h : Alike f s t) (b : Nat) :
    ((s.bridge? b).elim (0 : Int) fun br => br.arena.occupancy.used) =
      (t.bridge? b).elim (0 : Int) fun br => br.arena.occupancy.used := by
  rcases h.bridge_cases b with ⟨hs, ht⟩ | ⟨x, y, hs, ht, hxy⟩ <;> rw [hs, ht]
  exact congrArg (fun n : Nat => (n : Int)) hxy.arena.used_eq

lemma isDisposed (h : Alike f s t) (b : Nat) :
    (s.engine? b).isNone = (t.engine? b).isNone := by
  rw [h.engine?, Option.isNone_map]

/-- **Host code does the same in both sessions.** -/
theorem actStep (h : Alike f s t) (a : Action) (scene : Scene) :
    Alike f (s.actStep a scene) (t.actStep a scene) := by
  cases a with
  | const tpl => exact (h.build tpl).give
  | throw text => exact h.throw _
  | panic payload => exact h.goto (.done (.error (.panic (panicText payload))))
  | eval script => exact h.operateHere _
  | getVariable name => exact h.operateHere _
  | setVariable name tpl =>
    obtain ⟨v, s', t', hs, ht, hst⟩ := (h.build tpl).exists_eq
    simp only [Session.actStep, hs, ht]
    exact hst.operateHere _
  | flush => exact h.operateHere _
  | dispose =>
    exact h.withBridge (n := fun s b => (s.push (.keeping b)).goto (.dispose b)) fun b =>
      (h.push (.keeping b)).goto (.dispose b)
  | isDisposed =>
    refine h.withBridge (n := fun s b => s.give (.bool (s.engine? b).isNone)) fun b => ?_
    rw [h.isDisposed]
    exact h.give _
  | used =>
    refine h.withBridge (n := fun s b =>
      s.give (.ofWide ((s.bridge? b).elim 0 fun br => br.arena.occupancy.used))) fun b => ?_
    rw [h.used]
    exact h.give _
  | drop register => exact h.dropRegister register
  | dropBridge =>
    unfold Session.actStep
    rw [h.current, h.hasBridge]
    exact (h.leaveBridge _).give _
  | field name =>
    unfold Session.actStep
    rw [h.fieldsOf]
    exact h.give _
  | ident =>
    unfold Session.actStep
    rw [h.identOf]
    exact h.give _
  | storeValue field kind => exact h.withResult _ fun v => (h.updateFields _ _).finish
  | sink => exact h.finish
  | echo => exact h.give _
  | label text => exact h.give _
  | arity => exact h.give _
  | arg kind position => exact h.withResult _ fun v => h.give v
  | store field kind position => exact h.withResult _ fun v => (h.updateFields _ _).finish
  | forget field =>
    unfold Session.actStep
    rw [h.fieldsOf]
    exact (h.updateFields _ _).give _
  | save register position =>
    refine h.withResult _ fun v => ?_
    rw [h.registers]
    exact (h.setRegister _ _).give _
  | invoke position name args => exact h.useMember scene position name (.invoke args)
  | get position name => exact h.useMember scene position name .get
  | set position name tpl => exact h.useMember scene position name (.set tpl)
  | seq actions => exact h.actFirst _ _ h.finish fun _ => rfl
  | list actions => exact h.actFirst _ _ (h.give _) fun _ => rfl
  | attempt action => exact (h.push .attempting).goto (.act action scene)

end Alike

end Session

end ScriptBridge
