/-
# How exceptions pass through an engine

The host answers a call with a failure: a stand-in for the entry of the failure is made, and that
is what is thrown.  An exception goes down the stack until a frame catches it.  Where none does, it
ends the operation, and what it stands for is what the host hears of it.  Until then it stands for
the same entry, whatever script does with it.
-/
import ScriptBridge.Proofs.Engine.Landing
import ScriptBridge.Proofs.Engine.Rest

namespace ScriptBridge

open ScriptBridge.Script ScriptBridge.Table ScriptBridge.Wire

/-! ### What stays what it is -/

namespace Script.Heap

variable {h h' h'' : Heap}

/-- Nothing on a later heap is anything else than it was on an earlier one, unless it is new. -/
structure Ages (h h' : Heap) : Prop where
  next_le : h.next ≤ h'.next
  sort : ∀ q o, q < h.next → h'.get? q = some o → ∃ p, h.get? q = some p ∧ p.sort = o.sort

namespace Ages

@[refl] lemma refl (h : Heap) : Ages h h := ⟨Nat.le_refl _, fun _ o _ ho => ⟨o, ho, rfl⟩⟩

lemma trans (h₁ : Ages h h') (h₂ : Ages h' h'') : Ages h h'' where
  next_le := Nat.le_trans h₁.next_le h₂.next_le
  sort q o hq ho := by
    obtain ⟨p, hp, hsort⟩ := h₂.sort q o (Nat.lt_of_lt_of_le hq h₁.next_le) ho
    obtain ⟨p', hp', hsort'⟩ := h₁.sort q p hq hp
    exact ⟨p', hp', hsort'.trans hsort⟩

lemma restrict (h : Heap) (p : Ref → Bool) : Ages h (h.restrict p) where
  next_le := Nat.le_refl _
  sort _ o _ ho := ⟨o, (get?_of_restrict ho).2, rfl⟩

end Ages

lemma Keeps.ages (hk : Keeps h h') : Ages h h' := ⟨hk.next_le, fun _ _ => hk.get?_of_lt⟩

end Script.Heap

namespace Engine

variable {e e' : Engine} {q : Ref} {o : Object} {c : Control} {base fs st : List Frame} {v : Value}
  {slot : Slot} {r : Record}

lemma heap_withValue (made : Outcome × Engine) : (withValue made give).heap = made.2.heap := by
  obtain ⟨v | v, e⟩ := made <;> rfl

lemma heap_nextItem (array : Ref) (index : Nat) (items : List Record) :
    (e.nextItem array index items).heap = e.heap := by
  cases items <;> rfl

lemma heap_nextElement (array : Ref) (depth length index : Nat) (done : List Record) :
    (e.nextElement array depth length index done).heap = e.heap := by
  unfold nextElement
  split <;> rfl

lemma ScriptWork.ages {P : Prop} {e₀ : Engine} (h : ScriptWork P e₀ e) : e₀.heap.Ages e.heap := by
  cases h with
  | inner h => exact h.heap.ages
  | asks h => exact h.heap.ages
  | sends h => exact h.heap.ages

/-- Where no stand-in is being made, nothing becomes anything else. -/
lemma Advance.ages {ev : Event} (ha : Advance True e e' ev) (hh : e.Honest)
    (hm : ∀ f ∈ e.stack, f.isMaking = false) : e.heap.Ages e'.heap := by
  cases ha with
  | works hin h => exact h.ages
  | pops hs hf hentry hin h => exact h.ages
  | startsArray => rw [heap_nextElement]
  | nextElement => rw [heap_nextElement]
  | pins hb =>
    rcases hb with rfl | ⟨f, rest, -, -, -, rfl⟩ <;> exact .refl _
  | @takes r hcon =>
    rw [heap_withValue]
    exact (takes_convert (P := True) e hh.handles r).1.keeps.ages
  | startsItems =>
    rw [heap_nextItem]
    exact (Heap.Keeps.alloc _ _).ages
  | startsStandIn => exact (Heap.Keeps.alloc _ _).ages
  | nextItem => rw [heap_nextItem]
  | takesClass hs =>
    have hmaking := hm _ (by rw [hs]; exact List.mem_cons_self ..)
    cases hmaking
  | enters hs =>
    exact (hh.frames (.pending (.entered _)) (by rw [hs]; exact List.mem_cons_self ..)).elim
  | collects =>
    change e.heap.Ages e.sweep.heap
    rw [sweep_eq]
    exact .restrict _ _
  | _ => exact .refl _

/-- **Nothing becomes anything else**, as long as nothing is in the place of the class of
stand-ins. -/
theorem Honest.ages_step (hh : e.Honest) (hs : e.Shaped) (hi : e.isIntact .proxy = true) :
    e.heap.Ages e.step.1.heap := by
  unfold Engine.step
  split
  · exact .refl _
  · split
    · dsimp only
      rw [Heap.erase_eq_restrict]
      exact .restrict _ _
    · rcases hh.making with hm | ⟨slot, token, rest, hstack, hm, hc⟩
      · exact (proceed_advance hs hh.sighted).ages hh hm
      · rcases hc with hc | hc
        · simp only [proceed, hc, readStep, globalObject, find_proxy hh.guarded hi, giveFound]
          exact .refl _
        · simp only [proceed, hc, popWith, hstack, retStep, pendingStep, takeStandInClass, if_true]
          exact (Heap.Keeps.alloc _ _).ages

/-! ### Exceptions -/

/-- The object of the heap that is being thrown, where an engine is about to look for a handler. -/
def thrown? (e : Engine) : Option Ref :=
  match e.control with
  | .throw (.object q) => if (e.heap.get? q).isSome then some q else none
  | _ => none

lemma thrown?_eq_some : e.thrown? = some q ↔
    e.control = .throw (.object q) ∧ ∃ o, e.heap.get? q = some o := by
  rw [← Option.isSome_iff_exists]
  unfold thrown?
  split
  · next p hc =>
    rw [hc, Option.ite_none_right_eq_some, Option.some.injEq, Control.throw.injEq,
      Value.object.injEq]
    constructor
    · rintro ⟨hp, rfl⟩
      exact ⟨rfl, hp⟩
    · rintro ⟨rfl, hp⟩
      exact ⟨hp, rfl⟩
  · next hne => exact iff_of_false nofun fun h => hne q h.1

/-- Whether an exception goes on to the next frame. -/
def Frame.passes : Frame → Bool
  | .guard .. | .sending .. | .printing _ | .entry _ => false
  | _ => true

lemma Frame.exists_of_isEntry {f : Frame} (hf : f.isEntry = true) : ∃ c, f = .entry c := by
  unfold isEntry at hf
  split at hf
  · exact ⟨_, rfl⟩
  · cases hf

/-- An exception that is thrown within an operation comes to a frame that does not let it pass. -/
lemma exists_of_below {x : Control × List Frame} (h : below st = some x) :
    ∃ fs f base, st = fs ++ f :: base ∧ (∀ f ∈ fs, f.passes = true) ∧ f.passes = false := by
  induction st with
  | nil => cases h
  | cons f rest ih =>
    cases hf : f.passes with
    | false => exact ⟨[], f, rest, rfl, List.forall_mem_nil _, hf⟩
    | true =>
      have hentry : f.isEntry = false := by
        cases f <;> first | rfl | cases hf
      rw [below_cons hentry] at h
      obtain ⟨fs, g, base, rfl, hfs, hg⟩ := ih h
      exact ⟨f :: fs, g, base, rfl, List.forall_mem_cons.2 ⟨hf, hfs⟩, hg⟩

/-- A frame that an exception passes leaves behind only slots to be given up. -/
lemma throwStep_of_passes {f : Frame} (hf : f.passes = true) :
    ∃ slots, e.throwStep f v = { e with released := e.released ++ slots } := by
  have hnone : e = { e with released := e.released ++ [] } := by rw [List.append_nil]
  cases f with
  | items array index rest => exact ⟨_, rfl⟩
  | placed array index rest => exact ⟨_, rfl⟩
  | guard handler env => cases hf
  | sending call result held => cases hf
  | printing thrown => cases hf
  | entry c => cases hf
  | _ => exact ⟨[], hnone⟩

lemma proceed_throw {f : Frame} {rest : List Frame} (hc : e.control = .throw v)
    (hs : e.stack = f :: rest) :
    e.proceed = (({ e with stack := rest } : Engine).throwStep f v, .silent) := by
  simp only [proceed, hc, popWith, hs]

/-- Whether an engine is about to hand an exception to a handler of script. -/
def isCatching (e : Engine) : Bool :=
  match e.control, e.stack with
  | .throw _, .guard .. :: _ => true
  | _, _ => false

/-- Whether an exception only breaks off what the engine does on its own: the copying of what script
calls the host with, or the printing of another exception. -/
def isDiverted (e : Engine) : Bool :=
  match e.control, e.stack with
  | .throw _, .sending .. :: _ => true
  | .throw _, .printing _ :: _ => true
  | _, _ => false

lemma isCatching_of_control (hc : e.control.isThrow = false) : e.isCatching = false := by
  unfold isCatching
  split
  · next hthrow _ =>
    rw [hthrow] at hc
    cases hc
  · rfl

lemma isCatching_of_stack {f : Frame} (hs : e.stack = f :: base)
    (hf : ∀ handler env, f ≠ .guard handler env) : e.isCatching = false := by
  unfold isCatching
  rw [hs]
  split
  · next heq =>
    cases heq
    exact absurd rfl (hf _ _)
  · rfl

lemma Frame.ne_guard_of_passes {f : Frame} (hf : f.passes = true) (handler : Expr) (env : Env) :
    f ≠ .guard handler env := by
  rintro rfl
  cases hf

/-- **An exception passes frames** until one does not let it pass, and what it refers to stays as it
is. -/
theorem exists_passed_of_throw (hc : e.control = .throw v) (hs : e.heap.Sound)
    (hstack : e.stack = fs ++ base) (hfs : ∀ f ∈ fs, f.passes = true) :
    ∃ h slots, RunsWhile (·.isCatching = false) e
        { e with heap := h, stack := base, released := slots } ∧
      h.Sound ∧ ∀ q ∈ v.refs, h.get? q = e.heap.get? q := by
  induction fs generalizing e with
  | nil =>
    exact ⟨e.heap, e.released, by rw [← List.nil_append base, ← hstack], hs, fun _ _ => rfl⟩
  | cons f fs ih =>
    obtain ⟨hf, hfs⟩ := List.forall_mem_cons.1 hfs
    obtain ⟨h₁, hspares₁, hruns₁⟩ := exists_runs e hs
    let e₁ : Engine := { e with heap := h₁, stack := fs ++ base, released := [] }
    obtain ⟨slots, hthrow⟩ := throwStep_of_passes (e := e₁) (v := v) hf
    have hruns₁ := (hruns₁ { e₁ with released := slots } (by
      rw [proceed_throw (e := { e with heap := h₁, released := [] }) hc hstack]
      exact congrArg (·, Event.silent) hthrow)).mono fun x hstays =>
        isCatching_of_stack (hstays.stack.trans hstack) (Frame.ne_guard_of_passes hf)
    obtain ⟨h₂, slots₂, hruns₂, hsound, hkept⟩ :=
      ih (e := { e₁ with released := slots }) hc hspares₁.sound rfl hfs
    refine ⟨h₂, slots₂, hruns₁.trans hruns₂, hsound, fun q hq => (hkept q hq).trans ?_⟩
    exact hspares₁.get? q (reached_of_control (by rw [hc]; exact hq))

/-- An object that is thrown is the same when it has passed frames. -/
theorem exists_passed (hc : e.control = .throw (.object q)) (hs : e.heap.Sound)
    (ho : e.heap.get? q = some o) (hstack : e.stack = fs ++ base)
    (hfs : ∀ f ∈ fs, f.passes = true) :
    ∃ h slots, RunsWhile (·.isCatching = false) e
        { e with heap := h, stack := base, released := slots } ∧
      h.Sound ∧ h.get? q = some o := by
  obtain ⟨h, slots, hruns, hsound, hkept⟩ := exists_passed_of_throw hc hs hstack hfs
  exact ⟨h, slots, hruns, hsound, (hkept q (List.mem_singleton_self q)).trans ho⟩

/-- The record that an exception becomes at once, and the handles that are then in use. -/
inductive Settles (e : Engine) : Value → Record → Handles Ref → Prop
  /-- It stands for an entry of the host. -/
  | entry {q : Ref} {slot : Slot} (hentry : (e.heap.get? q).bind (·.entry) = some slot) :
    Settles e (.object q) (.managedError slot) e.handles
  /-- It is another object, for which there is a handle. -/
  | object {q : Ref} {h : Handle} {handles : Handles Ref}
    (hentry : (e.heap.get? q).bind (·.entry) = none)
    (hinsert : e.handles.insert q = some (h, handles)) :
    Settles e (.object q) (.foreignError h) handles
  /-- It is no object. -/
  | plain {v : Value} (hv : ∀ q, v ≠ .object q) :
    Settles e v (.unknownError (some (thrownText v))) e.handles

/-- An exception becomes a record at once, unless it is an object for which there is no handle. -/
lemma exists_settles (e : Engine) (v : Value) : (∃ r handles, e.Settles v r handles) ∨
    ∃ q, v = .object q ∧ (e.heap.get? q).bind (·.entry) = none ∧ e.handles.insert q = none := by
  cases v with
  | object q =>
    cases hentry : (e.heap.get? q).bind (·.entry) with
    | some slot => exact .inl ⟨_, _, .entry hentry⟩
    | none =>
      cases hinsert : e.handles.insert q with
      | some made => exact .inl ⟨_, _, .object hentry hinsert⟩
      | none => exact .inr ⟨q, rfl, hentry, hinsert⟩
  | _ => exact .inl ⟨_, _, .plain nofun⟩

variable {handles : Handles Ref}

lemma Settles.settleError_eq (h : e.Settles v r handles) :
    e.settleError v = { e with handles := handles, control := .encoded r } := by
  cases h with
  | entry hentry => simp only [settleError, hentry, goto]
  | object hentry hinsert =>
    simp only [settleError, hentry, Engine.pin, hinsert, Option.map_some, goto]
  | plain hv =>
    cases v with
    | object q => exact absurd rfl (hv q)
    | _ => rfl

/-- An object for which there is no handle is printed. -/
lemma settleError_of_full (hentry : (e.heap.get? q).bind (·.entry) = none)
    (hfull : e.handles.insert q = none) : e.settleError (.object q) =
      (e.push (.printing (.object q))).giveText (.object q) none := by
  simp only [settleError, hentry, Engine.pin, hfull, Option.map_none]

/-- The record depends only on what the exception refers to, and on the handles. -/
lemma Settles.of_kept (h : e.Settles v r handles)
    (hkept : ∀ q ∈ v.refs, e'.heap.get? q = e.heap.get? q) (hhandles : e'.handles = e.handles) :
    e'.Settles v r handles := by
  cases h with
  | entry hentry =>
    rw [← hkept _ (List.mem_singleton_self _)] at hentry
    exact hhandles ▸ .entry hentry
  | object hentry hinsert =>
    rw [← hkept _ (List.mem_singleton_self _)] at hentry
    exact .object hentry (hhandles ▸ hinsert)
  | plain hv => exact hhandles ▸ .plain hv

/-- **An exception that nothing catches ends its operation**, with the reply that there is for
it. -/
theorem Settles.exists_reply (h : e.Settles v r handles) (hc : e.control = .throw v)
    (hs : e.heap.Sound) (hstack : e.stack = .entry c :: base) :
    ∃ h, RunsWhile (·.isCatching = false) e { e with
        heap := h, handles := handles, stack := .entry c :: base, control := .encoded r
        released := [] } ∧
      ({ e with
        heap := h, handles := handles, stack := .entry c :: base, control := .encoded r
        released := [] } : Engine).Clean := by
  obtain ⟨h₁, hspares₁, hruns₁⟩ := exists_runs e hs
  let e₁ : Engine :=
    { e with
      heap := h₁, handles := handles, stack := .entry c :: base, control := .encoded r
      released := [] }
  have hruns₁ := (hruns₁ e₁ (by
    rw [proceed_throw (e := { e with heap := h₁, released := [] }) hc hstack]
    have hkept : { e with heap := h₁, stack := .entry c :: base, released := [] }.Settles v r
        handles := h.of_kept
      (fun q hq => hspares₁.get? q (reached_of_control (by rw [hc]; exact hq))) rfl
    exact congrArg (·, Event.silent) hkept.settleError_eq)).mono fun x hstays =>
      isCatching_of_stack (hstays.stack.trans hstack) nofun
  obtain ⟨h₂, hruns₂, -, hclean⟩ := exists_cleared e₁ hspares₁.sound
  have hruns₂ := hruns₂.mono fun x hstays => isCatching_of_control (by rw [hstays.control]; rfl)
  exact ⟨h₂, hruns₁.trans hruns₂, hclean⟩

/-- What stands for an entry ends its operation with the slot of the entry. -/
theorem exists_unwound (hc : e.control = .throw (.object q)) (hs : e.heap.Sound)
    (ho : e.heap.get? q = some o) (hentry : o.entry = some slot)
    (hstack : e.stack = .entry c :: base) :
    ∃ h, RunsWhile (·.isCatching = false) e { e with
        heap := h, stack := .entry c :: base, control := .encoded (.managedError slot)
        released := [] } ∧
      ({ e with
        heap := h, stack := .entry c :: base, control := .encoded (.managedError slot)
        released := [] } : Engine).Clean :=
  (Settles.entry (by rw [ho, Option.bind_some, hentry])).exists_reply hc hs hstack

/-! ### Handlers -/

/-- What is thrown is a stand-in that is left as it is. -/
lemma get?_markThrown {token : Ref} (ho : e.heap.get? q = some o)
    (hk : o.kind = .proxy slot token) :
    (e.markThrown (.object q)).heap.get? q = some o := by
  change (e.heap.update q _).get? q = some o
  rw [Heap.get?_update, if_pos rfl, ho, Option.map_some, hk]

lemma sound_markThrown (hs : e.heap.Sound) (v : Value) : (e.markThrown v).heap.Sound := by
  cases v with
  | object q =>
    simp only [markThrown]
    exact hs.update q _
  | _ => exact hs

/-- A handler that throws at once what it has caught. -/
def rethrowing : Expr := .op .throw [.caught]

/-- **A handler that throws at once what it has caught** hands it on to the frames beneath it. -/
theorem exists_rethrown {token : Ref} {env : Env} (hc : e.control = .throw (.object q))
    (hs : e.heap.Sound) (ho : e.heap.get? q = some o) (hk : o.kind = .proxy slot token)
    (hstack : e.stack = .guard rethrowing env :: base) :
    ∃ h slots, Runs e { e with heap := h, stack := base, released := slots } ∧
      h.get? q = some o := by
  let env' : Env := { env with caught := some (.object q) }
  let hold : Frame := .hold [.object q]
  have hheld : ∀ e : Engine, (∃ f ∈ e.stack, f = hold) → e.Reached q := fun e ⟨f, hf, heq⟩ =>
    reached_of_frame hf (by rw [heq]; exact List.mem_singleton_self _)
  -- The handler starts.
  obtain ⟨h₁, hspares₁, hruns₁⟩ := exists_runs e hs
  have ho₁ : h₁.get? q = some o :=
    (hspares₁.get? q (reached_of_control (by rw [hc]; exact List.mem_singleton_self _))).trans ho
  let e₁ : Engine :=
    { e with heap := h₁, stack := hold :: base, control := .eval rethrowing env', released := [] }
  have hruns₁ := (hruns₁ e₁ (by
    rw [proceed_throw (e := { e with heap := h₁, released := [] }) hc hstack]
    rfl)).runs
  -- Its operand is what it has caught.
  obtain ⟨h₂, hspares₂, hruns₂⟩ := exists_runs e₁ hspares₁.sound
  have ho₂ := (hspares₂.get? q (hheld e₁ ⟨_, List.mem_cons_self .., rfl⟩)).trans ho₁
  let e₂ : Engine :=
    { e with
      heap := h₂, stack := .operands .throw [] [] env' :: hold :: base
      control := .eval .caught env', released := [] }
  have hruns₂ := (hruns₂ e₂ rfl).runs
  obtain ⟨h₃, hspares₃, hruns₃⟩ := exists_runs e₂ hspares₂.sound
  have ho₃ := (hspares₃.get? q (hheld e₂ ⟨_, by simp [e₂], rfl⟩)).trans ho₂
  let e₃ : Engine := { e₂ with heap := h₃, control := .ret (.object q), released := [] }
  have hruns₃ := (hruns₃ e₃ rfl).runs
  -- That is thrown.
  obtain ⟨h₄, hspares₄, hruns₄⟩ := exists_runs e₃ hspares₃.sound
  have ho₄ := (hspares₄.get? q (hheld e₃ ⟨_, by simp [e₃, e₂], rfl⟩)).trans ho₃
  let e₄ : Engine := { e with heap := h₄, stack := hold :: base, released := [] }
  have hruns₄ := (hruns₄ ((e₄.markThrown (.object q)).goto (.throw (.object q))) rfl).runs
  have hsound := sound_markThrown (e := e₄) hspares₄.sound (.object q)
  obtain ⟨h₅, slots, hruns₅, -, ho₅⟩ := exists_passed
    (e := (e₄.markThrown (.object q)).goto (.throw (.object q))) rfl hsound
    (get?_markThrown (e := e₄) ho₄ hk) (show hold :: base = [hold] ++ base from rfl)
    (List.forall_mem_singleton.2 rfl)
  refine ⟨h₅, slots, ?_, ho₅⟩
  have hall := ((hruns₁.trans hruns₂).trans hruns₃).trans (hruns₄.trans hruns₅.runs)
  rw [show e = { e with control := .throw (.object q) } by rw [← hc]] at hall ⊢
  exact hall

/-! ### Failures of the host -/

/-- **A failure of the host is thrown**, once a stand-in for its entry has been made, and nothing is
thrown before. -/
theorem exists_thrown {result : Option Value} {held : List Value}
    (hc : e.control = .reply (.managedError slot))
    (hstack : e.stack = .awaiting result held :: base)
    (hs : e.heap.Sound) (ha : e.Admits (.managedError slot)) :
    ∃ e' q o token, RunsSmoothly e e' ∧ e'.control = .throw (.object q) ∧ e'.stack = base ∧
      e'.heap.get? q = some o ∧ o.kind = .proxy slot token ∧ o.entry = some slot := by
  let r : Record := .managedError slot
  have hitems : ∀ items, r ≠ .array items := by
    intro items (hr : Record.managedError slot = .array items)
    cases hr
  have hview : r.view = .ok (.managedError slot) := Record.view_managedError slot
  have hsmooth : e.control.isThrow = false := by rw [hc]; rfl
  -- The answer is taken.
  obtain ⟨h₁, hspares₁, hruns₁⟩ := exists_runs e hs
  let e₁ : Engine :=
    { e with
      heap := h₁, stack := .accepting true result held :: base, control := .convert r
      released := [] }
  have hruns₁ := (hruns₁ e₁ (by
    simp only [proceed, hc, popWith, hstack, replyStep]
    rfl)).smoothly hsmooth
  have ha₁ : e₁.Admits r := ⟨by
    obtain ⟨g, hg, hrest⟩ := (hspares₁.retains.admits ha).proxy
    exact ⟨g, hg, hrest⟩, fun hr => absurd hr.choose_spec (hitems _)⟩
  -- A stand-in is made.
  obtain ⟨e₂, hruns₂, ⟨w, heq, hm⟩, hs₂, -⟩ :=
    lands_shallow (e := e₁) (n := 0) rfl hspares₁.sound ha₁
    (Nat.zero_le _) hitems (Record.isReadable_of_view hitems hview)
    (fun v hv => by
      obtain rfl := Except.ok.inj (hv.symm.trans hview)
      rfl)
    (by rw [Record.handles_managedError]; exact List.forall_mem_nil _)
  obtain ⟨q, o, token, rfl, ho, hk, hentry⟩ : ∃ q o token, w = .object q ∧
      e₂.heap.get? q = some o ∧ o.kind = .proxy slot token ∧ o.entry = some slot := by
    cases hm.depicts hitems hview with
    | standIn hv hq hn hk ho =>
      obtain rfl := View.managedError.inj (hv.resolve_left (by simp))
      exact ⟨_, _, _, rfl, hq, hk, ho⟩
    | vacant hv => rcases hv with hv | hv <;> cases hv
    | pinned hv => rcases hv with hv | hv <;> cases hv
  generalize e₂.heap = h₂ at heq hs₂ ho
  subst heq
  -- It is thrown.
  let e₂ : Engine :=
    { e with
      heap := h₂, stack := .accepting true result held :: base, control := .ret (.object q)
      released := [] }
  obtain ⟨h₃, hspares₃, hruns₃⟩ := exists_runs e₂ hs₂
  have ho₃ : h₃.get? q = some o :=
    (hspares₃.get? q (reached_of_control (List.mem_singleton_self _))).trans ho
  let e₃ : Engine :=
    { e with heap := h₃, stack := base, control := .ret (.object q), released := [] }
  have hruns₃ := (hruns₃ ((e₃.markThrown (.object q)).goto (.throw (.object q))) (by
    rw [proceed_ret (v := .object q) (f := .accepting true result held) (l := base) rfl rfl]
    rfl)).smoothly rfl
  exact ⟨_, q, o, token, (hruns₁.trans hruns₂).trans hruns₃, rfl, rfl,
    get?_markThrown (e := e₃) ho₃ hk, hk, hentry⟩

end Engine

end ScriptBridge
