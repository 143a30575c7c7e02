/-
# Copying a value

A value becomes a record by one walk through its arrays.  The walk is bounded by the room that
is left for arrays inside of each other and by the length that each array had when its turn
came, so that it ends whatever the heap looks like.  The only script on the way is what finds
out about dates, and it may call the host.  As long as that comes back and leaves the arrays as
they were, the record is a copy of the value, or an error where a string or a date kept the value
from becoming one.
-/
import ScriptBridge.Proofs.Engine.Beneath
import ScriptBridge.Proofs.Engine.HandBack
import ScriptBridge.Proofs.Engine.Holding
import ScriptBridge.Proofs.Engine.Unfolding

namespace ScriptBridge.Engine

open ScriptBridge.Number ScriptBridge.Script ScriptBridge.Table ScriptBridge.Wire

variable {e e₁ e₂ : Engine} {v w : Value} {q : Ref} {room depth : Nat} {f : Frame}
  {s base : List Frame} {p : Engine → Prop} {host : Engine → Engine}

/-! ### What an engine keeps while it works -/

/-- What copying relies on. -/
structure Kempt (e : Engine) : Prop where
  shaped : e.Shaped
  sound : e.heap.Sound
  indexed : e.handles.IsIndexed

lemma Kempt.step (hk : e.Kempt) : e.step.1.Kempt where
  shaped := hk.shaped.step
  sound := sound_step hk.shaped hk.sound
  indexed := by
    cases step_turns hk.shaped with
    | keeps ht => rw [ht]; exact hk.indexed
    | pins ho hi => exact hk.indexed.insert hi
    | drops hr => exact hk.indexed.remove hr

/-- What becomes of an engine next, with a host that makes something of it where it waits for the
host, as long as some frames remain. -/
inductive ContinuesWith (host : Engine → Engine) (base : List Frame) (e : Engine) : Engine → Prop
  /-- It works by itself. -/
  | works {e' : Engine} (h : Continues e e') : ContinuesWith host base e e'
  /-- It calls the host, or ends what the host has started. -/
  | serves (hs : base.length < e.stack.length) : ContinuesWith host base e e.step.1
  /-- The host starts an operation. -/
  | enters {op : Operation} (hc : e.control = .idle)
    (hs : ∃ result held rest, e.stack = .awaiting result held :: rest) (h : host e = e.enter op) :
    ContinuesWith host base e (host e)
  /-- The host answers. -/
  | answers {r : Record} (hc : e.control = .idle)
    (hs : ∃ result held rest, e.stack = .awaiting result held :: rest) (h : host e = e.answer r) :
    ContinuesWith host base e (host e)

/-- An engine gets from one state to another with the help of a host, while some frames remain. -/
abbrev RunsWith (host : Engine → Engine) (base : List Frame) : Engine → Engine → Prop :=
  Relation.ReflTransGen (ContinuesWith host base)

lemma Runs.with (hruns : Runs e e₁) (host : Engine → Engine) (base : List Frame) :
    RunsWith host base e e₁ :=
  hruns.lift id fun _ _ hstep => .works hstep

lemma Clean.runsWith (hc : e.Clean) (hp : e.proceed = (e₁, .silent)) :
    RunsWith host base e e₁ := (hc.runs hp).with host base

lemma Kempt.continuesWith (hk : e.Kempt) (h : ContinuesWith host base e e₁) : e₁.Kempt := by
  cases h with
  | works h => exact h.1 ▸ hk.step
  | serves => exact hk.step
  | enters hc hs h => exact h ▸ ⟨hk.shaped.enter _, hk.sound, hk.indexed⟩
  | answers hc hs h =>
    obtain ⟨result, held, rest, hs⟩ := hs
    exact h ▸ ⟨hk.shaped.answer hs _, hk.sound, hk.indexed⟩

lemma Kempt.runs (hk : e.Kempt) (hruns : RunsWith host base e e₁) : e₁.Kempt := by
  induction hruns with
  | refl => exact hk
  | tail _ hturn ih => exact ih.continuesWith hturn

/-- Two engines have the same limits. -/
structure Agrees (e e' : Engine) : Prop where
  maxDepth : e'.maxDepth = e.maxDepth
  maxLength : e'.maxLength = e.maxLength

lemma ScriptWork.agrees {P : Prop} (h : ScriptWork P e e₁) : e.Agrees e₁ := by
  cases h with
  | inner h => exact ⟨h.maxDepth, h.maxLength⟩
  | asks h => exact ⟨h.maxDepth, h.maxLength⟩
  | sends h => exact ⟨h.maxDepth, h.maxLength⟩

lemma Advance.agrees {P : Prop} {ev : Event} (h : Advance P e e₁ ev) : e.Agrees e₁ := by
  cases h with
  | works hc h => exact h.agrees
  | pops hs hf hentry hc h => exact ⟨h.agrees.maxDepth, h.agrees.maxLength⟩
  | startsArray => unfold Engine.nextElement; split <;> exact ⟨rfl, rfl⟩
  | nextElement => unfold Engine.nextElement; split <;> exact ⟨rfl, rfl⟩
  | pins hb => rcases hb with rfl | ⟨f, rest, -, -, -, rfl⟩ <;> exact ⟨rfl, rfl⟩
  | @takes r hc =>
    have htakes := (takes_convert (P := False) e (shown_false e _) r).1
    have hdepth := htakes.maxDepth
    have hlength := htakes.maxLength
    generalize e.convert r = made at hdepth hlength ⊢
    obtain ⟨v | v, e'⟩ := made <;> exact ⟨hdepth, hlength⟩
  | startsItems => unfold Engine.nextItem; split <;> exact ⟨rfl, rfl⟩
  | nextItem => unfold Engine.nextItem; split <;> exact ⟨rfl, rfl⟩
  | takesClass =>
    rcases takeStandInClass_works with heq | ⟨heap, -, -, h⟩
    · rw [heq]
      exact ⟨rfl, rfl⟩
    · exact ⟨h.agrees.maxDepth, h.agrees.maxLength⟩
  | @enters slot rest v => cases v <;> exact ⟨rfl, rfl⟩
  | collects => rw [sweep_eq]; exact ⟨rfl, rfl⟩
  | _ => exact ⟨rfl, rfl⟩

lemma agrees_step (hs : e.Shaped) : e.Agrees e.step.1 := by
  unfold Engine.step
  split
  · exact ⟨rfl, rfl⟩
  · split
    · exact ⟨rfl, rfl⟩
    · exact (proceed_advance_false hs).agrees

lemma ContinuesWith.agrees (h : ContinuesWith host base e e₁) (hs : e.Shaped) : e.Agrees e₁ := by
  cases h with
  | works h => exact h.1 ▸ agrees_step hs
  | serves => exact agrees_step hs
  | enters hc hawaits h | answers hc hawaits h => exact h ▸ ⟨rfl, rfl⟩

lemma Kempt.agrees (hk : e.Kempt) (hruns : RunsWith host base e e₁) : e.Agrees e₁ := by
  induction hruns with
  | refl => exact ⟨rfl, rfl⟩
  | tail hruns hturn ih =>
    have hlast := hturn.agrees (hk.runs hruns).shaped
    exact ⟨hlast.maxDepth.trans ih.maxDepth, hlast.maxLength.trans ih.maxLength⟩

/-! ### Dates -/

/-- The object about which a frame waits to hear whether it is a date, and what its time is. -/
def Frame.date? : Frame → Option Ref
  | .pending (.dateClass q) | .pending (.dateParent q) => some q
  | .timeMember (.object q) | .time (.object q) => some q
  | _ => none

/-- Whether no value has come of what was to be done. -/
def Control.isFailure : Control → Bool
  | .throw _ | .refuse _ => true
  | _ => false

/-- What script finds out about the dates in a value comes back, as a value or an exception, and
leaves the inside of the value as it was. -/
def Punctual (e : Engine) (host : Engine → Engine) (v : Value) : Prop :=
  ∀ e₁ f s q, RunsWith host e.stack e e₁ → e₁.stack = f :: s → f.date? = some q →
    e.heap.Inside v (.object q) →
    e.heap.face q = .other → e₁.control.isInner = true →
    ∃ e₂, RunsWith host e.stack e₁ e₂ ∧ e₂.stack = e₁.stack ∧
      (∃ w, e₂.control = .ret w ∨ e₂.control = .throw w) ∧ e.heap.Leaves e₂.heap v

/-- A string or a date inside of a value keeps it from becoming a record. -/
inductive Thwarted (e : Engine) (host : Engine → Engine) (v : Value) : Prop
  /-- A string has half a pair of surrogates. -/
  | string {units : Text.Units} {offset : Nat} (hv : e.heap.Inside v (.string units))
    (hs : units.toString = .error offset)
  /-- Script throws where it is to tell about a date. -/
  | throws {e₁ : Engine} {f : Frame} {s : List Frame} {q : Ref} {w : Value}
    (hv : e.heap.Inside v (.object q)) (hface : e.heap.face q = .other)
    (hruns : RunsWith host e.stack e e₁)
    (hs : e₁.stack = f :: s) (hf : f.date? = some q) (hc : e₁.control = .throw w)
  /-- What script tells about a date is not what it should be. -/
  | unfit {e₁ : Engine} {f : Frame} {s : List Frame} {q : Ref} {w : Value}
    (hv : e.heap.Inside v (.object q)) (hface : e.heap.face q = .other)
    (hruns : RunsWith host e.stack e e₁)
    (hs : e₁.stack = f :: s) (hf : f.date? = some q) (hc : e₁.control = .ret w)
    (hfails : e₁.step.1.control.isFailure = true)

/-- What an object becomes that is no array and stands for no host entry. -/
inductive BecomesLeaf (e : Engine) (host : Engine → Engine) (q : Ref) : Record → Prop
  /-- A date, with the time that its own member gave. -/
  | date {e₁ : Engine} {s : List Frame} {w : Value} {x : Binary64}
    (hruns : RunsWith host e.stack e e₁)
    (hs : e₁.stack = .time (.object q) :: s) (hc : e₁.control = .ret w)
    (hx : w.asNumber = some x) : BecomesLeaf e host q (.date x)
  /-- A handle under which the object is found. -/
  | handle {e₁ : Engine} {g : Handle} (hruns : RunsWith host e.stack e e₁)
    (hg : e₁.handles.get? g = some q) :
    BecomesLeaf e host q (.foreign g)
  /-- An error, where there is no handle left. -/
  | full {e₁ : Engine} (hruns : RunsWith host e.stack e e₁) (hi : e₁.handles.insert q = none) :
    BecomesLeaf e host q (.unknownError (some "foreign handle table is full"))

lemma BecomesLeaf.ne_array {r : Record} (hg : BecomesLeaf e host q r) (items : List Record) :
    r ≠ .array items := by
  cases hg with
  | full => exact Record.unknownError_ne_array _ items
  | _ => exact fun h => by cases h

/-! ### On the way -/

/-- A state in which an engine copies a value, whose inside is as it was. -/
structure Underway (e : Engine) (host : Engine → Engine) (v : Value) (e₁ : Engine) : Prop where
  runs : RunsWith host e.stack e e₁
  leaves : e.heap.Leaves e₁.heap v

/-- A value is referred to by some places or by a frame. -/
def Rooted (v : Value) (refs : List Ref) (s : List Frame) : Prop :=
  ∀ q, v = .object q → q ∈ refs ∨ ∃ f ∈ s, q ∈ f.refs

/-- An engine gets by itself to where it has only some frames left. -/
def ReturnsTo (host : Engine → Engine) (base : List Frame) (e₁ : Engine) (s : List Frame)
    (p : Engine → Prop) : Prop :=
  ∃ e₂, RunsWith host base e₁ e₂ ∧ e₂.stack = s ∧ p e₂

/-- A value has become a record that is a copy of it, or cannot become one. -/
inductive CopyOutcome (e : Engine) (host : Engine → Engine) (v : Value) (room : Nat) (w : Value)
    (e₁ : Engine) : Prop
  | copied {r : Record} (hc : e₁.control = .encoded r) (hl : e.heap.Leaves e₁.heap v)
    (hr : Copied e.heap (BecomesLeaf e host) e.maxLength room w r) : CopyOutcome e host v room w e₁
  | failed (hc : e₁.control.isFailure = true) (ht : e.Thwarted host v) :
    CopyOutcome e host v room w e₁

lemma Rooted.push (hr : Rooted v f.refs s) (refs : List Ref) : Rooted v refs (f :: s) :=
  fun q hq => .inr ((hr q hq).elim (fun h => ⟨f, List.mem_cons_self .., h⟩)
    fun ⟨g, hg, h⟩ => ⟨g, List.mem_cons_of_mem _ hg, h⟩)

lemma ReturnsTo.of_runs (hruns : RunsWith host base e₁ e₂) (h : ReturnsTo host base e₂ s p) :
    ReturnsTo host base e₁ s p := by
  obtain ⟨e₃, hruns₃, h⟩ := h
  exact ⟨e₃, hruns.trans hruns₃, h⟩

/-- Before anything else is done, all goes that nothing refers to. -/
lemma Underway.returnsTo (hu : Underway e host v e₁) (hk : e.Kempt) (hdata : e.heap.HoldsData v)
    (hr : Rooted v e₁.control.refs e₁.stack)
    (h : ∀ x, Underway e host v x → x.Clean → x.control = e₁.control → x.stack = e₁.stack →
      ReturnsTo host e.stack x s p) : ReturnsTo host e.stack e₁ s p := by
  obtain ⟨h', hruns, hspares, hclean⟩ := exists_cleared e₁ (hk.runs hu.runs).sound
  have hleaves : e.heap.Leaves h' v := hspares.leaves hu.leaves hdata fun q hq => by
    rcases hr q hq with hm | ⟨f, hf, hm⟩
    · exact reached_of_control hm
    · exact reached_of_frame hf hm
  have hruns := hruns.runs.with host e.stack
  exact .of_runs hruns (h _ ⟨hu.runs.trans hruns, hleaves⟩ hclean rfl rfl)

lemma Underway.of_proceed (hu : Underway e host v e₁) (hc : e₁.Clean)
    (hp : e₁.proceed = (e₂, .silent)) (hheap : e₂.heap = e₁.heap) : Underway e host v e₂ :=
  ⟨hu.runs.trans (hc.runsWith hp), hheap ▸ hu.leaves⟩

lemma proceed_encode (hc : e.control = .encode w depth) :
    e.proceed = (e.encodeStep w depth, .silent) := by
  rw [proceed, hc]

lemma proceed_encoded {r : Record} (hc : e.control = .encoded r) (hs : e.stack = f :: s) :
    e.proceed = ({ e with stack := s } : Engine).encodedStep f r := by
  simp only [proceed, popWith, hc, hs]

lemma proceed_refuse {text : String} (hc : e.control = .refuse text) (hs : e.stack = f :: s) :
    e.proceed = (({ e with stack := s } : Engine).refuseStep f text, .silent) := by
  simp only [proceed, popWith, hc, hs]

/-! ### Objects that are no arrays -/

/-- What is to be found out about a date is found out. -/
lemma Underway.returnsTo_of_found (hu : Underway e host v e₁) (hk : e.Kempt)
    (hdata : e.heap.HoldsData v) (hdates : e.Punctual host v)
    (hq : e.heap.Inside v (.object q)) (hface : e.heap.face q = .other)
    (hs : e₁.stack = f :: s) (hf : f.date? = some q) (hc : e₁.control.isInner = true)
    (hr : Rooted v f.refs s)
    (h : ∀ x w', Underway e host v x → x.Clean → x.stack = f :: s → x.control = .ret w' →
      ReturnsTo host e.stack x s (CopyOutcome e host v room w)) :
      ReturnsTo host e.stack e₁ s (CopyOutcome e host v room w) := by
  obtain ⟨e₂, hruns, hstack, ⟨w', hback⟩, hleaves⟩ := hdates e₁ f s q hu.runs hs hf hq hface hc
  rw [hs] at hstack
  have hu₂ : Underway e host v e₂ := ⟨hu.runs.trans hruns, hleaves⟩
  refine .of_runs hruns (hu₂.returnsTo hk hdata (hstack ▸ hr.push _) fun x hx hclean hcx hsx => ?_)
  rw [hstack] at hsx
  rcases hback with hret | hthrow
  · exact h x w' hx hclean hsx (hcx.trans hret)
  · have hthrow := hcx.trans hthrow
    have hpass : ({ x with stack := s } : Engine).throwStep f w' = { x with stack := s } := by
      cases f with
      | pending work => cases work <;> rfl
      | timeMember | time => rfl
      | _ => cases hf
    refine ⟨_, hclean.runsWith
      ((proceed_throw hthrow hsx).trans (congrArg (·, Event.silent) hpass)),
      rfl, .failed ?_ (.throws hq hface hx.runs hsx hf hthrow)⟩
    change x.control.isFailure = true
    rw [hthrow]
    rfl

/-- An object that may be a date becomes a record once that is known. -/
lemma returnsTo_instance (hk : e.Kempt) (hdata : e.heap.HoldsData v) (hdates : e.Punctual host v)
    (hq : e.heap.Inside v (.object q)) (hface : e.heap.face q = .other) (hr : Rooted v [q] s)
    {x : Engine} (hleaves : e.heap.Leaves x.heap v) (hindexed : x.handles.IsIndexed)
    (hs : x.stack = s) (isDate : Bool)
    (hruns : RunsWith host e.stack e (x.encodeInstance q isDate)) :
    ReturnsTo host e.stack (x.encodeInstance q isDate) s
      (CopyOutcome e host v room (.object q)) := by
  unfold encodeInstance at hruns ⊢
  cases isDate with
  | false =>
    rw [if_neg Bool.false_ne_true] at hruns ⊢
    unfold Engine.pin at hruns ⊢
    cases hi : x.handles.insert q with
    | none =>
      rw [hi] at hruns
      exact ⟨_, .refl, hs, .copied rfl hleaves (.other hface (.full hruns hi))⟩
    | some made =>
      obtain ⟨g, t⟩ := made
      rw [hi] at hruns
      refine ⟨_, .refl, hs, .copied rfl hleaves (.other hface (.handle hruns (g := g) ?_))⟩
      exact (Handles.get?_insert hindexed hi g).trans (if_pos rfl)
  | true =>
    rw [if_pos rfl] at hruns ⊢
    -- First the member that gives the time is read, and then it is called.
    refine Underway.returnsTo_of_found ⟨hruns, hleaves⟩ hk hdata hdates hq hface
      (congrArg (_ :: ·) hs) rfl rfl hr fun y member hy hclean hsy hcy => ?_
    have hret := (proceed_ret hcy hsy).trans (congrArg (·, Event.silent) (retStep.eq_def ..))
    dsimp only at hret
    split at hret
    · have hcall := hy.of_proceed hclean hret rfl
      refine .of_runs (hclean.runsWith hret) (hcall.returnsTo_of_found hk hdata hdates hq hface
        rfl rfl rfl hr fun z time hz hclean hsz hcz => ?_)
      have hret := proceed_ret hcz hsz
      cases hx : time.asNumber with
      | some millis =>
        have htake : ({ z with stack := s } : Engine).takeTime time =
            ({ z with stack := s } : Engine).goto (.encoded (.date millis)) := by
          rw [takeTime, hx]
        refine ⟨_, hclean.runsWith (hret.trans (congrArg (·, Event.silent) htake)), rfl,
          .copied rfl hz.leaves (.other hface (.date hz.runs hsz hcz hx))⟩
      | none =>
        have htake : (({ z with stack := s } : Engine).takeTime time).control.isFailure := by
          rw [takeTime, hx]
          rfl
        refine ⟨_, hclean.runsWith hret, ?_, .failed htake (.unfit hq hface hz.runs hsz rfl hcz ?_)⟩
        · simp only [retStep, takeTime, hx]
          rfl
        · rw [hclean.step_eq, hret]
          exact htake
    · refine ⟨_, hclean.runsWith hret, rfl, .failed rfl (.unfit hq hface hy.runs hsy rfl hcy ?_)⟩
      rw [hclean.step_eq, hret]
      rfl

/-- What an object becomes depends on its face. -/
lemma encodeObject_eq : e.encodeObject q depth =
    match e.heap.face q with
    | .entry slot => e.goto (.encoded (.managed slot))
    | .array n =>
      if e.maxDepth ≤ depth then e.goto (.encoded (.unknownError (some deepText)))
      else if e.maxLength < n then e.goto (.encoded (.unknownError (some longText)))
      else if Record.maxLength < n then e.goto (.encoded (.nulls n))
      else e.nextElement q depth n 0 []
    | .other =>
      if e.isIntact .date then e.encodeInstance q (e.isHeir Intrinsic.dateParent q)
      else (e.await (.dateClass q)).goto
        (.read globalObject (.name (Intrinsic.className .date))) := by
  unfold encodeObject Heap.face
  cases (e.heap.get? q).bind (·.entry) with
  | some slot => rfl
  | none =>
    cases (e.heap.get? q).map Object.kind with
    | none => rfl
    | some kind => cases kind <;> rfl

lemma encodeObject_of_entry {slot : Slot} (hq : e.heap.face q = .entry slot) :
    e.encodeObject q depth = e.goto (.encoded (.managed slot)) := by
  rw [encodeObject_eq, hq]

lemma encodeObject_of_array {n : Nat} (hq : e.heap.face q = .array n) :
    e.encodeObject q depth =
      if e.maxDepth ≤ depth then e.goto (.encoded (.unknownError (some deepText)))
      else if e.maxLength < n then e.goto (.encoded (.unknownError (some longText)))
      else if Record.maxLength < n then e.goto (.encoded (.nulls n))
      else e.nextElement q depth n 0 [] := by
  rw [encodeObject_eq, hq]

lemma encodeObject_of_other (hq : e.heap.face q = .other) :
    e.encodeObject q depth =
      if e.isIntact .date then e.encodeInstance q (e.isHeir Intrinsic.dateParent q)
      else (e.await (.dateClass q)).goto
        (.read globalObject (.name (Intrinsic.className .date))) := by
  rw [encodeObject_eq, hq]

/-- An object that is no array and stands for no host entry becomes a record. -/
lemma Underway.returnsTo_other (hu : Underway e host v e₁) (hk : e.Kempt)
    (hdata : e.heap.HoldsData v) (hdates : e.Punctual host v)
    (hq : e.heap.Inside v (.object q)) (hface : e.heap.face q = .other)
    (hc : e₁.control = .encode (.object q) depth) (hs : e₁.stack = s) (hclean : e₁.Clean)
    (hr : Rooted v [q] s) :
    ReturnsTo host e.stack e₁ s (CopyOutcome e host v room (.object q)) := by
  have hp := proceed_encode hc
  rw [encodeStep, encodeObject_of_other ((hu.leaves.face q hq).trans hface)] at hp
  split at hp
  · refine .of_runs (hclean.runsWith hp) (returnsTo_instance hk hdata hdates hq hface hr hu.leaves
      (hk.runs hu.runs).indexed hs _ (hu.runs.trans (hclean.runsWith hp)))
  · -- What stands in the place of the class is asked for what its instances inherit from.
    have hclass := hu.of_proceed hclean hp rfl
    refine .of_runs (hclean.runsWith hp) (hclass.returnsTo_of_found hk hdata hdates hq hface
      (congrArg (_ :: ·) hs) rfl rfl hr fun x c hx hclean hsx hcx => ?_)
    have hret := (proceed_ret hcx hsx).trans (congrArg (·, Event.silent) (takeDateClass.eq_def ..))
    split at hret
    · have hparent := hx.of_proceed hclean hret rfl
      refine .of_runs (hclean.runsWith hret) (hparent.returnsTo_of_found hk hdata hdates hq hface
        rfl rfl rfl hr fun y parent hy hclean hsy hcy => ?_)
      have hret := (proceed_ret hcy hsy).trans
        (congrArg (·, Event.silent) (takeDateParent.eq_def ..))
      split at hret
      · exact .of_runs (hclean.runsWith hret) (returnsTo_instance
          (x := { y with stack := s }) hk hdata hdates hq hface hr hy.leaves
          (hk.runs hy.runs).indexed rfl _
          (hy.runs.trans (hclean.runsWith hret)))
      · refine ⟨_, hclean.runsWith hret, rfl, .failed rfl (.unfit hq hface hy.runs hsy rfl hcy ?_)⟩
        rw [hclean.step_eq, hret]
        rfl
    · refine ⟨_, hclean.runsWith hret, rfl, .failed rfl (.unfit hq hface hx.runs hsx rfl hcx ?_)⟩
      rw [hclean.step_eq, hret]
      rfl

/-! ### Arrays -/

/-- What an array becomes from some element on. -/
inductive Fills (e : Engine) (host : Engine → Engine) (v : Value) (room : Nat) (q : Ref)
    (index left : Nat)
    (done : List Record) (e₁ : Engine) : Prop
  | filled (vs : List Value) (items : List Record)
    (hc : e₁.control = .encoded (.array (done.reverse ++ items))) (hl : e.heap.Leaves e₁.heap v)
    (hvs : vs.length = left) (hlength : items.length = left)
    (helements : ∀ (i : Nat) w, vs[i]? = some w → element? e.heap q (index + i) = some w)
    (hitems : ∀ (i : Nat) w r, vs[i]? = some w → items[i]? = some r →
      Copied e.heap (BecomesLeaf e host) e.maxLength room w r) :
        Fills e host v room q index left done e₁
  | failed (hc : e₁.control.isFailure = true) (ht : e.Thwarted host v) :
    Fills e host v room q index left done e₁

/-- An element is read without any script seeing it. -/
lemma Underway.proceed_element (hu : Underway e host v e₁) (hdata : e.heap.HoldsData v) {n i : Nat}
    (hq : e.heap.Inside v (.object q)) (hface : e.heap.face q = .array n) (hi : i < n)
    (hc : e₁.control = .read (.object q) (.index i)) :
    ∃ w, element? e.heap q i = some w ∧ e₁.proceed = (e₁.give w, .silent) := by
  obtain ⟨w, hw⟩ := Option.isSome_iff_exists.1 (hdata q n i hq hface hi)
  have hw' := element_of_element? ((hu.leaves.element q n i hq hface hi).trans hw)
  obtain ⟨o, ho, -, hkind⟩ := Heap.exists_of_face ((hu.leaves.face q hq).trans hface)
  refine ⟨w, hw, ?_⟩
  have hread := proceed_read_element ho hkind hw' e₁.stack
  rw [← hc] at hread
  exact hread

lemma Control.eq_of_isFailure {c : Control} (hc : c.isFailure = true) :
    (∃ w, c = .throw w) ∨ ∃ text, c = .refuse text := by
  cases c with
  | throw w => exact .inl ⟨w, rfl⟩
  | refuse text => exact .inr ⟨text, rfl⟩
  | _ => cases hc

/-- An exception, or that a value was given up, goes on past the elements of an array. -/
lemma exists_past {array : Ref} {d n i : Nat} {done : List Record} (hsound : e₁.heap.Sound)
    (hc : e₁.control.isFailure = true) (hs : e₁.stack = .elements array d n i done :: s) :
    ∃ e₂, Runs e₁ e₂ ∧ e₂.stack = s ∧ e₂.control = e₁.control := by
  obtain ⟨h, -, hruns⟩ := exists_runs e₁ hsound
  refine ⟨{ e₁ with heap := h, stack := s, released := [] }, (hruns _ ?_).runs, rfl, rfl⟩
  rcases Control.eq_of_isFailure hc with ⟨w, hw⟩ | ⟨text, htext⟩
  · exact proceed_throw (e := { e₁ with heap := h, released := [] }) hw hs
  · exact proceed_refuse (e := { e₁ with heap := h, released := [] }) htext hs

/-- An element becomes a record, and then the other ones do. -/
lemma Fills.cons {r : Record} {index left : Nat} {done : List Record}
    (hw : element? e.heap q index = some w)
    (hr : Copied e.heap (BecomesLeaf e host) e.maxLength room w r)
    (h : Fills e host v room q (index + 1) left (r :: done) e₁) :
    Fills e host v room q index (left + 1) done e₁ := by
  cases h with
  | failed hc ht => exact .failed hc ht
  | filled vs items hc hl hvs hlength helements hitems =>
    rw [List.reverse_cons, List.append_assoc] at hc
    refine .filled (w :: vs) (r :: items) hc hl (congrArg (· + 1) hvs)
      (congrArg (· + 1) hlength) (fun i w' hi => ?_) fun i w' r' hi hr' => ?_
    · cases i with
      | zero =>
        cases hi
        exact hw
      | succ i =>
        rw [show index + (i + 1) = index + 1 + i by omega]
        exact helements i w' hi
    · cases i with
      | zero =>
        cases hi
        cases hr'
        exact hr
      | succ i => exact hitems i w' r' hi hr'

/-- **The elements of an array become records one after the other.** -/
lemma returnsTo_fills (hk : e.Kempt) (hdata : e.heap.HoldsData v) {n : Nat}
    (hq : e.heap.Inside v (.object q)) (hface : e.heap.face q = .array n) (hr : Rooted v [q] s)
    (hitem : ∀ x w, Underway e host v x → e.heap.Inside v w → x.control = .encode w (depth + 1) →
      Rooted v [] x.stack → ReturnsTo host e.stack x x.stack (CopyOutcome e host v room w))
    (left index : Nat) (hleft : index + left = n) (done : List Record) {x : Engine}
    (hs : x.stack = s) (hleaves : e.heap.Leaves x.heap v)
    (hruns : RunsWith host e.stack e (x.nextElement q depth n index done)) :
    ReturnsTo host e.stack (x.nextElement q depth n index done) s
      (Fills e host v room q index left done) := by
  induction left generalizing index done x with
  | zero =>
    rw [nextElement, if_neg (by omega)]
    refine ⟨_, .refl, hs, .filled [] [] ?_ hleaves rfl rfl (by simp) (by simp)⟩
    rw [List.append_nil]
    rfl
  | succ left ih =>
    have hindex : index < n := by omega
    rw [nextElement, if_pos hindex] at hruns ⊢
    have hrooted : ∀ refs, Rooted v refs (.elements q depth n index done :: s) := fun refs =>
      hr.push refs
    refine Underway.returnsTo (e := e) (v := v) ⟨hruns, hleaves⟩ hk hdata
      (by subst hs; exact hrooted _) fun y hy hclean hcy hsy => ?_
    replace hsy : y.stack = .elements q depth n index done :: s := hsy.trans (congrArg _ hs)
    -- The element is read, is to become a record, and then does.
    obtain ⟨w, hw, hread⟩ := hy.proceed_element hdata hq hface hindex hcy
    refine .of_runs (hclean.runsWith hread) ?_
    refine (hy.of_proceed hclean hread rfl).returnsTo hk hdata
      (by rw [← hsy] at hrooted; exact hrooted _)
      fun z hz hclean hcz hsz => ?_
    have hencode := proceed_ret hcz (hsz.trans hsy)
    refine .of_runs (hclean.runsWith hencode) ?_
    obtain ⟨x', hruns', hs', hcomes⟩ := hitem _ w (hz.of_proceed hclean hencode rfl)
      (.element hq hface hindex hw) rfl (hrooted _)
    have hrun' := (hz.of_proceed hclean hencode rfl).runs.trans hruns'
    refine .of_runs hruns' ?_
    cases hcomes with
    | failed hc ht =>
      obtain ⟨x'', hruns'', hs'', hc''⟩ := exists_past (hk.runs hrun').sound hc hs'
      exact ⟨x'', hruns''.with host _, hs'', .failed (hc'' ▸ hc) ht⟩
    | @copied r hc hl hr' =>
      have hdone : Underway e host v x' := ⟨hrun', hl⟩
      refine hdone.returnsTo hk hdata (by rw [hs']; exact hrooted _)
        fun y' hy' hclean hcy' hsy' => ?_
      have hnext := proceed_encoded (hcy'.trans hc) (hsy'.trans hs')
      have hnext' : RunsWith host e.stack y' _ := hclean.runsWith hnext
      refine .of_runs hnext' ?_
      obtain ⟨e', hruns, hse', hfills⟩ := ih (index + 1) (by omega) (r :: done)
        (x := { y' with stack := s }) rfl hy'.leaves (hy'.runs.trans hnext')
      exact ⟨e', hruns, hse', hfills.cons hw hr'⟩

/-! ### Values -/

/-- A value becomes a record as long as it does where it is an array. -/
lemma Underway.returnsTo_value (hu : Underway e host v e₁) (hk : e.Kempt)
    (hdata : e.heap.HoldsData v) (hdates : e.Punctual host v) (hw : e.heap.Inside v w)
    (hc : e₁.control = .encode w depth)
    (hs : e₁.stack = s) (hclean : e₁.Clean) (hr : Rooted v w.refs s)
    (harray : ∀ q n, w = .object q → e.heap.face q = .array n →
      ReturnsTo host e.stack e₁ s (CopyOutcome e host v room w)) :
      ReturnsTo host e.stack e₁ s (CopyOutcome e host v room w) := by
  have hp := proceed_encode hc
  -- What is neither an array nor asked for its time becomes a record at once.
  have hleaf : ∀ {r : Record}, e₁.encodeStep w depth = e₁.goto (.encoded r) →
      Copied e.heap (BecomesLeaf e host) e.maxLength room w r →
        ReturnsTo host e.stack e₁ s (CopyOutcome e host v room w) :=
    fun hstep hr => ⟨_, hclean.runsWith (hp.trans (congrArg (·, Event.silent) hstep)), hs,
      .copied rfl hu.leaves hr⟩
  cases w with
  | undefined => exact hleaf rfl .undefined
  | null => exact hleaf rfl .null
  | bool b => exact hleaf rfl (.bool b)
  | int n => exact hleaf rfl (.int n)
  | number x => exact hleaf rfl (.number x)
  | symbol id text => exact hleaf rfl (.unfit (.inl ⟨⟨id, text, rfl⟩, rfl⟩))
  | bigint n => exact hleaf rfl (.unfit (.inr ⟨⟨n, rfl⟩, rfl⟩))
  | string units =>
    cases hunits : units.toString with
    | ok text => exact hleaf (by rw [encodeStep, hunits]) (.string hunits)
    | error offset =>
      refine ⟨_, hclean.runsWith hp, ?_, .failed ?_ (.string hw hunits)⟩ <;> rw [encodeStep, hunits]
      · exact hs
      · rfl
  | object q =>
    cases hface : e.heap.face q with
    | entry slot =>
      refine hleaf ?_ (.entry hface)
      rw [encodeStep, encodeObject_of_entry ((hu.leaves.face q hw).trans hface)]
    | array n => exact harray q n rfl hface
    | other => exact hu.returnsTo_other hk hdata hdates hw hface hc hs hclean hr

/-- **A value becomes a record, whatever it is linked to**, by recursion on the room that is left
for arrays inside of each other. -/
theorem returnsTo_encode (hk : e.Kempt) (hdata : e.heap.HoldsData v) (hdates : e.Punctual host v)
    (room : Nat) : ∀ (depth : Nat) (w : Value) (x : Engine), Underway e host v x →
    e.heap.Inside v w →
      x.control = .encode w depth → depth + room = e.maxDepth → Rooted v w.refs x.stack →
      ReturnsTo host e.stack x x.stack (CopyOutcome e host v room w) := by
  induction room with
  -- No room is left: an array is an error in its place.
  | zero =>
    intro depth w x hx hw hc hroom hr
    refine hx.returnsTo hk hdata (hc ▸ hr) fun y hy hclean hcy hsy => ?_
    refine hy.returnsTo_value hk hdata hdates hw (hcy.trans hc) hsy hclean hr
      fun q n heq hface => ?_
    subst heq
    have hp := proceed_encode (hcy.trans hc)
    rw [encodeStep, encodeObject_of_array ((hy.leaves.face q hw).trans hface),
      (hk.agrees hy.runs).maxDepth, if_pos (by omega)] at hp
    exact ⟨_, hclean.runsWith hp, hsy, .copied rfl hy.leaves (.deep hface)⟩
  | succ room ih =>
    intro depth w x hx hw hc hroom hr
    refine hx.returnsTo hk hdata (hc ▸ hr) fun y hy hclean hcy hsy => ?_
    refine hy.returnsTo_value hk hdata hdates hw (hcy.trans hc) hsy hclean hr
      fun q n heq hface => ?_
    subst heq
    have hp := proceed_encode (hcy.trans hc)
    have hagrees := hk.agrees hy.runs
    rw [encodeStep, encodeObject_of_array ((hy.leaves.face q hw).trans hface),
      hagrees.maxDepth, hagrees.maxLength, if_neg (by omega)] at hp
    split at hp
    · next hlong => exact ⟨_, hclean.runsWith hp, hsy, .copied rfl hy.leaves (.long hface hlong)⟩
    · next hlong =>
      have hle := Nat.not_lt.1 hlong
      split at hp
      · next hmax =>
        rw [Record.nulls, if_neg (Nat.not_le.2 hmax)] at hp
        exact ⟨_, hclean.runsWith hp, hsy, .copied rfl hy.leaves (.uncounted hface hle hmax)⟩
      · next hmax =>
        -- The elements are read one by one, each with the room that is left.
        obtain ⟨e', hruns, hs', hfills⟩ := returnsTo_fills hk hdata hw hface hr
          (fun z w' hz hw' hcz hrz => ih (depth + 1) w' z hz hw' hcz (by omega)
            fun p hp => .inr ((hrz p hp).resolve_left List.not_mem_nil))
          n 0 (Nat.zero_add n) [] hsy hy.leaves (hy.runs.trans (hclean.runsWith hp))
        refine .of_runs (hclean.runsWith hp) ⟨e', hruns, hs', ?_⟩
        cases hfills with
        | failed hc ht => exact .failed hc ht
        | filled vs items hc hl hvs hlength helements hitems =>
          subst hlength
          refine .copied hc hl (.array vs hface hle (Nat.not_lt.1 hmax) hvs (fun i v hi => ?_)
            hitems)
          rw [← Nat.zero_add i]
          exact helements i v hi

/-! ### What the host hears -/

/-- Whether a frame waits for what a whole value becomes: for the host, as the value of a call or
as the reply of an operation. -/
def Frame.takesRecord : Frame → Bool
  | .sending .. | .entry _ => true
  | _ => false

/-- A record that has the type code of an error and owns no elements. -/
def IsExcuse (r : Record) : Prop := r.isError = true ∧ ∀ items, r ≠ .array items

lemma isExcuse_unknownError (text : Option String) : IsExcuse (.unknownError text) :=
  ⟨Record.isError_unknownError text, Record.unknownError_ne_array text⟩

lemma Settles.isExcuse {t : Handles Ref} {r : Record} (h : e.Settles v r t) : IsExcuse r := by
  cases h with
  | plain => exact isExcuse_unknownError _
  | _ => exact ⟨rfl, fun items h => by cases h⟩

/-- There is a handle left for what breaks off the copying of a value. -/
def Spacious (e : Engine) (host : Engine → Engine) : Prop :=
  ∀ e₁ q, RunsWith host e.stack e e₁ → e₁.stack = e.stack → e₁.control = .throw (.object q) →
    (e₁.heap.get? q).bind (·.entry) = none → (e₁.handles.insert q).isSome

/-- What keeps a value from becoming a record is what the host hears of it. -/
lemma exists_excuse (hsound : e₁.heap.Sound) (hc : e₁.control.isFailure = true)
    (hs : e₁.stack = f :: s) (hf : f.takesRecord = true)
    (hpins : ∀ q, e₁.control = .throw (.object q) → (e₁.heap.get? q).bind (·.entry) = none →
      (e₁.handles.insert q).isSome) :
    ∃ e₂ r, Runs e₁ e₂ ∧ e₂.stack = f :: s ∧ e₂.control = .encoded r ∧ IsExcuse r := by
  obtain ⟨h, hspares, hruns⟩ := exists_runs e₁ hsound
  let x : Engine := { e₁ with heap := h, stack := s, released := [] }
  rcases Control.eq_of_isFailure hc with ⟨w, hw⟩ | ⟨text, htext⟩
  · have hthrow := proceed_throw (e := { e₁ with heap := h, released := [] }) hw hs
    obtain ⟨r, t, hsettles⟩ : ∃ r t, e₁.Settles w r t := by
      rcases exists_settles e₁ w with hsettles | ⟨q, rfl, hentry, hfull⟩
      · exact hsettles
      · have hsome := hpins q hw hentry
        rw [hfull] at hsome
        cases hsome
    have hkept : (x.push f).Settles w _ _ := hsettles.of_kept
      (fun q hq => hspares.get? q (reached_of_control (by rw [hw]; exact hq))) rfl
    have hsettle : x.throwStep f w = (x.push f).settleError w := by
      cases f <;> first | rfl | cases hf
    rw [hkept.settleError_eq] at hsettle
    exact ⟨_, r, (hruns _ (hthrow.trans (congrArg (·, Event.silent) hsettle))).runs, rfl, rfl,
      hsettles.isExcuse⟩
  · have hrefuse := proceed_refuse (e := { e₁ with heap := h, released := [] }) htext hs
    have hsettle : x.refuseStep f text =
        (x.push f).goto (.encoded (.unknownError (some text))) := by
      cases f <;> first | rfl | cases hf
    exact ⟨_, _, (hruns _ (hrefuse.trans (congrArg (·, Event.silent) hsettle))).runs, rfl, rfl,
      isExcuse_unknownError _⟩

/-- Every engine that a host serves is fit for copying. -/
lemma Served.kempt {maxDepth maxLength : Nat} {maxCalls : Option Nat}
    {accepted reported : List Slot}
    (h : Served maxDepth maxLength maxCalls e accepted reported) : e.Kempt := by
  induction h with
  | start =>
    exact ⟨shaped_start maxDepth maxLength maxCalls, sound_initial, Handles.isIndexed_empty⟩
  | step _ ih => exact ih.step
  | enter h op ih => exact ⟨(h.enter op).regular.shaped, ih.sound, ih.indexed⟩
  | answer h hc hs r ih => exact ⟨(h.answer hc hs r).regular.shaped, ih.sound, ih.indexed⟩

/-- What an engine comes to after so many steps, if it is never the turn of the host. -/
def ahead : Nat → Engine → Option Engine
  | 0, e => some e
  | n + 1, e => if e.step.2.isTurn then none else ahead n e.step.1

lemma runs_of_ahead {n : Nat} (h : ahead n e = some e₁) : Runs e e₁ := by
  induction n generalizing e with
  | zero =>
    cases h
    exact .refl
  | succ n ih =>
    unfold ahead at h
    split at h
    · cases h
    · next hturn => exact .head ⟨rfl, Bool.eq_false_iff.2 hturn⟩ (ih h)

/-- Whether a value or an exception is there. -/
def Control.isOutcome : Control → Bool
  | .ret _ | .throw _ => true
  | _ => false

lemma Control.exists_of_isOutcome {c : Control} (h : c.isOutcome = true) :
    ∃ w, c = .ret w ∨ c = .throw w := by
  cases c with
  | ret w => exact ⟨w, .inl rfl⟩
  | throw w => exact ⟨w, .inr rfl⟩
  | _ => cases h

/-- Whether nothing is to be done. -/
def Control.isIdle : Control → Bool
  | .idle => true
  | _ => false

/-- Whether an engine comes back to so many frames with an outcome, within so many steps and with
some values as they were on a heap. -/
def comesBack (h : Heap) (vs : List Value) (k : Nat) : Nat → Engine → Bool
  | 0, _ => false
  | n + 1, e =>
    (decide (e.stack.length = k) && e.control.isOutcome && h.leavesAll e.heap vs) ||
      ((decide (k < e.stack.length) || !e.control.isForFrame) && !e.step.2.isTurn &&
        comesBack h vs k n e.step.1)

lemma exists_of_comesBack {h : Heap} {vs : List Value} {n : Nat} (hk : e.Kempt)
    (hbase : base <:+ e.stack) (hback : comesBack h vs base.length n e = true) :
    ∃ e₁, Runs e e₁ ∧ e₁.stack = base ∧ (∃ w, e₁.control = .ret w ∨ e₁.control = .throw w) ∧
      h.leavesAll e₁.heap vs = true := by
  induction n generalizing e with
  | zero => cases hback
  | succ n ih =>
    simp only [comesBack, Bool.or_eq_true, Bool.and_eq_true, decide_eq_true_eq,
      Bool.not_eq_true'] at hback
    rcases hback with ⟨⟨hlength, houtcome⟩, hleaves⟩ | ⟨⟨hstays, hturn⟩, hback⟩
    · exact ⟨e, .refl, (hbase.eq_of_length hlength.symm).symm, Control.exists_of_isOutcome houtcome,
        hleaves⟩
    · have hsuffix : base <:+ e.step.1.stack := by
        rcases hstays with hlt | hfor
        · exact hk.shaped.suffix_step hbase fun heq => Nat.lt_irrefl _ (heq ▸ hlt)
        · rcases step_stays_or_proceeds e with ⟨hstays, -, -⟩ | hp
          · exact hstays.stack ▸ hbase
          · exact hp ▸ hbase.trans (suffix_proceed hfor)
      obtain ⟨e₁, hruns, hend⟩ := ih hk.step hsuffix hback
      exact ⟨e₁, .head ⟨rfl, hturn⟩ hruns, hend⟩

/-- Whether something holds of an engine in all states until it has come to an end on so many
frames, within so many steps and without the host. -/
def holdsUntil (check : Engine → Bool) (k : Nat) : Nat → Engine → Bool
  | 0, _ => false
  | n + 1, e => check e && !e.control.isIdle &&
    if e.step.2.isTurn then decide (e.stack.length ≤ k) else holdsUntil check k n e.step.1

lemma of_holdsUntil {check : Engine → Bool} {n : Nat}
    (h : holdsUntil check base.length n e = true) (hruns : RunsWith host base e e₁) :
    check e₁ = true := by
  induction n generalizing e with
  | zero => cases h
  | succ n ih =>
    simp only [holdsUntil, Bool.and_eq_true, Bool.not_eq_true'] at h
    obtain ⟨⟨hcheck, hidle⟩, hrest⟩ := h
    have hnot : e.control ≠ .idle := fun hc => by
      rw [hc] at hidle
      cases hidle
    rcases hruns.cases_head with rfl | ⟨e₂, hstep, hruns⟩
    · exact hcheck
    cases hstep with
    | works hworks =>
      rw [if_neg (Bool.eq_false_iff.1 hworks.2), hworks.1] at hrest
      exact ih hrest hruns
    | serves hs =>
      split at hrest
      · exact absurd (of_decide_eq_true hrest) (Nat.not_le.2 hs)
      · exact ih hrest hruns
    | enters hc | answers hc => exact absurd hc hnot

/-- Whether nothing is thrown next, and what is to be found out about a date comes back and leaves
some values as they were on a heap. -/
def isPunctual (h : Heap) (vs : List Value) (e : Engine) : Bool :=
  !e.control.isFailure && !e.step.1.control.isFailure &&
    (!e.control.isInner || (e.stack.head?.bind Frame.date?).isNone ||
      comesBack h vs e.stack.length 60 e)

section

variable {vs : List Value} {n : Nat} (hvs : e.heap.encloses vs = true) (hv : v ∈ vs)
  (h : holdsUntil (isPunctual e.heap vs) e.stack.length n e = true)
include h

lemma isPunctual_of_runsWith (hruns : RunsWith host e.stack e e₁) :
    e₁.control.isFailure = false ∧ e₁.step.1.control.isFailure = false ∧
      (e₁.control.isInner = true → (e₁.stack.head?.bind Frame.date?).isSome →
        comesBack e.heap vs e₁.stack.length 60 e₁ = true) := by
  have hcheck := of_holdsUntil h hruns
  simp only [isPunctual, Bool.and_eq_true, Bool.or_eq_true, Bool.not_eq_true',
    Option.isNone_iff_eq_none] at hcheck
  obtain ⟨⟨hnow, hnext⟩, hdates⟩ := hcheck
  refine ⟨hnow, hnext, fun hinner hdate => hdates.resolve_left ?_⟩
  rintro (hc | hc)
  · rw [hinner] at hc
    cases hc
  · rw [hc] at hdate
    cases hdate

include hvs hv in
lemma punctual_of_holdsUntil (hk : e.Kempt) : e.Punctual host v := by
  intro e₁ f s q hruns hs hf hq hface hc
  have hdate : (e₁.stack.head?.bind Frame.date?).isSome := by
    rw [hs, List.head?_cons, Option.bind_some, hf]
    rfl
  obtain ⟨e₂, hruns₂, hback⟩ := exists_of_comesBack (hk.runs hruns) (List.suffix_refl _)
    ((isPunctual_of_runsWith h hruns).2.2 hc hdate)
  exact ⟨e₂, hruns₂.with host _, hback.1, hback.2.1, Heap.leaves_of_leavesAll hvs hv hback.2.2⟩

lemma spacious_of_holdsUntil : e.Spacious host := by
  intro e₁ q hruns _ hc
  have hfails := (isPunctual_of_runsWith h hruns).1
  rw [hc] at hfails
  cases hfails

include hvs hv in
lemma not_thwarted_of_holdsUntil
    (hstrings : ∀ units, .string units ∈ vs → units.toString.isOk = true) :
    ¬ e.Thwarted host v := by
  rintro (⟨hin, hs⟩ | ⟨hin, hface, hruns, hs, hf, hc⟩ | ⟨hin, hface, hruns, hs, hf, hc, hfails⟩)
  · have hok := hstrings _ (hin.mem hvs hv)
    rw [hs] at hok
    cases hok
  · have hfails := (isPunctual_of_runsWith h hruns).1
    rw [hc] at hfails
    cases hfails
  · rw [(isPunctual_of_runsWith h hruns).2.1] at hfails
    cases hfails

end

/-! ### Arrays that contain themselves and others -/

/-- An array that holds a date, a string, an array of five elements and an array that holds
itself. -/
def tangle : Expr :=
  .op .array [.op (.date (.ofInt 0)) [], .string (.ofString "x"),
    .op (.fill 5) [.int 1], .op .loop []]

/-- An engine that copies no array of more than four elements, and no more than two of them inside
of each other, where it is about to copy that array. -/
def tangled : Engine := (steps 15 ((start 2 4 none).enter (.run tangle))).1

/-- The value that is about to become a record. -/
def Control.encoding? : Control → Option (Value × Nat)
  | .encode v depth => some (v, depth)
  | _ => none

lemma Control.eq_of_encoding? {c : Control} (h : c.encoding? = some (v, depth)) :
    c = .encode v depth := by
  cases c <;> cases h
  rfl

/-- A script that gives an array of a date and two numbers, where the date tells its time by a
function that leaves only the first element in the array. -/
def truncation : Expr :=
  .seq [.op (.assign "a") [.op .array [.op (.date (.ofInt 0)) [], .int 1, .int 2]],
    .op (.put "getTime") [.op (.get "0") [.var "a"],
      .function (.seq [.op (.put "length") [.var "a", .int 1], .int 0])],
    .var "a"]

/-- An engine that is about to copy that array. -/
def truncating : Engine := (steps 29 ((start 2 4 none).enter (.run truncation))).1

/-- Whether a record of three elements is there, of which the last two are null. -/
def Control.isCutShort : Control → Bool
  | .encoded (.array [_, .plain tag bits length, .plain tag' bits' length']) =>
    decide (tag = 0 ∧ bits = 0 ∧ length = 0 ∧ tag' = 0 ∧ bits' = 0 ∧ length' = 0)
  | _ => false

lemma Control.exists_of_isCutShort {c : Control} (h : c.isCutShort = true) :
    ∃ r, c = .encoded (.array [r, .null, .null]) := by
  unfold isCutShort at h
  split at h
  · obtain ⟨rfl, rfl, rfl, rfl, rfl, rfl⟩ := of_decide_eq_true h
    exact ⟨_, rfl⟩
  · cases h

end ScriptBridge.Engine
