/-
# The class of dates

As long as the class of dates stands under its name and dates inherit the member that gives their
time, the record of a date becomes a new date whether script may watch or not, and a date goes out
with the time that it has.
-/
import ScriptBridge.Proofs.Engine.Assign
import ScriptBridge.Proofs.Engine.Dates

namespace ScriptBridge

open ScriptBridge.Number ScriptBridge.Script ScriptBridge.Table ScriptBridge.Wire

namespace Script.Heap

variable {h : Heap} {q : Ref} {key : Key} {v : Value} {b : Builtin}

/-- The value of an own property of an object that is no stand-in. -/
def field? (h : Heap) (q : Ref) (key : Key) : Option Value :=
  match h.get? q with
  | none => none
  | some o =>
    match o.kind, o.own? key with
    | .proxy .., _ => none
    | _, some (.data v) => some v
    | _, _ => none

/-- What a function does that scripts find but do not define. -/
def builtin? (h : Heap) (q : Ref) : Option Builtin :=
  match (h.get? q).map Object.kind with
  | some (.builtin b) => some b
  | _ => none

/-- What the function in a property does. -/
def method? (h : Heap) (q : Ref) (key : Key) : Option Builtin :=
  match h.field? q key with
  | some (.object f) => h.builtin? f
  | _ => none

lemma field?_eq_some : h.field? q key = some v ↔ ∃ o, h.get? q = some o ∧
    (∀ s k, o.kind ≠ .proxy s k) ∧ o.own? key = some (.data v) := by
  unfold field?
  constructor
  · intro hv
    split at hv
    · cases hv
    · next o ho =>
      split at hv
      · cases hv
      · next hown hk =>
        cases hv
        exact ⟨o, ho, hk, hown⟩
      · cases hv
  · rintro ⟨o, ho, hk, hown⟩
    rw [ho]
    dsimp only
    split
    · next hkind => exact absurd hkind (hk _ _)
    · next hown' _ =>
      cases hown'.symm.trans hown
      rfl
    · next _ hnone => exact absurd hown (hnone v)

lemma builtin?_eq_some :
    h.builtin? q = some b ↔ ∃ o, h.get? q = some o ∧ o.kind = .builtin b := by
  unfold builtin?
  cases h.get? q with
  | none => simp
  | some o => cases hk : o.kind <;> simp [hk]

lemma method?_eq_some : h.method? q key = some b ↔
    ∃ f, h.field? q key = some (.object f) ∧ h.builtin? f = some b := by
  unfold method?
  split <;> simp_all

end Script.Heap

namespace Engine

variable {e e' : Engine} {n q : Ref} {key : Key} {v : Value} {b : Builtin} {x : Binary64}
  {base : List Frame}

open Script.Heap

/-! ### Dates as they are at first -/

/-- The class of dates stands under its name, and what dates inherit from has the member that gives
their time. -/
structure HasDates (e : Engine) : Prop where
  named : e.heap.field? Intrinsic.global (.name (Intrinsic.className .date)) =
    some (.object (Intrinsic.classRef .date))
  made : e.heap.builtin? (Intrinsic.classRef .date) = some (.ofClass .date)
  asked : e.heap.method? Intrinsic.dateParent (.name "getTime") = some .getTime

instance : DecidablePred HasDates := fun _ =>
  decidable_of_iff (_ ∧ _ ∧ _) ⟨fun ⟨hn, hm, ha⟩ => ⟨hn, hm, ha⟩,
    fun hd => ⟨hd.named, hd.made, hd.asked⟩⟩

lemma Retains.field? (hr : Retains e e') (hq : e.Reached q) (hv : e.heap.field? q key = some v) :
    e'.heap.field? q key = some v := by
  obtain ⟨o, ho, hrest⟩ := field?_eq_some.1 hv
  exact field?_eq_some.2 ⟨o, hr.get? q o hq ho, hrest⟩

lemma Retains.builtin? (hr : Retains e e') (hq : e.Reached q) (hb : e.heap.builtin? q = some b) :
    e'.heap.builtin? q = some b := by
  obtain ⟨o, ho, hk⟩ := builtin?_eq_some.1 hb
  exact builtin?_eq_some.2 ⟨o, hr.get? q o hq ho, hk⟩

lemma Retains.method? (hr : Retains e e') (hq : e.Reached q) (hb : e.heap.method? q key = some b) :
    e'.heap.method? q key = some b := by
  obtain ⟨f, hf, hb⟩ := method?_eq_some.1 hb
  obtain ⟨o, ho, -, hown⟩ := field?_eq_some.1 hf
  have hreached : e.Reached f := .step hq ho (refs_subset_of_own? hown (List.mem_singleton_self f))
  exact method?_eq_some.2 ⟨f, hr.field? hq hf, hr.builtin? hreached hb⟩

lemma Retains.hasDates (hr : Retains e e') (hd : e.HasDates) : e'.HasDates where
  named := hr.field? (reached_global e) hd.named
  made := hr.builtin? (reached_of_isIntrinsic e (by decide)) hd.made
  asked := hr.method? (reached_of_isIntrinsic e Intrinsic.dateParent_lt) hd.asked

lemma HasDates.isIntact (hd : e.HasDates) : e.isIntact .date = true := by
  obtain ⟨o, ho, -, hown⟩ := field?_eq_some.1 hd.named
  rw [Engine.isIntact, ho, Option.bind_some, hown]
  exact decide_eq_true rfl

lemma HasDates.posed (hd : e.HasDates) (st : List Frame) (c : Control) : (e.posed st c).HasDates :=
  ⟨hd.named, hd.made, hd.asked⟩

lemma HasDates.enter (hd : e.HasDates) (w : Operation) : (e.enter w).HasDates :=
  ⟨hd.named, hd.made, hd.asked⟩

/-! ### Dates on their way in -/

/-- Script makes the same date of a number that has become an integer. -/
lemma clipTime_timeOf (x : Binary64) : clipTime (timeOf (.ofWhole x)) = clipTime x := by
  rw [Value.ofWhole]
  split
  · next i hi =>
    split
    · rfl
    · rw [Binary64.toInt32?] at hi
      split at hi
      · next hx =>
        cases hi
        simp only [Bool.and_eq_true, decide_eq_true_eq] at hx
        obtain ⟨⟨hintegral, hlow⟩, hhigh⟩ := hx
        have hm : x.truncate.natAbs ≤ maxTime := by
          rw [maxTime]
          omega
        have hinteger : (Int32.ofInt x.truncate).toInt = x.truncate :=
          Int32.toInt_ofInt_of_le hlow (by simpa using hhigh)
        have htime : timeOf (.int (Int32.ofInt x.truncate)) = .ofInt x.truncate :=
          congrArg Binary64.ofInt hinteger
        rw [Binary64.isIntegral, Bool.and_eq_true] at hintegral
        rw [htime, clipTime_ofInt hm, clipTime, if_pos ⟨hintegral.1, hm⟩]
      · cases hi
  · rfl

/-- A date is made by the class that is found. -/
lemma construct_date (hd : e.HasDates) (x : Binary64) :
    e.construct (.object (Intrinsic.classRef .date)) [.ofWhole x] = giveNew (e.allocDate x) := by
  obtain ⟨o, ho, hk⟩ := builtin?_eq_some.1 hd.made
  have hkind : (e.object? (.object (Intrinsic.classRef .date))).map Object.kind =
      some (.builtin (.ofClass .date)) := by
    rw [object?, ho, Option.map_some, hk]
  unfold construct
  rw [hkind]
  change giveNew (e.allocDate (timeOf (.ofWhole x))) = _
  rw [allocDate, clipTime_timeOf]
  rfl

/-- **The record of a date becomes a date**, whether script may watch or not. -/
theorem lands_date (hc : e.control = .convert (.date x)) (hs : e.heap.Sound) (hd : e.HasDates)
    (hn : n ≤ e.heap.next) : ∃ e', Runs e e' ∧ Lands n e (.date x) e' := by
  obtain ⟨h, hspares, hruns⟩ := exists_runs e hs
  let e₁ : Engine := { e with heap := h, released := [] }
  have hn₁ : n ≤ h.next := Nat.le_trans hn (Nat.le_of_eq hspares.next.symm)
  have hread : (Record.date x).IsReadable := ⟨_, Record.view_date x⟩
  have hd₁ : e₁.HasDates := hspares.retains.hasDates hd
  cases hu : e₁.isUnwatched with
  | true =>
    obtain ⟨e', hp, hl⟩ := lands_at_once (e := e₁) hc rfl hspares.sound hu hn₁ hread (by simp)
    exact ⟨e', (hruns e' hp).runs, hl.of_spares hspares⟩
  | false =>
    -- The class is found under its name.
    let f : Frame := .pending (.instanceClass [.ofWhole x])
    let e₂ : Engine := e₁.instantiate .date [.ofWhole x]
    have hroots : ∀ e' : Engine, e'.stack = f :: e.stack → e'.handles = e.handles →
        e.roots ⊆ e'.roots :=
      fun e' => roots_subset (l := [f]) (by rw [hc]; exact List.nil_subset _)
    have hproceed : e₁.proceed = (e₂, .silent) := by
      have harrive : e₁.arriveShallow (.date x) = e₂ := by rw [arriveShallow, Record.view_date]
      rw [proceed, show e₁.control = .convert (.date x) from hc]
      exact congrArg (·, Event.silent)
        ((arriveStep_shallow (r := .date x) hu (by rintro _ ⟨⟩)).trans harrive)
    have hruns₁ : Runs e e₂ := (hruns e₂ hproceed).runs
    have hret₂ : Retains e e₂ :=
      hspares.retains.of_roots (hroots e₂ rfl rfl) (fun _ _ _ => id) (Nat.le_refl _)
    obtain ⟨h₂, hspares₂, hruns₂⟩ := exists_runs e₂ hspares.sound
    have hret₂' := hret₂.trans hspares₂.retains
    obtain ⟨o, ho, hk, hown⟩ := field?_eq_some.1 (hret₂'.hasDates hd).named
    let e₃ : Engine :=
      { e₂ with heap := h₂, control := .ret (.object (Intrinsic.classRef .date)), released := [] }
    have hruns₂ := (hruns₂ e₃ (proceed_own rfl ho hk hown)).runs
    have hret₃ : Retains e e₃ :=
      hret₂'.of_roots (hroots e₃ rfl rfl) (fun _ _ _ => id) (Nat.le_refl _)
    -- The date is made.
    obtain ⟨h₃, hspares₃, hruns₃⟩ := exists_runs e₃ hspares₂.sound
    have hret₃' := hret₃.trans hspares₃.retains
    let e₄ : Engine := { e₃ with heap := h₃, stack := e.stack, released := [] }
    have hret₄ : Retains e e₄ := hret₃'.of_new (l := []) (by rw [hc]; rfl) hs rfl rfl
      (fun _ _ _ => id) (Nat.le_refl _)
    have hruns₃ := (hruns₃ (giveNew (e₄.allocDate x)) (by
      rw [proceed_ret (f := f) (l := e.stack) rfl rfl]
      exact congrArg (·, Event.silent) (construct_date (hret₄.hasDates hd) x))).runs
    have hmade : Extends e₄ (e₄.allocDate x).2 := .alloc hspares₃.sound _
    refine ⟨_, (hruns₁.trans hruns₂).trans hruns₃, ⟨.object h₃.next, rfl, ?_⟩,
      hmade.sound hspares₃.sound, ?_⟩
    · exact .leaf (by rintro _ ⟨⟩) (Record.view_date x)
        (.date (Nat.le_trans hn hret₄.next_le) (get?_alloc_self e₄ _))
    · exact hret₄.of_new (l := []) (by rw [hc]; rfl) hs rfl rfl
        (fun q o _ ho => hmade.get? q o ho) hmade.next_le

/-- The record of a date is received. -/
lemma receives_date (hs : e.heap.Sound) (hc : e.control.refs = []) (hd : e.HasDates)
    (x : Binary64) (f : Frame) : e.Receives f (.date x) := by
  intro h hspares
  have hret := hspares.retains_push hs hc f (.date x)
  exact lands_date rfl hspares.sound (hret.hasDates hd) hret.next_le

/-! ### Dates on their way out -/

/-- The member that gives the time of a date is found where dates inherit it. -/
lemma find_getTime (hd : e.HasDates) {y : Binary64}
    (hq : e.heap.get? q = some (.ofKind (.date y) (some Intrinsic.dateParent))) :
    ∃ f o, e.heap.find q (.name "getTime") = .property Intrinsic.dateParent (.data (.object f)) ∧
      e.heap.get? f = some o ∧ o.kind = .builtin .getTime := by
  obtain ⟨f, hf, hb⟩ := method?_eq_some.1 hd.asked
  obtain ⟨p, hp, hk, hown⟩ := field?_eq_some.1 hf
  obtain ⟨o, ho, hkind⟩ := builtin?_eq_some.1 hb
  obtain ⟨fuel, hfuel⟩ : ∃ fuel, e.heap.objects.length = fuel + 1 :=
    Nat.exists_eq_succ_of_ne_zero (List.length_pos_of_mem (mem_of_get? hq)).ne'
  have hparent : e.heap.search (.name "getTime") (fuel + 1) Intrinsic.dateParent =
      .property Intrinsic.dateParent (.data (.object f)) := by
    rw [Heap.search, hp]
    dsimp only
    rw [hown]
    cases hproxy : p.kind <;> first | rfl | exact absurd hproxy (hk _ _)
  refine ⟨f, o, ?_, ho, hkind⟩
  rw [Heap.find, Heap.search, hq, hfuel]
  exact hparent

/-- An object that dates inherit from makes a date. -/
lemma encodeObject_date {depth : Nat} {y : Binary64} (hd : e.HasDates)
    (hq : e.heap.get? q = some (.ofKind (.date y) (some Intrinsic.dateParent))) :
    e.encodeObject q depth =
      (e.push (.timeMember (.object q))).goto (.read (.object q) (.name "getTime")) := by
  have hheir : e.isHeir Intrinsic.dateParent q = true := by
    rw [isHeir, isHeirWithin, hq]
    rfl
  rw [encodeObject, hq]
  change (if e.isIntact .date then e.encodeInstance q (e.isHeir Intrinsic.dateParent q) else _) = _
  rw [if_pos hd.isIntact, hheir]
  rfl

lemma isCallable_builtin {f : Ref} {o : Object} (hf : e.heap.get? f = some o)
    (hk : o.kind = .builtin b) : e.isCallable (.object f) = true := by
  rw [isCallable, object?, hf, Option.any_some, Object.isCallable, hk]

lemma isFull_eq_false :
    e.isFull = false ↔ ∀ n ∈ e.maxCalls, e.stack.countP Frame.isCall ≤ n := by
  rw [isFull, Option.any_eq_false]
  exact forall₂_congr fun n hn => by rw [decide_eq_false_iff_not, Nat.not_lt]

/-- An operation may be started that calls a function. -/
def MayNest (e : Engine) : Prop := ∀ n ∈ e.maxCalls, e.stack.countP Frame.isCall < n

instance (e : Engine) : Decidable e.MayNest := by
  unfold MayNest
  infer_instance

lemma MayNest.enter (h : e.MayNest) (op : Operation) : (e.enter op).isFull = false :=
  isFull_eq_false.2 fun n hn => by
    rw [Engine.enter, List.countP_cons_of_pos rfl]
    exact h n hn

/-- The member gives the time of its receiver, unless calls are nested too deep. -/
lemma callStep_getTime {f : Ref} {o : Object} {y : Binary64} {parent : Option Ref}
    (hopen : e.isFull = false) (hf : e.heap.get? f = some o)
    (hk : o.kind = .builtin .getTime) (hq : e.heap.get? q = some (.ofKind (.date y) parent)) :
    e.callStep (.object f) (.object q) [] =
      (e.push (.call [.object f, .object q])).goto (.ret (.number y)) := by
  have hkind : (e.object? (.object f)).map Object.kind = some (.builtin .getTime) := by
    rw [object?, hf, Option.map_some, hk]
  have htime : ((e.push (.call [.object f, .object q])).object? (.object q)).map Object.kind =
      some (.date y) := congrArg (Option.map Object.kind) hq
  unfold callStep
  rw [hkind]
  dsimp only
  rw [hopen, if_neg Bool.false_ne_true]
  change (e.push (.call [.object f, .object q])).withTime (.object q) .number = _
  rw [withTime, htime]
  rfl

/-- **A date goes out with its time**, unless calls are nested too deep. -/
lemma runs_encode_date {y : Binary64} (hl : Lasting e.heap e.handles base)
    (hr : e.released = []) (hd : e.HasDates)
    (hopen : ∀ n ∈ e.maxCalls, base.countP Frame.isCall ≤ n)
    (hq : e.heap.get? q = some (.ofKind (.date y) (some Intrinsic.dateParent))) :
    Runs (e.posed base (.encode (.object q) 0)) (e.posed base (.encoded (.date y))) := by
  obtain ⟨f, o, hfind, ho, hkind⟩ := find_getTime hd hq
  let member : Frame := .timeMember (.object q)
  let time : Frame := .time (.object q)
  let call : Frame := .call [.object f, .object q]
  have hstart : Runs (e.posed base (.encode (.object q) 0))
      (e.posed (member :: base) (.read (.object q) (.name "getTime"))) := by
    exact runs_posed (l := []) hl hr (congrArg (·, Event.silent)
      (encodeObject_date (e := e.posed base (.encode (.object q) 0)) (hd.posed ..) hq))
  have hread : Runs (e.posed (member :: base) (.read (.object q) (.name "getTime")))
      (e.posed (member :: base) (.ret (.object f))) := by
    refine runs_posed (l := [member]) hl hr (congrArg (·, Event.silent) ?_)
    change (e.posed (member :: base) (.read (.object q) (.name "getTime"))).giveFound (.object q)
      (.name "getTime") (e.heap.find q (.name "getTime")) = _
    rw [hfind]
    rfl
  have hmember : Runs (e.posed (member :: base) (.ret (.object f)))
      (e.posed (time :: base) (.call (.object f) (.object q) [])) := by
    refine runs_posed (l := [member]) hl hr (congrArg (·, Event.silent) ?_)
    exact if_pos (isCallable_builtin (e := e.posed base (.ret (.object f))) ho hkind)
  have hcall : Runs (e.posed (time :: base) (.call (.object f) (.object q) []))
      (e.posed (call :: time :: base) (.ret (.number y))) := by
    exact runs_posed (l := [time]) hl hr (congrArg (·, Event.silent)
      (callStep_getTime (e := e.posed (time :: base) (.call (.object f) (.object q) []))
        (isFull_eq_false.2 hopen) ho hkind hq))
  have hback : Runs (e.posed (call :: time :: base) (.ret (.number y)))
      (e.posed (time :: base) (.ret (.number y))) := runs_posed (l := [call, time]) hl hr rfl
  have htime : Runs (e.posed (time :: base) (.ret (.number y)))
      (e.posed base (.encoded (.date y))) := runs_posed (l := [time]) hl hr rfl
  exact hstart.trans (hread.trans (hmember.trans (hcall.trans (hback.trans htime))))

/-- What comes back for a date is the time that script keeps. -/
lemma returns_date (hd : e.HasDates) (hopen : e.isFull = false) :
    e.Returns n (.date x) (.date (clipTime x)) := by
  intro h w hspares hl hm
  cases hm.depicts nofun (Record.view_date x) with
  | date hn hq =>
    exact runs_encode_date (e := { e with heap := h, released := [] }) hl rfl
      (hspares.retains.hasDates hd) (isFull_eq_false.1 hopen) hq
  | standIn hv | vacant hv | pinned hv => rcases hv with hv | hv <;> cases hv

end Engine

end ScriptBridge
