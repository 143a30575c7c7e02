/-
# Instants that the host stores

An instant goes into script as a date and comes back as what script keeps of it.  As long as script
has left the class of dates alone, nothing happens to it but rounding, so it comes back exactly if
rounding does nothing.  That is so for all dates that people use, but not for all that a host can
have.
-/
import ScriptBridge.Proofs.Engine.DateClass
import ScriptBridge.Proofs.Session.Storage

namespace ScriptBridge

open ScriptBridge.Bridge ScriptBridge.Calendar ScriptBridge.Host ScriptBridge.Script
  ScriptBridge.Table ScriptBridge.Wire

namespace Bridge

variable {t : Instant} {x : Number.Binary64} {v : HostValue}

lemma decode_date (b n : Nat) (a : Arena Entry) (x : Number.Binary64) :
    decode b a n (.date x) = ⟨dateValue x, [], n⟩ := by
  have hleaf : decodeLeaf b a n (.date x) = ⟨dateValue x, [], n⟩ := by
    rw [decodeLeaf, Record.view_date]
    rfl
  exact hleaf

lemma foreigns_dateValue (a : Arena Entry) (h : dateValue x = .ok v) : v.foreigns = [] := by
  have hnone := foreigns_plainValue (a := a) (.date x)
  rw [plainValue, h, foreignsOfResult_ok] at hnone
  exact hnone

/-- A date stands for an instant that the calendar has. -/
lemma dateValue_eq_date : dateValue x = .ok (.date t) ↔ Date.toInstant? x = some t := by
  unfold dateValue
  split
  · next hnan =>
    have hscaled : x.mul (.ofInt 1000) = .nan := by
      rw [Number.Binary64.mul, hnan]
      rfl
    rw [Date.toInstant?, hscaled]
    exact ⟨by rintro ⟨⟩, by rintro ⟨⟩⟩
  · split <;> simp_all

end Bridge

namespace Session

variable {s : Session} {b : Nat} {e : Engine} {g : Ref} {t : Instant} {types : List HostType}
  {setups : List Setup} {older : List Session}

lemma outcomeOf_eq_ok {result : Except Fault HostValue} {v : HostValue} :
    outcomeOf result = .ok v ↔ result = .ok v := by
  cases result <;> simp [outcomeOf]

/-- **Where an instant comes back.**  An instant of whole milliseconds is stored in a global or in a
member of a script object, where script has left the class of dates alone and nothing stands in the
way.  If the engine stays at rest until the host reads the same global or member, the host gets the
same instant exactly if no more than 53 bits of the number of its microseconds are significant. -/
theorem instant_comes_back {spot : Spot} (h : History types setups (s :: older))
    (he : s.engine? b = some e) (hdates : e.HasDates)
    (hc : s.control = .operate b (spot.assign (.date t))) (ht : s.tidy? = none)
    (hname : spot.name ≠ "") (hg : spot.owner? s b = some g)
    (hopen : e.heap.Assignable g spot.key) (hin : t.inCalendar = true)
    (hwhole : t.nanos % 1000000 = 0) :
    ∃ s₁, Results s b (.ok .null) s₁ ∧
      ∀ s₂ e₂, Quietly b s₁ s₂ → s₂.control = .operate b spot.read → s₂.tidy? = none →
        s₂.engine? b = some e₂ → e₂.HasDates → e₂.MayNest →
        ∃ s₃ r, Results s₂ b r s₃ ∧
          (r = .ok (.date t) ↔ ∃ j, 2 ^ j ∣ t.micros.natAbs ∧ t.micros.natAbs < 2 ^ (53 + j)) := by
  obtain ⟨x, hx, rfl⟩ := side?_isSome_of_engine? he
  have hacc := h.accounted (List.mem_cons_self ..) hx
  have hcore : s.core? b = some ⟨some x.engine, x.arena, x.deferred⟩ := (side?_eq_some.1 hx).1
  obtain ⟨s₁, heap, q₁, hresults, hcore₁, hholds⟩ := Spot.exists_stored (v := .date t)
    (r := .date (Date.ofInstant t)) hc ht hname hcore hacc.regular hacc.sound rfl hg
    (fun w => Engine.receives_date (e := x.engine.enter w) hacc.sound rfl (hdates.enter w) _) hopen
  refine ⟨s₁, hresults, fun s₂ e₂ hquiet hc₂ ht₂ he₂ hdates₂ hcalls => ?_⟩
  obtain ⟨y, hy, rfl⟩ := side?_isSome_of_engine? he₂
  obtain ⟨hstores, -⟩ := Spot.still_stores h hc hcore hg hresults hcore₁ rfl hholds
    rfl hquiet hc₂ hy
  obtain ⟨older₂, h₂⟩ := h.reaches
    ((goes_of_proceeds hresults.proceeds).trans (goes_of_quietly hquiet))
  obtain ⟨s₃, e₃, q₃, hresults₃, -⟩ := Spot.exists_fetched hc₂ ht₂ hname (side?_eq_some.1 hy).1
    (h₂.accounted (List.mem_cons_self ..) hy).sound hstores.owner hstores.holds
    (fun w => Engine.returns_date (e := y.engine.enter w) (hdates₂.enter w) (hcalls.enter w))
    (decode_date ..) fun v => foreigns_dateValue y.arena
  refine ⟨s₃, _, hresults₃, ?_⟩
  rw [outcomeOf_eq_ok, dateValue_eq_date]
  exact Engine.instantBack?_eq_self hin hwhole

/-! ### Two instants -/

/-- A program that is about to store an instant in a global. -/
def dating (t : Instant) : List Session :=
  tell 0 (.setVariable "x" (.plain (.date t))) (made [bareType] [{}])

/-- The same program, when it is about to read the global. -/
def redating (t : Instant) : List Session :=
  tell 0 (.getVariable "x") (follow 40 (settleDown none (follow 40 (dating t))))

lemma history_dating (t : Instant) : History [bareType] [{}] (dating t) :=
  (history_made (by decide +kernel)).tell ..

lemma history_redating (t : Instant) : History [bareType] [{}] (redating t) :=
  ((((history_dating t).follow _).settleDown _).follow _).tell ..

/-- Whether an instant is about to be stored in a global, and can be. -/
def isDating (t : Instant) (s : Session) : Bool :=
  s.tidy?.isNone &&
    match s.control, s.engine? 0 with
    | .operate 0 (.setVariable name (.date t')), some e =>
      decide (name = "x" ∧ t' = t ∧ e.HasDates) &&
        e.heap.isAssignable Intrinsic.global (.ofName "x")
    | _, _ => false

/-- Whether a global is about to be read, where dates are what they were at first. -/
def isRedating (s : Session) : Bool :=
  isFetchable s && (s.engine? 0).any fun e => decide (e.HasDates ∧ e.MayNest)

/-- An afternoon in October 2010. -/
def afternoon : Instant := ⟨1286289015, 0⟩

/-- An afternoon in 2010 comes back. -/
theorem instant_comes_back_afternoon : ∃ s₁ s₂ s₃, s₁ ∈ redating afternoon ∧
    (redating afternoon).head? = some s₂ ∧ Quietly 0 s₁ s₂ ∧
    Results s₂ 0 (.ok (.date afternoon)) s₃ := by
  have hdating : (dating afternoon).head?.map (isDating afternoon) = some true := by decide +kernel
  have hend : (follow 40 (dating afternoon)).head?.all (·.step?.isNone) = true := by decide +kernel
  have hmem : ∀ u ∈ follow 40 (dating afternoon), u ∈ redating afternoon := fun u hu =>
    mem_tell_of_mem (mem_follow_of_mem (mem_settleDown_of_mem hu))
  have h := history_dating afternoon
  generalize dating afternoon = hist at hdating hend hmem h
  cases hist with
  | nil => cases hdating
  | cons s older =>
  rw [List.head?_cons, Option.map_some, Option.some_inj, isDating, Bool.and_eq_true,
    Option.isNone_iff_eq_none] at hdating
  obtain ⟨ht, hcheck⟩ := hdating
  split at hcheck
  case h_2 => cases hcheck
  case h_1 name t e hc he =>
  rw [Bool.and_eq_true, decide_eq_true_iff] at hcheck
  obtain ⟨⟨rfl, rfl, hdates⟩, hopen⟩ := hcheck
  have hname : (Spot.global "x").name ≠ "" := by simp [Spot.name]
  have hc : s.control = .operate 0 ((Spot.global "x").assign (.date afternoon)) := hc
  obtain ⟨s₁, hresults, hback⟩ := instant_comes_back h he hdates hc ht hname rfl
    (Heap.assignable_of_isAssignable hopen) (by decide +kernel) (by decide)
  have hs₁ : s₁ ∈ redating afternoon := hmem s₁ (mem_follow hresults.proceeds hend)
  have hredating : (redating afternoon).head?.map isRedating = some true := by decide +kernel
  have hidle : idleSince 0 isOver (redating afternoon) = true := by decide +kernel
  have hunique : ((redating afternoon).filter isOver).length = 1 := by decide +kernel
  have h₂ := history_redating afternoon
  generalize redating afternoon = hist at hs₁ hredating hidle hunique h₂ ⊢
  cases hist with
  | nil => cases hredating
  | cons s₂ older₂ =>
  have hquiet := quietly_of_unique h₂ hidle hunique hs₁ hresults.isOver
  rw [List.head?_cons, Option.map_some, Option.some_inj, isRedating, Bool.and_eq_true,
    Option.any_eq_true] at hredating
  obtain ⟨hfetchable, e₂, he₂, hclear⟩ := hredating
  obtain ⟨hdates₂, hcalls⟩ := of_decide_eq_true hclear
  obtain ⟨ht₂, -, hc₂⟩ := isFetchable_iff.1 hfetchable
  obtain ⟨s₃, r, hresults₃, hback⟩ := hback s₂ e₂ hquiet hc₂ ht₂ he₂ hdates₂ hcalls
  obtain rfl := hback.2 ⟨0, by simp, by decide⟩
  exact ⟨s₁, s₂, s₃, hs₁, rfl, hquiet, hresults₃⟩

/-- The instant that the host gets back. -/
def instant? (s : Session) : Option Instant :=
  match s.control with
  | .done (.ok (.date t)) => some t
  | _ => none

/-- A millisecond in the year 5138. -/
def farAway : Instant := ⟨100000000000, 1000000⟩

/-- Not every instant of whole milliseconds in the calendar comes back. -/
theorem instant_drifts : farAway.inCalendar = true ∧ farAway.nanos % 1000000 = 0 ∧
    History [bareType] [{}] (follow 40 (redating farAway)) ∧
    ((follow 40 (redating farAway)).find? isOver).bind instant? = some ⟨100000000000, 0⟩ :=
  ⟨by decide +kernel, by decide, (history_redating farAway).follow _, by decide +kernel⟩

end Session

end ScriptBridge
