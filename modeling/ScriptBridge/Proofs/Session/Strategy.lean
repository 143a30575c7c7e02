/-
# What becomes of slots does not show

A program that is told to do one thing after the other reports the same whatever becomes of the
slots that were given up, but for the number of cells of its arenas, as long as nothing tells slots
apart.  A bridge that is disposed while several entries are still to be given up does tell them
apart, since it gives them up in the order of their slots.
-/
import ScriptBridge.Proofs.Session.Stage
import ScriptBridge.Proofs.Session.Twins

namespace ScriptBridge.Session

open ScriptBridge.Bridge ScriptBridge.Host ScriptBridge.Script ScriptBridge.Table
open ScriptBridge.Wire

variable {s s' t u : Session} {types : List HostType} {setups : List Setup}
  {fuel : Nat} {p q : Session → Prop} {f : Nat → Slot → Slot}

/-! ### Programs -/

/-- What a program is told to do, with which bridge, and the register for the result. -/
structure Order where
  bridge : Nat
  command : Command
  save : Option String := none

/-- Whether the bridge for which an order is given is there. -/
def Order.applies (o : Order) (s : Session) : Bool :=
  !(o.command.needsBridge && !s.hasBridge o.bridge)

/-- What a program reports on one order after the other, done in so many steps at most. -/
def reports (fuel : Nat) : Session → List Order → List Report
  | _, [] => []
  | s, o :: orders =>
    let (report, s) := s.perform fuel o.bridge o.command o.save
    report :: reports fuel s orders

/-- Something holds of a program that has begun on an order, and of it once the outcome has been
looked at. -/
def Order.Holds (q : Session → Prop) (fuel : Nat) (s : Session) (o : Order) : Prop :=
  o.applies s = true → ∀ begun form, s.begin? o.bridge o.command = some (begun, form) →
    q begun ∧ q ((run fuel begun).conclude o.save)

/-- Something holds of a program on each order that it is given. -/
def Follows (q : Session → Prop) (fuel : Nat) : Session → List Order → Prop
  | _, [] => True
  | s, o :: orders => o.Holds q fuel s ∧
    Follows q fuel (s.perform fuel o.bridge o.command o.save).2 orders

/-- A program stops within so many steps. -/
def Stops (fuel : Nat) (s : Session) : Prop := (run fuel s).step? = none

/-- Something holds of all states of a program within so many steps. -/
def Throughout (p : Session → Prop) : Nat → Session → Prop
  | 0, s => p s
  | fuel + 1, s => p s ∧ ∀ t, s.step? = some t → Throughout p fuel t

lemma Throughout.holds (h : Throughout p fuel s) : p s := by
  cases fuel with
  | zero => exact h
  | succ fuel => exact h.1

lemma perform_of_not_applies {o : Order} (h : o.applies s = false) :
    s.perform fuel o.bridge o.command o.save = s.reportOnly o.bridge .noBridge :=
  if_pos (by rwa [Order.applies, Bool.not_eq_false'] at h)

lemma perform_of_applies {o : Order} (h : o.applies s = true) :
    s.perform fuel o.bridge o.command o.save =
      match s.begin? o.bridge o.command with
      | none => s.reportOnly o.bridge .noTarget
      | some (begun, form) =>
        let ended := run fuel begun
        let rested := run fuel (ended.conclude o.save)
        (⟨form ended.outcome, ended.idents, rested.disposed.reverse, rested.stats? o.bridge⟩,
          rested) :=
  if_neg (by rwa [Order.applies, Bool.not_eq_true', ← Bool.not_eq_true] at h)

lemma perform_of_begin? {o : Order} {form : Form} (h : o.applies s = true)
    (hb : s.begin? o.bridge o.command = some (t, form)) :
    s.perform fuel o.bridge o.command o.save =
      (⟨form (run fuel t).outcome, (run fuel t).idents,
        (run fuel ((run fuel t).conclude o.save)).disposed.reverse,
        (run fuel ((run fuel t).conclude o.save)).stats? o.bridge⟩,
        run fuel ((run fuel t).conclude o.save)) := by
  rw [perform_of_applies h, hb]

lemma perform_of_begin?_eq_none {o : Order} (h : o.applies s = true)
    (hb : s.begin? o.bridge o.command = none) :
    s.perform fuel o.bridge o.command o.save = s.reportOnly o.bridge .noTarget := by
  rw [perform_of_applies h, hb]

/-! ### Rest -/

/-- A program is at rest when nothing is to be let go of and there is an outcome that nothing but a
look waits for. -/
lemma step?_eq_none_iff : s.step? = none ↔ s.tidy? = none ∧ (∃ r, s.control = .done r) ∧
    (s.frames = [] ∨ ∃ rest, s.frames = .pausing :: rest) := by
  constructor
  · intro h
    refine ⟨?_, control_of_step? h, frames_of_step?_eq_none h⟩
    obtain ⟨r, hc⟩ := control_of_step? h
    rw [step?, hc] at h
    cases ht : s.tidy? with
    | none => rfl
    | some u =>
      rw [ht] at h
      cases h
  · rintro ⟨ht, ⟨r, hc⟩, hf | ⟨rest, hf⟩⟩ <;> simp only [step?, proceed?, hc, ht, hf] <;> rfl

/-- Alike sessions are at rest together. -/
lemma Alike.step?_eq_none (h : Alike f s t) : s.step? = none ↔ t.step? = none := by
  rw [step?_eq_none_iff, step?_eq_none_iff, h.control, h.frames]
  refine and_congr ?_ (and_congr ?_ (or_congr List.map_eq_nil_iff ?_))
  · rcases exists_of_rel h.tidy? with ⟨hs, ht⟩ | ⟨s', t', hs, ht, -⟩ <;> rw [hs, ht]
    exact iff_of_false nofun nofun
  · cases t.control <;> simp [Control.rename]
  · cases t.frames with
    | nil => simp
    | cons frame rest => cases frame <;> simp [Frame.rename]

lemma looks_run (fuel : Nat) (s : Session) : (run fuel s).looks = s.looks := by
  induction fuel generalizing s with
  | zero => rfl
  | succ fuel ih =>
    rw [run]
    split
    · rfl
    · next t ht => exact (ih t).trans (looks_step? ht)

/-! ### Going on together -/

/-- Two sessions are twins, and nothing has told slots apart in the one whose arenas are
monotonic. -/
def Accompanies (types : List HostType) (setups : List Setup) (s t : Session) : Prop :=
  ∃ M F older, Twin M F s t ∧ History types setups (t :: older) ∧ ∀ u ∈ t :: older, Discreet u

namespace Accompanies

lemma alike (h : Accompanies types setups s t) : ∃ F, Alike F s t := by
  obtain ⟨M, F, older, htwin, -⟩ := h
  exact ⟨F, htwin.refl⟩

lemma step?_eq_none (h : Accompanies types setups s t) : s.step? = none ↔ t.step? = none := by
  obtain ⟨F, hF⟩ := h.alike
  exact hF.step?_eq_none

lemma stats? (h : Accompanies types setups s t) (b : Nat) :
    (s.stats? b).map Stats.withoutCells = (t.stats? b).map Stats.withoutCells := by
  obtain ⟨F, hF⟩ := h.alike
  exact hF.stats? b

lemma applies (h : Accompanies types setups s t) (o : Order) : o.applies s = o.applies t := by
  obtain ⟨F, hF⟩ := h.alike
  rw [Order.applies, Order.applies, hF.hasBridge]

/-- What is told about a bridge where nothing has been done. -/
lemma reportOnly (h : Accompanies types setups s t) (b : Nat) (answer : Answer) :
    (s.reportOnly b answer).1.withoutCells = (t.reportOnly b answer).1.withoutCells := by
  simp only [Session.reportOnly, Report.withoutCells, h.stats? b]

/-- **Twins run alike.** -/
theorem run (h : Accompanies types setups s t) (ht : Throughout Discreet fuel t) :
    Accompanies types setups (run fuel s) (run fuel t) := by
  induction fuel generalizing s t with
  | zero => exact h
  | succ fuel ih =>
    obtain ⟨M, F, older, htwin, hh, hd⟩ := id h
    rw [Session.run, Session.run]
    cases hstep : t.step? with
    | none =>
      rw [h.step?_eq_none.2 hstep]
      exact h
    | some u =>
      have hu := ht.2 u hstep
      obtain ⟨s', hs', htwin'⟩ := htwin.step? hh hd hstep hu.holds
      rw [hs']
      exact ih ⟨_, _, _, htwin', hh.goes (.steps hstep), List.forall_mem_cons.2 ⟨hu.holds, hd⟩⟩ hu

lemma stops (h : Accompanies types setups s t) (ht : Throughout Discreet fuel t) :
    Stops fuel s ↔ Stops fuel t :=
  (h.run ht).step?_eq_none

/-- The outcome of a command is looked at in twins alike, and then nothing waits for a look. -/
lemma conclude (h : Accompanies types setups s t) (hrest : t.step? = none) (hlooks : t.looks = 1)
    (save : Option String) (hu : Discreet (t.conclude save)) :
    Accompanies types setups (s.conclude save) (t.conclude save) ∧
      (t.conclude save).looks = 0 := by
  obtain ⟨M, F, older, htwin, hh, hd⟩ := h
  obtain ⟨r, hc⟩ := control_of_step? hrest
  rcases frames_of_step?_eq_none hrest with hf | ⟨rest, hf⟩
  · rw [looks, hf] at hlooks
    cases hlooks
  · refine ⟨⟨M, F, _, htwin.conclude hf save, hh.goes (.concludes save hrest hf rfl),
      List.forall_mem_cons.2 ⟨hu, hd⟩⟩, ?_⟩
    rw [looks_eq_count, stage_conclude hc hf save, List.count_cons_self] at hlooks
    rw [looks_eq_count]
    exact Nat.succ.inj hlooks

/-- An order begins in twins alike. -/
lemma begin? {o : Order} {form : Form} (h : Accompanies types setups s t) (hrest : t.step? = none)
    (hf : t.frames = []) (ha : o.applies t = true)
    (ht : t.begin? o.bridge o.command = some (u, form)) (hu : Discreet u) :
    u.looks = 1 ∧ ∃ s', s.begin? o.bridge o.command = some (s', form) ∧
      Accompanies types setups s' u := by
  obtain ⟨M, F, older, htwin, hh, hd⟩ := h
  constructor
  · rw [looks_eq_count]
    rcases stage_begin? hf ht with hstage | ⟨o, exclusive, hstage⟩ <;> rw [hstage] <;> rfl
  · have hgo : Goes t u := .begins hrest hf (fun hneeds => by
      simpa [Order.applies, hneeds] using ha) ht
    rcases htwin.begin? o.bridge o.command with ⟨-, hnone⟩ | ⟨s', u', form', hs, ht', hbegun⟩
    · rw [ht] at hnone
      cases hnone
    · rw [ht] at ht'
      cases ht'
      exact ⟨s', hs, M, F, _, hbegun, hh.goes hgo, List.forall_mem_cons.2 ⟨hu, hd⟩⟩

lemma begin?_eq_none {o : Order} (h : Accompanies types setups s t)
    (ht : t.begin? o.bridge o.command = none) : s.begin? o.bridge o.command = none := by
  obtain ⟨M, F, older, htwin, -⟩ := h
  rcases htwin.begin? o.bridge o.command with ⟨hs, -⟩ | ⟨s', u, form, -, hsome, -⟩
  · exact hs
  · rw [ht] at hsome
    cases hsome

/-! ### Orders -/

/-- **Twins carry out an order in as many steps**, if they stop at all. -/
lemma holds_stops {o : Order} (h : Accompanies types setups s t) (hrest : t.step? = none)
    (hf : t.frames = []) (ho : o.Holds (Throughout Discreet fuel) fuel t) :
    o.Holds (Stops fuel) fuel s ↔ o.Holds (Stops fuel) fuel t := by
  unfold Order.Holds
  rw [h.applies]
  refine imp_congr_right fun ha => ?_
  cases ht : t.begin? o.bridge o.command with
  | none =>
    rw [h.begin?_eq_none ht]
  | some begun =>
    obtain ⟨u, form⟩ := begun
    obtain ⟨hu, hconcluded⟩ := ho ha u form ht
    obtain ⟨hlooks, s', hs, hbegun⟩ := h.begin? hrest hf ha ht hu.holds
    have hstops := hbegun.stops hu
    -- where the command stops, its outcome is looked at, and what follows stops in both or neither
    have hboth : Stops fuel s' ∧ Stops fuel ((Session.run fuel s').conclude o.save) ↔
        Stops fuel u ∧ Stops fuel ((Session.run fuel u).conclude o.save) := by
      rw [hstops]
      refine and_congr_right fun hstop => ?_
      exact ((hbegun.run hu).conclude hstop ((looks_run fuel u).trans hlooks) o.save
        hconcluded.holds).1.stops hconcluded
    rw [hs]
    constructor
    · intro hstop v form' heq
      cases heq
      exact hboth.1 (hstop s' _ rfl)
    · intro hstop v form' heq
      cases heq
      exact hboth.2 (hstop u _ rfl)

/-- **Twins report the same on an order**, and are twins afterwards. -/
theorem perform {o : Order} (h : Accompanies types setups s t) (hrest : t.step? = none)
    (hf : t.frames = []) (ho : o.Holds (Throughout Discreet fuel) fuel t)
    (hstops : o.Holds (Stops fuel) fuel t) :
    (s.perform fuel o.bridge o.command o.save).1.withoutCells =
        (t.perform fuel o.bridge o.command o.save).1.withoutCells ∧
      Accompanies types setups (s.perform fuel o.bridge o.command o.save).2
        (t.perform fuel o.bridge o.command o.save).2 ∧
      (t.perform fuel o.bridge o.command o.save).2.step? = none ∧
      (t.perform fuel o.bridge o.command o.save).2.frames = [] := by
  cases ha : o.applies t with
  | false =>
    rw [perform_of_not_applies ha, perform_of_not_applies ((h.applies o).trans ha)]
    exact ⟨h.reportOnly _ _, h, hrest, hf⟩
  | true =>
    have ha' := (h.applies o).trans ha
    cases ht : t.begin? o.bridge o.command with
    | none =>
      rw [perform_of_begin?_eq_none ha ht, perform_of_begin?_eq_none ha' (h.begin?_eq_none ht)]
      exact ⟨h.reportOnly _ _, h, hrest, hf⟩
    | some begun =>
      obtain ⟨u, form⟩ := begun
      obtain ⟨hu, hconcluded⟩ := ho ha u form ht
      obtain ⟨hstop, hstop'⟩ := hstops ha u form ht
      -- The command runs to its end on both sides, and so does what is let go of afterwards.
      obtain ⟨hlooks, s', hs, hbegun⟩ := h.begin? hrest hf ha ht hu.holds
      have hended := hbegun.run hu
      obtain ⟨hconclude, hnone⟩ := hended.conclude hstop ((looks_run fuel u).trans hlooks) o.save
        hconcluded.holds
      have hrested := hconclude.run hconcluded
      obtain ⟨F, hF⟩ := hended.alike
      obtain ⟨F', hF'⟩ := hrested.alike
      rw [perform_of_begin? ha ht, perform_of_begin? ha' hs]
      refine ⟨?_, hrested, hstop', ?_⟩
      · simp only [Report.withoutCells, hF.outcome, hF.idents, hF'.disposed,
          hrested.stats? o.bridge]
      · rcases frames_of_step?_eq_none hstop' with hnil | ⟨rest, hpausing⟩
        · exact hnil
        · have hnolook := (looks_run fuel _).trans hnone
          rw [looks, hpausing, List.countP_cons_of_pos rfl] at hnolook
          cases hnolook

/-- **Twins carry out all orders alike**, and report the same on them. -/
theorem follows {orders : List Order} (h : Accompanies types setups s t)
    (hrest : t.step? = none) (hf : t.frames = [])
    (ho : Follows (Throughout Discreet fuel) fuel t orders) :
    (Follows (Stops fuel) fuel s orders ↔ Follows (Stops fuel) fuel t orders) ∧
      (Follows (Stops fuel) fuel t orders →
        (reports fuel s orders).map Report.withoutCells =
          (reports fuel t orders).map Report.withoutCells) := by
  induction orders generalizing s t with
  | nil => exact ⟨.rfl, fun _ => rfl⟩
  | cons o orders ih =>
    have hthis := h.holds_stops hrest hf ho.1
    constructor
    · rw [Follows, Follows, hthis]
      refine and_congr_right fun hstops => ?_
      obtain ⟨-, hafter, hrest', hf'⟩ := h.perform hrest hf ho.1 hstops
      exact (ih hafter hrest' hf' ho.2).1
    · rintro ⟨hstops, hothers⟩
      obtain ⟨hreport, hafter, hrest', hf'⟩ := h.perform hrest hf ho.1 hstops
      rw [reports, reports, List.map_cons, List.map_cons, hreport,
        (ih hafter hrest' hf' ho.2).2 hothers]

end Accompanies

/-! ### The start -/

/-- A bridge of a new program has an engine that has run nothing, and no slots. -/
lemma bridge?_create {br : Bridge} {b : Nat} (h : create types setups = .ok s)
    (hb : s.bridge? b = some br) : ∃ maxDepth maxLength maxCalls policy,
      br = { engine := some (.start maxDepth maxLength maxCalls), arena := .empty policy } := by
  unfold create at h
  cases hmap : setups.mapM Bridge.create with
  | error e => rw [hmap] at h; cases h
  | ok bridges =>
    rw [hmap] at h
    cases h
    obtain ⟨setup, -, hcreate⟩ := exists_of_mapM_create hmap (List.mem_of_getElem? hb)
    unfold Bridge.create at hcreate
    dsimp only at hcreate
    split at hcreate
    · cases hcreate
      exact ⟨_, _, _, _, rfl⟩
    · cases hcreate

lemma control_create (h : create types setups = .ok s) :
    s.control = .finished ∧ s.frames = [] ∧ s.leases = [] ∧ s.objects = [] := by
  unfold create at h
  cases hmap : setups.mapM Bridge.create with
  | error e => rw [hmap] at h; cases h
  | ok bridges =>
    rw [hmap] at h
    cases h
    exact ⟨rfl, rfl, rfl, rfl⟩

/-- A new program has nothing to do. -/
lemma step?_create (h : create types setups = .ok s) : s.step? = none := by
  obtain ⟨hc, hf, hleases, hobjects⟩ := control_create h
  have hkept : ∀ stage p, stage ≠ Bridge.Stage.kept → s.bridgeAt? stage p = none := by
    refine fun stage p hstage => List.find?_eq_none.2 fun b _ => ?_
    rw [isAt, Bool.and_eq_true]
    rintro ⟨hat, -⟩
    cases hb : s.bridge? b with
    | none =>
      rw [hb] at hat
      cases hat
    | some br =>
      obtain ⟨maxDepth, maxLength, maxCalls, policy, rfl⟩ := bridge?_create h hb
      rw [hb, Option.any_some, decide_eq_true_eq] at hat
      exact hstage hat.symm
  refine step?_eq_none_iff.2 ⟨?_, ⟨_, hc⟩, .inl hf⟩
  rw [tidy?_eq_none, abandoned?, unused?, hkept _ _ (by decide), hkept _ _ (by decide),
    deadLease?, deadObject?, hleases, hobjects]
  exact ⟨rfl, rfl, rfl, rfl⟩

/-- Nothing tells slots apart in a new program. -/
lemma discreet_create (h : create types setups = .ok s) : Discreet s := by
  obtain ⟨hc, -, -, -⟩ := control_create h
  refine ⟨⟨fun b e slot r entry hengine => ?_, fun b => ?_⟩, fun b e he => ?_,
    fun b hteardown => ?_⟩
  · rw [hc] at hengine
    cases hengine
  · rw [finishOf]
    cases ha : s.arena? b with
    | none => decide
    | some a =>
      obtain ⟨br, hbr, rfl⟩ := Option.map_eq_some_iff.1 ha
      obtain ⟨maxDepth, maxLength, maxCalls, policy, rfl⟩ := bridge?_create h hbr
      exact (by decide : 0 < 0x80000000)
  · obtain ⟨br, hbr, hengine⟩ := Option.bind_eq_some_iff.1 he
    obtain ⟨maxDepth, maxLength, maxCalls, policy, rfl⟩ := bridge?_create h hbr
    cases hengine
    exact (by decide +kernel : (Engine.start 0 0 none).isIntact .proxy = true)
  · rw [hc] at hteardown
    cases hteardown

/-! ### The policy does not show -/

/-- **What becomes of slots that were given up does not show.**  A program whose bridges have any
policies for slots stops on the orders that it is given if and only if the same program does whose
bridges hand out no slot twice, and then it reports the same but for the number of cells, provided
that in the latter script calls no stand-in but those of methods, no arena runs out of slots, script
puts nothing in the place of the class of stand-ins, and no bridge is disposed while several entries
are left that its engine does not hold. -/
theorem policy_does_not_show {orders : List Order} (hs : create types setups = .ok s)
    (ht : create types (setups.map (withPolicy .monotonic)) = .ok t)
    (ho : Follows (Throughout Discreet fuel) fuel t orders) :
    (Follows (Stops fuel) fuel s orders ↔ Follows (Stops fuel) fuel t orders) ∧
      (Follows (Stops fuel) fuel t orders →
        (reports fuel s orders).map Report.withoutCells =
          (reports fuel t orders).map Report.withoutCells) := by
  have h : Accompanies types (setups.map (withPolicy .monotonic)) s t :=
    ⟨_, _, [], twin_create hs ht, .starts ht, List.forall_mem_singleton.2 (discreet_create ht)⟩
  exact h.follows (step?_create ht) (control_create ht).2.1 ho

/-! ### Programs run to the end -/

/-- Whether script asks for no slot in a session, and there are slots left. -/
def isModest (s : Session) : Bool :=
  ((List.range s.bridges.length).all fun b => decide (s.finishOf b < 0x80000000)) &&
    match s.control with
    | .engine b => (s.engine? b).all fun e =>
      match e.step.2 with
      | .request (.invoke slot _) => (s.entryOf? b slot).all (· matches .method ..)
      | _ => true
    | _ => true

/-- Whether nothing in a session tells its slots apart. -/
def isDiscreet (s : Session) : Bool :=
  s.isModest && ((List.range s.bridges.length).all fun b =>
      (s.engine? b).all (·.isIntact .proxy)) &&
    match s.control with
    | .teardown b [] => (s.arena? b).all fun a => decide (a.used ≤ 1)
    | _ => true

/-- Whether something holds of all states of a program until it stops, within so many steps. -/
def isThroughout (p : Session → Bool) : Nat → Session → Bool
  | 0, s => p s && s.step?.isNone
  | fuel + 1, s => p s && s.step?.all (isThroughout p fuel)

/-- Whether a program stops on each order that it is given, and something holds of all its states
until then. -/
def isFollowing (p : Session → Bool) (fuel : Nat) : Session → List Order → Bool
  | _, [] => true
  | s, o :: orders =>
    (!o.applies s || (s.begin? o.bridge o.command).all fun begun =>
      isThroughout p fuel begun.1 && isThroughout p fuel ((run fuel begun.1).conclude o.save)) &&
    isFollowing p fuel (s.perform fuel o.bridge o.command o.save).2 orders

lemma modest_of_isModest (h : s.isModest = true) : Modest s := by
  unfold isModest at h
  rw [Bool.and_eq_true, List.all_eq_true] at h
  obtain ⟨hroom, hcalled⟩ := h
  refine ⟨fun b e slot r entry hc he hstep hentry => ?_, fun b => ?_⟩
  · rw [hc] at hcalled
    dsimp only at hcalled
    rw [he, Option.all_some, hstep] at hcalled
    dsimp only at hcalled
    rw [hentry, Option.all_some] at hcalled
    cases entry with
    | method o name => exact ⟨o, name, rfl⟩
    | _ => cases hcalled
  · by_cases hb : b < s.bridges.length
    · exact of_decide_eq_true (hroom b (List.mem_range.2 hb))
    · rw [finishOf, arena?, bridge?, List.getElem?_eq_none (Nat.le_of_not_lt hb)]
      decide

lemma discreet_of_isDiscreet (h : s.isDiscreet = true) : Discreet s := by
  unfold isDiscreet at h
  rw [Bool.and_eq_true, Bool.and_eq_true, List.all_eq_true] at h
  obtain ⟨⟨hmodest, hintact⟩, htorn⟩ := h
  refine ⟨modest_of_isModest hmodest, fun b e he => ?_, fun b hc a ha => ?_⟩
  · obtain ⟨br, hb, -⟩ := Option.bind_eq_some_iff.1 he
    have hthis := hintact b (List.mem_range.2 (List.getElem?_eq_some_iff.1 hb).1)
    rwa [he, Option.all_some] at hthis
  · rw [hc] at htorn
    dsimp only at htorn
    rw [ha, Option.all_some] at htorn
    exact of_decide_eq_true htorn

lemma throughout_of_isThroughout {q : Session → Bool} (hq : ∀ s, q s = true → p s)
    (h : isThroughout q fuel s = true) : Throughout p fuel s ∧ Stops fuel s := by
  induction fuel generalizing s with
  | zero =>
    rw [isThroughout, Bool.and_eq_true] at h
    exact ⟨hq s h.1, Option.isNone_iff_eq_none.1 h.2⟩
  | succ fuel ih =>
    rw [isThroughout, Bool.and_eq_true] at h
    rw [Throughout, Stops, run]
    cases ht : s.step? with
    | none => exact ⟨⟨hq s h.1, nofun⟩, ht⟩
    | some t =>
      rw [ht] at h
      obtain ⟨hthroughout, hstops⟩ := ih h.2
      refine ⟨⟨hq s h.1, fun u hu => ?_⟩, hstops⟩
      cases hu
      exact hthroughout

lemma follows_of_isFollowing {orders : List Order} {q : Session → Bool}
    (hq : ∀ s, q s = true → p s) (h : isFollowing q fuel s orders = true) :
    Follows (Throughout p fuel) fuel s orders ∧ Follows (Stops fuel) fuel s orders := by
  induction orders generalizing s with
  | nil => exact ⟨trivial, trivial⟩
  | cons o orders ih =>
    rw [isFollowing, Bool.and_eq_true, Bool.or_eq_true, Bool.not_eq_true'] at h
    obtain ⟨hthis, hothers⟩ := h
    obtain ⟨hothers, hothers'⟩ := ih hothers
    have hboth : ∀ begun form, o.applies s = true →
        s.begin? o.bridge o.command = some (begun, form) →
        (Throughout p fuel begun ∧ Stops fuel begun) ∧
          Throughout p fuel ((run fuel begun).conclude o.save) ∧
            Stops fuel ((run fuel begun).conclude o.save) := fun begun form ha hb => by
      rw [ha, hb, Option.all_some, Bool.and_eq_true] at hthis
      exact (hthis.resolve_left nofun).imp (throughout_of_isThroughout hq)
        (throughout_of_isThroughout hq)
    exact ⟨⟨fun ha begun form hb => (hboth begun form ha hb).imp And.left And.left, hothers⟩,
      ⟨fun ha begun form hb => (hboth begun form ha hb).imp And.right And.right, hothers'⟩⟩

/-- What is checked of a new program holds of it. -/
lemma exists_create_of_any (types : List HostType) (setups : List Setup)
    {q : Session → Bool} (h : (create types setups).toOption.any q = true) :
    ∃ s, create types setups = .ok s ∧ q s = true := by
  cases hcreate : create types setups with
  | error e =>
    rw [hcreate] at h
    cases h
  | ok s =>
    rw [hcreate] at h
    exact ⟨s, rfl, h⟩

/-- A host type with a method that gives back what it is given. -/
def echoType : HostType where
  name := "Echo"
  description := .ofRegistrations "Echo" [.method "echo" [.any] .echo]

/-- Orders to make an array of objects global, to forget one of them, and to hand a new one to a
method. -/
def exchanging : List Order :=
  [⟨0, .setVariable "v" (.array [.fresh 0 "x" [], .fresh 0 "y" [], .fresh 0 "z" []]), none⟩,
   ⟨0, .evaluate (.op (.put "1") [.var "v", .null]), none⟩,
   ⟨0, .setVariable "w" (.fresh 0 "w" []), none⟩,
   ⟨0, .evaluate (.callMember (.op (.get "0") [.var "v"]) "echo" [.var "w"]), some "r"⟩]

/-- The numbers of cells that are reported. -/
def cellsIn (reports : List Report) : List (Option Nat) :=
  reports.map fun r => r.stats.map (·.occupancy.allocated)

/-- A program that hands out a slot again reports the same on its orders as one that does not, but
for the number of cells. -/
theorem policy_does_not_show_exchanging : ∃ s t, create [echoType] [{}] = .ok s ∧
    create [echoType] ([{}].map (withPolicy .monotonic)) = .ok t ∧
    Follows (Throughout Discreet 200) 200 t exchanging ∧
    Follows (Stops 200) 200 s exchanging ∧
    (reports 200 s exchanging).map Report.withoutCells =
      (reports 200 t exchanging).map Report.withoutCells ∧
    cellsIn (reports 200 s exchanging) ≠ cellsIn (reports 200 t exchanging) := by
  obtain ⟨s, hs, hcells⟩ := exists_create_of_any [echoType] [{}]
    (q := fun s => cellsIn (reports 200 s exchanging) ==
      [some 3, some 3, some 3, some 3]) (by decide +kernel)
  obtain ⟨t, ht, hcheck⟩ := exists_create_of_any [echoType]
    ([{}].map (withPolicy .monotonic))
    (q := fun t => isFollowing isDiscreet 200 t exchanging &&
      cellsIn (reports 200 t exchanging) ==
        [some 3, some 3, some 4, some 6]) (by decide +kernel)
  rw [Bool.and_eq_true, beq_iff_eq] at hcheck
  obtain ⟨hfollows, hcells'⟩ := hcheck
  obtain ⟨hdiscreet, hstops⟩ := follows_of_isFollowing (fun _ => discreet_of_isDiscreet) hfollows
  obtain ⟨hiff, hreports⟩ := policy_does_not_show hs ht hdiscreet
  refine ⟨s, t, hs, ht, hdiscreet, hiff.2 hstops, hreports hstops, ?_⟩
  rw [beq_iff_eq.1 hcells, hcells']
  decide

/-- A host type whose objects dispose the bridge when they go. -/
def closingType : HostType where
  name := "Closing"
  description := { name := "Closing" }
  hook := some .dispose

/-- A host type whose objects empty a register when they go. -/
def clearingType : HostType where
  name := "Clearing"
  description := { name := "Clearing" }
  hook := some (.drop "r")

/-- A host type without members. -/
def idleType : HostType := { name := "Idle", description := { name := "Idle" } }

/-- Orders after which script forgets three objects at once, the first of which disposes the
bridge, while a register refers to the last one. -/
def closing : List Order :=
  [⟨0, .setVariable "v" (.array [.fresh 0 "d" [], .fresh 2 "a" [], .fresh 1 "b" []]), none⟩,
   ⟨0, .evaluate (.op (.put "1") [.var "v", .null]), none⟩,
   ⟨0, .make (.fresh 2 "c" []), some "r"⟩,
   ⟨0, .setVariable "c" (.register "r"), none⟩,
   ⟨0, .evaluate (.seq [.op (.put "0") [.var "v", .null], .op (.put "2") [.var "v", .null],
      .op (.assign "c") [.null]]), none⟩]

/-- Orders with which script puts a function in the place of the class of stand-ins, gets hold of
the token of a slot, and calls it. -/
def peeking : List Order :=
  [⟨0, .setVariable "v" (.array [.fresh 0 "a" [], .fresh 0 "b" []]), none⟩,
   ⟨0, .evaluate (.seq [.op (.put "0") [.var "v", .null],
      .op (.assign "Proxy") [.function (.op (.assign "kept") [.arg 1])], .null]), none⟩,
   ⟨0, .setVariable "c" (.fresh 0 "c" []), none⟩,
   ⟨0, .evaluate (.callMember (.var "kept") "token" []), none⟩]

/-- The whole number that an answer is. -/
def Answer.int? : Answer → Option Int32
  | .result (.ok (.int n)) => some n
  | _ => none

/-- What is checked of two programs that differ in the policy only: both stop on their orders, in
neither does script ask for a slot, and they report what is expected of each. -/
lemma exists_modest {α : Type} [DecidableEq α] (orders : List Order) (view : Report → α)
    (types : List HostType) (policy : SlotPolicy) (expected : List α)
    (h : ((create types [withPolicy policy {}]).toOption.any fun s =>
      isFollowing isModest 200 s orders &&
        decide ((reports 200 s orders).map view = expected)) = true) :
    ∃ s, create types [withPolicy policy {}] = .ok s ∧
      Follows (Throughout Modest 200) 200 s orders ∧ Follows (Stops 200) 200 s orders ∧
      (reports 200 s orders).map view = expected := by
  obtain ⟨s, hs, hcheck⟩ := exists_create_of_any _ _ h
  rw [Bool.and_eq_true, decide_eq_true_eq] at hcheck
  obtain ⟨hfollows, hreports⟩ := hcheck
  obtain ⟨hmodest, hstops⟩ := follows_of_isFollowing (fun _ => modest_of_isModest) hfollows
  exact ⟨s, hs, hmodest, hstops, hreports⟩

/-- What becomes of slots shows in which dispose hooks run, where a bridge is disposed while several
entries are still to be given up; and it shows in what script is given, where script has put
something in the place of the class of stand-ins. -/
theorem policy_shows :
    (∃ s t, create [closingType, clearingType, idleType] [withPolicy .reuse {}] = .ok s ∧
      create [closingType, clearingType, idleType] [withPolicy .monotonic {}] = .ok t ∧
      (∀ u ∈ [s, t], Follows (Throughout Modest 200) 200 u closing ∧
        Follows (Stops 200) 200 u closing) ∧
      (reports 200 s closing).map Report.disposed ≠
        (reports 200 t closing).map Report.disposed) ∧
    (∃ s t, create [idleType] [withPolicy .reuse {}] = .ok s ∧
      create [idleType] [withPolicy .monotonic {}] = .ok t ∧
      (∀ u ∈ [s, t], Follows (Throughout Modest 200) 200 u peeking ∧
        Follows (Stops 200) 200 u peeking) ∧
      (reports 200 s peeking).map Report.answer ≠ (reports 200 t peeking).map Report.answer) := by
  constructor
  · obtain ⟨s, hs, hmodest, hstops, hlogs⟩ := exists_modest closing Report.disposed
      [closingType, clearingType, idleType] .reuse
      [[], ["a"], [], [], ["d", "b"]] (by decide +kernel)
    obtain ⟨t, ht, hmodest', hstops', hlogs'⟩ := exists_modest closing Report.disposed
      [closingType, clearingType, idleType] .monotonic
      [[], ["a"], [], [], ["d", "b", "c"]] (by decide +kernel)
    refine ⟨s, t, hs, ht, by simp [hmodest, hstops, hmodest', hstops'], ?_⟩
    rw [hlogs, hlogs']
    decide
  · obtain ⟨s, hs, hmodest, hstops, hnumbers⟩ := exists_modest peeking (fun r => r.answer.int?)
      [idleType] .reuse [none, none, none, some 0]
      (by decide +kernel)
    obtain ⟨t, ht, hmodest', hstops', hnumbers'⟩ := exists_modest peeking (fun r => r.answer.int?)
      [idleType] .monotonic [none, none, none, some 2]
      (by decide +kernel)
    refine ⟨s, t, hs, ht, by simp [hmodest, hstops, hmodest', hstops'], fun heq => ?_⟩
    have hsame := congrArg (List.map Answer.int?) heq
    rw [List.map_map, List.map_map] at hsame
    exact absurd (hnumbers.symm.trans (hsame.trans hnumbers')) (by decide)

end ScriptBridge.Session
