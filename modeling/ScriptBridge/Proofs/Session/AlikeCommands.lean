/-
# Commands in alike sessions

A command begins alike in two sessions that are alike, and ends alike.  What is told about a bridge
afterwards is the same, but for how many cells its arena has and has had.
-/
import ScriptBridge.Proofs.Session.AlikeSteps

namespace ScriptBridge.Session

open ScriptBridge.Bridge ScriptBridge.Host ScriptBridge.Table ScriptBridge.Wire

variable {f : Nat → Slot → Slot} {s t u : Session} {b : Nat} {c : Command} {form : Form}

/-! ### What is told -/

/-- What is told about a bridge, without the number of cells of its arena. -/
def Stats.withoutCells (st : Stats) : Stats := { st with occupancy := ⟨0, 0, st.occupancy.used⟩ }

/-- What a command gives, without the number of cells of the arena. -/
def Report.withoutCells (r : Report) : Report := { r with stats := r.stats.map Stats.withoutCells }

lemma withoutCells_statsOf {g : Slot → Slot} {x y : Bridge} (h : x.Alike g y) :
    (statsOf x).withoutCells = (statsOf y).withoutCells := by
  have hhandles : x.foreignHandles = y.foreignHandles := by
    rw [Bridge.foreignHandles, Bridge.foreignHandles, h.engine]
    cases y.engine <;> rfl
  simp only [Stats.withoutCells, statsOf, Arena.occupancy, h.arena.used_eq, h.tally, h.described,
    hhandles]

namespace Alike

lemma outcome (h : Alike f s t) : s.outcome = t.outcome := by
  unfold Session.outcome
  rw [h.control]
  cases t.control <;> rfl

lemma idents (h : Alike f s t) : s.idents = t.idents := by
  simp only [Session.idents, h.objects, h.isWriting]

lemma stats? (h : Alike f s t) (b : Nat) :
    (s.stats? b).map Stats.withoutCells = (t.stats? b).map Stats.withoutCells := by
  unfold Session.stats?
  rw [h.hasBridge]
  split
  · rcases h.bridge_cases b with ⟨hs, ht⟩ | ⟨x, y, hs, ht, hxy⟩ <;> rw [hs, ht]
    exact congrArg some (withoutCells_statsOf hxy)
  · rfl

/-! ### Starting -/

/-- Two sessions that have started a command are alike, and give its answer in the same form. -/
def Started (f : Nat → Slot → Slot) (p q : Session × Form) : Prop :=
  Alike f p.1 q.1 ∧ p.2 = q.2

lemma startMember (h : Alike f s t) (direct : Bool) (on : Template) (name : String)
    (access : Access Template) :
    Option.Rel (Started f) (s.startMember b direct on name access)
      (t.startMember b direct on name access) := by
  obtain ⟨v, s₁, t₁, hs, ht, h₁⟩ := (h.build on).exists_eq
  unfold Session.startMember
  rw [hs, ht]
  cases v with
  | foreign g =>
    obtain ⟨made, s₂, t₂, hs₂, ht₂, h₂⟩ := (h₁.buildAccess access).exists_eq
    have hheld := h₂.push (.held (made.values ++ [.foreign g]))
    dsimp only
    rw [hs₂, ht₂]
    refine .some ⟨?_, rfl⟩
    dsimp only
    split
    · exact hheld.goto (.operate b (.member g name made))
    · exact hheld.gotoMember g _
  | _ => exact .none

lemma startHolding (h : Alike f s t) (script : Script.Expr) (on : Template) (exclusive : Bool) :
    Option.Rel (Started f) (s.startHolding b script on exclusive)
      (t.startHolding b script on exclusive) := by
  obtain ⟨v, s₁, t₁, hs, ht, h₁⟩ := (h.build on).exists_eq
  unfold Session.startHolding
  rw [hs, ht]
  cases v with
  | object o =>
    dsimp only
    split
    · exact .some ⟨(h₁.push (.borrowed o exclusive)).goto (.operate b (.evaluate script)), rfl⟩
    · exact .some ⟨(h₁.push (.held [.object o])).goto (.operate b (.evaluate script)), rfl⟩
  | _ => exact .none

/-- A command starts alike. -/
lemma start (h : Alike f s t) (b : Nat) (c : Command) :
    Option.Rel (Started f) (s.start b c) (t.start b c) := by
  cases c with
  | evaluate script => exact .some ⟨h.goto (.operate b (.evaluate script)), rfl⟩
  | getVariable name => exact .some ⟨h.goto (.operate b (.getVariable name)), rfl⟩
  | setVariable name tpl =>
    obtain ⟨v, s₁, t₁, hs, ht, h₁⟩ := (h.build tpl).exists_eq
    unfold Session.start
    dsimp only
    rw [hs, ht]
    exact .some ⟨h₁.goto (.operate b (.setVariable name v)), rfl⟩
  | member direct on name access => exact h.startMember direct on name access
  | flush => exact .some ⟨h.goto (.operate b .flush), rfl⟩
  | dispose => exact .some ⟨h.goto (.dispose b), rfl⟩
  | isDisposed =>
    unfold Session.start
    dsimp only
    rw [h.isDisposed]
    exact .some ⟨h.give _, rfl⟩
  | resetCrossings =>
    exact .some ⟨(h.updateBridge (b := b) (g := ({ · with tally := .zero }))
      (k := ({ · with tally := .zero })) fun _ _ _ _ hxy => { hxy with tally := rfl }).finish, rfl⟩
  | dropBridge => exact .some ⟨(h.leaveBridge b).finish, rfl⟩
  | make tpl => exact .some ⟨(h.build tpl).give, rfl⟩
  | drop register => exact .some ⟨h.dropRegister register, rfl⟩
  | inspect tpl => exact .some ⟨(h.build tpl).give, rfl⟩
  | same tpl tpl' =>
    obtain ⟨v, s₁, t₁, hs, ht, h₁⟩ := (h.build tpl).exists_eq
    obtain ⟨w, s₂, t₂, hs₂, ht₂, h₂⟩ := (h₁.build tpl').exists_eq
    unfold Session.start
    dsimp only
    rw [hs, ht]
    dsimp only
    rw [hs₂, ht₂]
    exact .some ⟨h₂.give _, rfl⟩
  | evaluateHolding script on exclusive => exact h.startHolding script on exclusive

/-- **A command begins alike.** -/
theorem begin? (h : Alike f s t) (b : Nat) (c : Command) :
    Option.Rel (Started f) (s.begin? b c) (t.begin? b c) := by
  have hfresh : Alike f { s with disposed := [], current := b }
      { t with disposed := [], current := b } :=
    { h with current := rfl, disposed := rfl }
  unfold Session.begin?
  dsimp only
  generalize ({ s with disposed := [], current := b } : Session) = s₀ at hfresh ⊢
  generalize ({ t with disposed := [], current := b } : Session) = t₀ at hfresh ⊢
  have hkept : Alike f (if c.needsBridge = true then s₀.push (.keeping b) else s₀)
      (if c.needsBridge = true then t₀.push (.keeping b) else t₀) := by
    split
    · exact hfresh.push (.keeping b)
    · exact hfresh
  have hsame : Same t₀ (if c.needsBridge = true then t₀.push (.keeping b) else t₀) := by
    split <;> exact ⟨fun _ => rfl, rfl, rfl⟩
  generalize (if c.needsBridge = true then s₀.push (.keeping b) else s₀) = s₁ at hkept ⊢
  generalize (if c.needsBridge = true then t₀.push (.keeping b) else t₀) = t₁ at hkept hsame ⊢
  rcases exists_of_rel (hkept.start b c) with ⟨hs, ht⟩ | ⟨p, q, hs, ht, hpq, hform⟩ <;> rw [hs, ht]
  · exact .none
  · refine .some ⟨hfresh.lettingGo (hpq.push .pausing) (KeepsEntries.subset ?_), hform⟩
    exact .of_same (u := q.1) (hsame.trans (inner_start ht).same)

/-! ### Ending -/

lemma resume (h : Alike f s t) : Alike f s.resume t.resume := by
  unfold Session.resume
  rw [h.frames]
  cases t.frames with
  | nil => exact h
  | cons frame rest =>
    cases frame with
    | pausing => exact h.pop
    | _ => exact h

lemma settle (h : Alike f s t) (save : Option String) :
    Alike f (s.settle save) (t.settle save) := by
  unfold Session.settle
  rw [h.outcome]
  split
  · exact (h.resume.setRegister _ _).finish
  · exact h.resume.finish

/-- **A command ends alike.** -/
theorem conclude (h : Alike f s t) (save : Option String) :
    Alike f (s.conclude save) (t.conclude save) := by
  refine h.lettingGo (h.settle save) (KeepsEntries.of_arena? fun b => ?_).subset
  have hresume : t.resume.arena? b = t.arena? b := by
    unfold Session.resume
    split <;> rfl
  unfold Session.settle
  split <;> exact hresume

end Alike

end ScriptBridge.Session
