/-
# Failures that get out of an operation

However deep host code and script call each other, a failure that nobody keeps ends the operation
around all of them, and it is the same failure then.  A handler that throws at once what it has
caught keeps nothing.  Where script has put a function in the place of the class of stand-ins, a
failure is lost when that function fails itself.
-/
import ScriptBridge.Proofs.Session.Causes

namespace ScriptBridge.Session

open ScriptBridge.Bridge ScriptBridge.Host ScriptBridge.Script ScriptBridge.Table ScriptBridge.Wire

variable {s s' t u : Session} {b c : Nat} {e : HostError} {q : Ref} {below outer way : List Frame}
  {types : List HostType} {setups : List Setup} {hist older : List Session}

/-! ### Handlers -/

/-- An engine is about to hand an exception to a handler that throws it again at once. -/
def Rethrowing (b : Nat) : Session → Prop :=
  Working b fun e => ∃ env base, e.stack = .guard Engine.rethrowing env :: base

/-- **A handler that throws at once what it has caught keeps nothing.** -/
theorem CameIntact.exists_rethrows (h : CameIntact types setups u) (hr : Rethrowing b u)
    (hf : ∃ rest, u.frames = .running b .value :: rest) (hs : u.Embodies b q e)
    (hq : (u.engine? b).bind Engine.thrown? = some q) : ∃ t, Rethrows u t := by
  obtain ⟨hc, e₁, he, env, base, hstack⟩ := hr
  obtain ⟨rest, hf⟩ := hf
  obtain ⟨x, o, slot, token, hx, ho, hk, -, -⟩ := hs
  obtain rfl : x.engine = e₁ := Option.some.inj ((engine?_of_side? hx).symm.trans he)
  rw [he, Option.bind_some] at hq
  have hfaithful := h.faithful hx
  have hin := inCall_of_running hx hfaithful.toAccounted hc hf nofun
  obtain ⟨heap, slots, hruns, ho'⟩ := Engine.exists_rethrown (Engine.thrown?_eq_some.1 hq).1
    hfaithful.sound ho hk hstack
  obtain ⟨t, q', hruns, hdrives, hcore⟩ := drives_runs hruns.always hc hin (side?_eq_some.1 hx).1
  let e₂ : Engine := { x.engine with heap := heap, stack := base, released := slots }
  refine ⟨t, hruns.mono fun v hv => ?_, hdrives.frames, b, x.engine, e₂, Engine.rethrowing, env, q,
    hc, he, hstack, hq, hdrives.control.trans hc, engine?_of_core? hcore,
    Engine.thrown?_eq_some.2 ⟨(Engine.thrown?_eq_some.1 hq).1, o, ho'⟩⟩
  exact hv.2 ▸ List.suffix_refl _

/-! ### The operation ends -/

/-- **Host errors keep their cause across any nesting.**  A callback of script has failed, within an
operation and at any depth of host code and script that call each other.  Host code hands the
failure on, each handler of script throws it again, and there is room for it in the arenas that it
comes through; no script puts anything in the place of the class of stand-ins.  Then, unless the
program runs on forever, the operation ends with that very failure. -/
theorem failure_ends_operation (h : Unhindered types setups e c way below s)
    (hc : s.control = .respond b (.error e))
    (hends : Acc (fun t u : Session => u.step? = some t) s) :
    ∃ t f, ProceedsWhile (fun v => below.length < v.frames.length) s t ∧ t.frames = below ∧
      t.control = .done (.error f) ∧ f.error = .ofHost e := by
  obtain ⟨t, f, hruns, hframes, hdone, hfailure⟩ := h.exists_escaped .start
    (.handed (List.suffix_refl _) .respond (.inl ⟨h.frames, hc⟩)) hends
  exact ⟨t, f, hruns, hframes, hdone, hfailure.error⟩

/-! ### Following a failure -/

/-- Whether what an engine is about to throw comes to a handler only if that throws it again at
once. -/
def rethrowsOnly (e : Engine) : Bool :=
  match e.control, e.stack with
  | .throw _, .guard (.op .throw [.caught]) _ :: _ => true
  | .throw _, .guard .. :: _ => false
  | _, _ => true

/-- Whether nothing in a state hinders a failure on its way: the class of stand-ins is in its
place, there is room in the arenas, nothing that is being copied breaks off, handlers throw again
what they catch, and engines work for operations. -/
def isClearFor (e : HostError) (s : Session) : Bool :=
  (s.bridges.all fun br => (br.arena.add (.error e)).isSome &&
    br.engine.all fun e => e.isIntact .proxy && !e.isDiverted && rethrowsOnly e) &&
  match s.control, s.frames with
  | .engine b, .running c .value :: _ => b == c
  | .engine _, _ => false
  | _, _ => true

lemma bridge?_of_isClearFor {br : Bridge} (h : isClearFor e s = true) (hb : s.bridge? b = some br) :
    (br.arena.add (.error e)).isSome ∧ ∀ engine, br.engine = some engine →
      engine.isIntact .proxy = true ∧ engine.isDiverted = false ∧ rethrowsOnly engine = true := by
  rw [isClearFor, Bool.and_eq_true, List.all_eq_true] at h
  have hbr := h.1 br (List.mem_of_getElem? hb)
  rw [Bool.and_eq_true] at hbr
  refine ⟨hbr.1, fun engine hengine => ?_⟩
  rw [hengine, Option.all_some] at hbr
  simpa [and_assoc] using hbr.2

lemma engine?_of_isClearFor {engine : Engine} (h : isClearFor e s = true)
    (he : s.engine? b = some engine) :
    engine.isIntact .proxy = true ∧ engine.isDiverted = false ∧ rethrowsOnly engine = true := by
  obtain ⟨br, hbr, hengine⟩ := Option.bind_eq_some_iff.1 he
  exact (bridge?_of_isClearFor h hbr).2 engine hengine

/-- Nothing hinders a failure in a program that is followed until nothing is left to do. -/
lemma unhindered_of_follow {fuel : Nat} (h : History types setups (s :: older))
    (hend : (follow fuel (s :: older)).head?.all (·.step?.isNone) = true)
    (hclear : (follow fuel (s :: older)).all (isClearFor e) = true)
    (he : ∀ slot, e ≠ .invalidSlot slot) (hf : s.frames = way ++ .scope c :: below)
    (hway : ∀ f ∈ way, f.propagates = true) : Unhindered types setups e c way below s := by
  -- Whatever the program comes to is among the states that have been looked at.
  have hall : ∀ u, Proceeds s u → isClearFor e u = true := fun u hu =>
    List.all_eq_true.1 hclear u (mem_follow hu hend)
  have hstays : StaysIntact s := fun u hu b engine hengine =>
    (engine?_of_isClearFor (hall u hu) hengine).1
  have hcame : CameIntact types setups s := ⟨older, h, fun b u hu engine hengine =>
    (engine?_of_isClearFor (List.all_eq_true.1 hclear u (mem_follow_of_mem hu)) hengine).1⟩
  refine ⟨hcame, hstays, he, hf, hway, fun u b br hu _ _ hbr => ?_, fun u b hu _ hcopying => ?_,
    fun u b q hu _ hcatching hs hq => ?_⟩
  · exact (bridge?_of_isClearFor (hall u hu.proceeds) hbr).1
  · obtain ⟨-, engine, hengine, hcopies⟩ := hcopying
    rw [(engine?_of_isClearFor (hall u hu.proceeds) hengine).2.1] at hcopies
    cases hcopies
  · have hu := hall u hu.proceeds
    obtain ⟨hc, engine, hengine, hcatches⟩ := hcatching
    refine (hcame.later hstays ‹Way _ _ _›.proceeds).exists_rethrows
      ⟨hc, engine, hengine, ?_⟩ ?_ hs hq
    · have honly := (engine?_of_isClearFor hu hengine).2.2
      unfold Engine.isCatching at hcatches
      unfold rethrowsOnly at honly
      split at honly
      · next hstack => exact ⟨_, _, hstack⟩
      · cases honly
      · next hne =>
        split at hcatches
        · next hthrow hguard => exact absurd hguard (hne _ _ _ _ hthrow)
        · cases hcatches
    · rw [isClearFor, Bool.and_eq_true, hc] at hu
      obtain ⟨-, hu⟩ := hu
      split at hu
      · next hengine hframes =>
        cases hengine
        obtain rfl := eq_of_beq hu
        exact ⟨_, hframes⟩
      · cases hu
      · next hne _ => exact (hne _ rfl).elim

/-! ### Two failures -/

/-- A script that calls a method and throws again what comes of it. -/
def entering : Expr := .tryCatch (.callMember (.var "x") "enter" []) Engine.rethrowing

/-- A host type with a method that makes script call it again. -/
def gateType : HostType := .described [.method "enter" [] (.eval entering)] none

/-- A program in which script calls a method that makes script call it again, which fails since the
object is in use. -/
def entered : List Session :=
  follow 43 (tell 0 (.evaluate entering) (obey 40 0 (.setVariable "x" (.fresh 0 "x" [])) none
    (made [gateType] [{}])))

lemma history_entered : History [gateType] [{}] entered :=
  (((history_made (by decide +kernel)).obey ..).tell ..).follow _

/-- The failure of an object that is in use. -/
def inUse : HostError := .reentrant "Dyn"

/-- Whether a callback has failed since an object is in use, two operations deep. -/
def isRefused (s : Session) : Bool :=
  match s.control, s.frames with
  | .respond 0 (.error e), [.running 0 .value, .scope 0, .keeping 0, .reporting, .calling 0 _ _,
      .running 0 .value, .scope 0, .pausing, .keeping 0] => decide (e = inUse)
  | _, _ => false

/-- A failure two operations deep ends the outermost one, although script catches it and throws it
again both times. -/
theorem failure_ends_operation_entered : ∃ s t f, entered.head? = some s ∧
    s.control = .respond 0 (.error inUse) ∧ Proceeds s t ∧ t.frames = [.pausing, .keeping 0] ∧
      t.control = .done (.error f) ∧ f.error = .hostMethod inUse := by
  have hrefused : entered.head?.map isRefused = some true := by decide +kernel
  have hend : (follow 80 entered).head?.all (·.step?.isNone) = true := by decide +kernel
  have hclear : (follow 80 entered).all (isClearFor inUse) = true := by decide +kernel
  have h := history_entered
  generalize entered = hist at hrefused hend hclear h ⊢
  cases hist with
  | nil => cases hrefused
  | cons s older =>
  rw [List.head?_cons, Option.map_some, Option.some_inj, isRefused] at hrefused
  split at hrefused
  case h_2 => cases hrefused
  case h_1 e o args hc hf =>
  obtain rfl := of_decide_eq_true hrefused
  let way : List Frame := [.running 0 .value, .scope 0, .keeping 0, .reporting, .calling 0 o args,
    .running 0 .value]
  have hf : s.frames = way ++ .scope 0 :: [.pausing, .keeping 0] := hf
  obtain ⟨t, f, hruns, hframes, hdone, hfailure⟩ := failure_ends_operation
    (unhindered_of_follow h hend hclear nofun hf (by simp [way, Frame.propagates])) hc
    (acc_of_follow hend)
  exact ⟨s, t, f, rfl, hc, hruns.proceeds, hframes, hdone, hfailure⟩

/-- A host type with a property that cannot be read. -/
def brokenType : HostType := .described [.getter "p" ⟨.throw "boom", true⟩] none

/-- A program in which script reads that property, after it has put a function that throws in the
place of the class of stand-ins. -/
def losing : List Session :=
  follow 100 (tell 0 (.evaluate (.seq
      [.op (.assign "Proxy") [.function (.op .throw [.string (Text.Units.ofString "lost")])],
        .op (.get "p") [.var "x"]]))
    (obey 40 0 (.setVariable "x" (.fresh 0 "x" [])) none (made [brokenType] [{}])))

/-- Whether a getter has failed for a script. -/
def isFailing (s : Session) : Bool :=
  match s.control, s.frames with
  | .respond 0 (.error (.thrown "boom")), [.running 0 .value, .scope 0, .pausing, .keeping 0] =>
    true
  | _, _ => false

/-- Whether no handler of script is there that could catch anything. -/
def isUnguarded (s : Session) : Bool :=
  (s.engine? 0).all fun e => e.stack.all fun f =>
    match f with
    | .guard .. => false
    | _ => true

/-- A failure that no script catches is lost, after script has put a function that throws in the
place of the class of stand-ins. -/
theorem failure_lost : History [brokenType] [{}] losing ∧ losing.any isFailing = true ∧
    losing.all isUnguarded = true ∧
      (losing.head?.bind failure?) = some (.script { name := "Error", text := "lost" }) :=
  ⟨(((history_made (by decide +kernel)).obey ..).tell ..).follow _, by decide +kernel,
    by decide +kernel, by decide +kernel⟩

end ScriptBridge.Session
