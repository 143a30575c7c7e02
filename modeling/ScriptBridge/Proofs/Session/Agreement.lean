/-
# The two sides agree about the wire format

Whatever crosses a bridge can be read by the side that it goes to.  So what a record stands
for never fails since the record cannot be read or names an empty handle, and no operation
ends with such an error.
-/
import ScriptBridge.Proofs.Bridge.Skew
import ScriptBridge.Proofs.Engine.Mirror
import ScriptBridge.Proofs.Session.Terms

namespace ScriptBridge.Session

open ScriptBridge.Bridge ScriptBridge.Host ScriptBridge.Table ScriptBridge.Wire

variable {s s' : Session} {b : Nat} {e : Engine} {ctl : Control} {fr : Frame}
  {types : List HostType} {setups : List Setup} {hist older : List Session}

/-- A failure of a record does not say that the two sides disagree about the wire format. -/
def Reads (result : Except Fault HostValue) : Prop := ∀ f, result = .error f → f.isSkew = false

/-- What is about to be done is about proper records, and no disagreement is reported. -/
def Control.Agrees : Control → Prop
  | .done r => ∀ e, r = .error (.operation e) → e.isSkew = false
  | .decode _ r => r.IsProper
  | .perform _ _ _ result => Reads result
  | .answer _ r => ∀ record, r = .ok record → record.IsProper
  | _ => True

/-- No disagreement is reported once the reply of an engine has been taken. -/
def Purpose.Agrees : Purpose → Prop
  | .member _ _ _ _ result => Reads result
  | _ => True

/-- What waits goes on with proper records, and reports no disagreement. -/
def Frame.Agrees : Frame → Prop
  | .interrupted ctl => ctl.Agrees
  | .running _ p => p.Agrees
  | _ => True

/-- All records of a session can be read, and nothing in it says that the two sides disagree about
the wire format. -/
structure Agrees (s : Session) : Prop where
  control : s.control.Agrees
  frames : ∀ f ∈ s.frames, f.Agrees
  engines : ∀ b e, s.engine? b = some e → e.Proper

lemma isProper_failureRecord (a : Arena Entry) (e : HostError) :
    (failureRecord a e).1.IsProper := by
  unfold failureRecord
  split
  · exact Record.isProper_unknownError (some _)
  · split
    · exact Record.isProper_managedError _
    · exact Record.isProper_unknownError (some _)

/-- What agreement asks of engines, records and errors. -/
def agreement : Terms where
  engine := Engine.Proper
  told := Record.IsProper
  given := Record.IsProper
  fault f := f.isSkew = false
  error e := e.isSkew = false
  start := Engine.proper_start
  enter he ho := he.enter ho
  answer he hr := he.answer hr
  encode h := isProper_encode h
  method := Record.isProper_managed
  failure := isProper_failureRecord
  decode hr h := isSkew_decode _ _ _ hr h
  said hf heard := (Fault.isSkew_error heard _).trans hf
  own he := BridgeError.isSkew_of_isOwn he

lemma Control.agrees_of_meets (h : ctl.Meets agreement) : ctl.Agrees := by
  cases ctl <;> exact h

lemma Frame.agrees_of_meets (h : fr.Meets agreement) : fr.Agrees := by
  cases fr with
  | interrupted ctl => exact Control.agrees_of_meets h
  | running b p => cases p <;> exact h
  | _ => trivial

lemma Meets.agrees (h : s.Meets agreement) : s.Agrees :=
  ⟨Control.agrees_of_meets h.control, fun f hf => Frame.agrees_of_meets (h.frames f hf), h.engines⟩

/-! ### Histories -/

lemma History.shaped (h : History types setups hist) (hs : s ∈ hist) {b : Nat} {e : Engine}
    (he : s.engine? b = some e) : e.Shaped := by
  obtain ⟨a, q, hcore⟩ := core?_of_engine? he
  exact (h.accounted hs (side?_of_core? hcore)).shaped

/-- **The two sides agree about the wire format at all times.** -/
theorem History.agrees (h : History types setups hist) : ∀ s ∈ hist, s.Agrees := fun s hs =>
  (h.meets (K := agreement) (fun _ ht _ _ he hproper =>
    Engine.Proper.step hproper (h.shaped ht he)) s hs).agrees

lemma Failure.isSkew_error {f : Failure} (h : ∀ e, f = .operation e → e.isSkew = false) :
    f.error.isSkew = false := by
  cases f with
  | operation e => exact h e rfl
  | host e => exact BridgeError.isSkew_ofHost e
  | panic text => rfl

/-- **No protocol skew between the two halves.**  All records that an engine works on and that it
hands to the host are proper, and none of them fails to become a value of script but for a handle
that is not in use.  So are the records that the host decodes, those that it answers callbacks with,
and those of all host values.  No operation ends with an error about the wire format. -/
theorem History.no_skew (h : History types setups hist) (hs : s ∈ hist) :
    (∀ b e, s.engine? b = some e → e.Proper ∧ (∀ r ∈ e.step.2.records, r.IsProper) ∧
      ∀ r v, e.control = .convert r → (e.convert r).1 = .error v →
        ∃ g ∈ r.handles, e.handles.get? g = none) ∧
    (∀ b r, s.control = .decode b r → r.IsProper) ∧
    (∀ b r, s.control = .answer b (.ok r) → r.IsProper) ∧
    (∀ b a v r, (encode b a v).1 = .ok r → r.IsProper) ∧
    ∀ f, s.control = .done (.error f) → f.error.isSkew = false := by
  have hagrees := h.agrees s hs
  have hcontrol := hagrees.control
  refine ⟨fun b e he => ?_, fun b r hc => ?_, fun b r hc => ?_, fun b a v r => isProper_encode,
    fun f hc => ?_⟩
  · have hproper := hagrees.engines b e he
    obtain ⟨a, q, hcore⟩ := core?_of_engine? he
    have haccounted := h.accounted hs (side?_of_core? hcore)
    refine ⟨hproper, (hproper.step haccounted.shaped).2, fun r v hc herr => ?_⟩
    -- A record that can be read becomes a value where its handles are in use.
    by_contra hnone
    have hr : r.IsProper := hproper.control r (by rw [hc]; exact List.mem_singleton_self r)
    obtain ⟨w, e', hok, -⟩ := Engine.mirrors_convert e haccounted.sound (Nat.le_refl _) r
      hr.isReadable fun g hg => Option.isSome_iff_ne_none.2 fun hg' => hnone ⟨g, hg, hg'⟩
    rw [hok] at herr
    cases herr
  · rw [hc] at hcontrol
    exact hcontrol
  · rw [hc] at hcontrol
    exact hcontrol r rfl
  · rw [hc] at hcontrol
    exact Failure.isSkew_error fun e heq => hcontrol e (heq ▸ rfl)

/-! ### A script that throws -/

/-- A program in which script throws an object in an array. -/
def throwing : List Session :=
  follow 60 (tell 0 (.evaluate (.op .throw [.op .array [.op (.object []) []]])) (made [] [{}]))

/-- An operation ends with the error of a thrown object, which is not one about the wire format. -/
theorem no_skew_throwing : ∃ s f, throwing.head? = some s ∧ s.control = .done (.error f) ∧
    f.error.isSkew = false := by
  have hends : throwing.head?.map (fun s => s.outcome.toOption.isNone) = some true := by
    decide +kernel
  have h : History [] [{}] throwing := ((history_made (by decide +kernel)).tell ..).follow _
  generalize throwing = hist at hends h ⊢
  cases hist with
  | nil => cases hends
  | cons s older =>
  rw [List.head?_cons, Option.map_some, Option.some_inj, outcome] at hends
  split at hends
  · next r hc =>
    cases r with
    | ok v => cases hends
    | error f => exact ⟨s, f, rfl, hc, (h.no_skew (List.mem_cons_self ..)).2.2.2.2 f hc⟩
  · cases hends

end ScriptBridge.Session
