/-
# Script errors and what they say

An error of script has a name, whatever was thrown and whatever failed in the engine.  It has a
text too, with one exception: the empty string, thrown by script and not caught, ends an operation
with an error that says nothing.  What an object says of itself is replaced where it is empty, and
so is a text that is missing, but the text of a plain value is passed on as it is.
-/
import ScriptBridge.Proofs.Bridge.Acceptance
import ScriptBridge.Proofs.Engine.Speaking
import ScriptBridge.Proofs.Session.Agreement
import ScriptBridge.Proofs.Session.Storage

namespace ScriptBridge

open ScriptBridge.Bridge ScriptBridge.Host ScriptBridge.Script ScriptBridge.Table ScriptBridge.Wire

variable {m : Prop}

/-! ### Errors -/

/-- An error of script has a name, and it has a text unless there is a reason. -/
structure Host.ScriptError.Speaks (m : Prop) (e : ScriptError) : Prop where
  name : e.name ≠ ""
  text : e.text = "" → m

/-- If an error is one of script, it says something. -/
def Host.BridgeError.Speaks (m : Prop) : BridgeError → Prop
  | .script e => e.Speaks m
  | _ => True

lemma Host.BridgeError.speaks_of_isOwn {e : BridgeError} (h : e.isOwn = true) : e.Speaks m := by
  cases e with
  | script => cases h
  | _ => trivial

lemma Host.BridgeError.speaks_ofHost (e : HostError) : (ofHost e).Speaks m := by
  cases e <;> trivial

namespace Bridge

/-- If what went wrong is an error of script, it says something. -/
def Fault.Speaks (m : Prop) : Fault → Prop
  | .known e => e.Speaks m
  | .thrown _ => True

variable {b n : Nat} {a : Arena Entry} {r leaf : Record} {f : Fault}

lemma speaks_scriptFault {text : String} (h : text = "" → m) : (scriptFault text).Speaks m :=
  have hname : "Error" ≠ "" := by decide
  ⟨hname, h⟩

lemma Flaw.speaks (h : Flaw a leaf f)
    (hleaf : ∀ text, leaf.view = .ok (.unknownError (some text)) → text = "" → m) :
    f.Speaks m := by
  cases h with
  | @error slot e => exact BridgeError.speaks_ofHost e
  | thrownEntry =>
    exact speaks_scriptFault fun h => absurd h (append_ne_empty_of_left (by decide) _)
  | @unknown said h =>
    refine speaks_scriptFault ?_
    cases said with
    | none => exact nofun
    | some text => exact hleaf text h
  | _ => trivial

lemma FirstFlaw.exists_flaw {l : List Record} (h : FirstFlaw a l f) :
    ∃ leaf ∈ l, Flaw a leaf f := by
  induction h with
  | here hb h => exact ⟨_, List.mem_cons_self .., h⟩
  | later hb h ih =>
    obtain ⟨leaf, hleaf, hflaw⟩ := ih
    exact ⟨leaf, List.mem_cons_of_mem _ hleaf, hflaw⟩

/-- What comes of decoding says something if the record does. -/
lemma speaks_decode (hr : r.Speaks m) (h : (decode b a n r).result = .error f) : f.Speaks m := by
  obtain ⟨leaf, hleaf, hflaw⟩ := (result_eq_error_iff.1 h).exists_flaw
  exact hflaw.speaks (hr leaf hleaf)

/-- What is heard of an object is not empty, nor is what stands for it where nothing is heard. -/
lemma getD_heardText?_ne_empty {heard : List Heard} {h : Handle} {member missing : String}
    (hmissing : missing ≠ "") : (heardText? heard h member).getD missing ≠ "" := by
  cases hheard : heardText? heard h member with
  | none => exact hmissing
  | some text => exact of_decide_eq_true (Option.filter_eq_some_iff.1 hheard).2

lemma speaks_thrownError (heard : List Heard) (h : Handle) : (thrownError heard h).Speaks m where
  name := getD_heardText?_ne_empty (by decide)
  text hempty := absurd hempty (getD_heardText?_ne_empty (by decide))

lemma Fault.Speaks.error (hf : f.Speaks m) (heard : List Heard) : (f.error heard).Speaks m := by
  cases f with
  | known e => exact hf
  | thrown h => exact speaks_thrownError heard h

end Bridge

namespace Session

variable {s : Session} {types : List HostType} {setups : List Setup}
  {hist older : List Session}

/-! ### Histories -/

/-- Engines do not hand errors to the host that say nothing, unless there is a reason. -/
def speaking (m : Prop) : Terms where
  engine := Engine.Speaks m
  told := Record.Speaks m
  given _ := True
  fault := Fault.Speaks m
  error := BridgeError.Speaks m
  start := Engine.speaks_start
  enter he _ := he.enter _
  answer he _ := he.answer _
  encode _ := trivial
  method _ := trivial
  failure _ _ := trivial
  decode := speaks_decode
  said hf heard := hf.error heard
  own := BridgeError.speaks_of_isOwn

/-- The empty string is thrown in an engine, and script does not catch it. -/
def IsMute (s : Session) : Prop := ∃ b e, s.engine? b = some e ∧ e.IsMute

/-- **Errors of script say something, except for an empty string.**  An operation that ends with an
error of script gives a name.  It gives a text too, unless the empty string has been thrown, by
script or in the place of an object for which no handle is left, and nothing in script has caught
it. -/
theorem script_error_speaks {e : ScriptError} (h : History types setups (s :: older))
    (hc : s.control = .done (.error (.operation (.script e)))) :
    e.name ≠ "" ∧ (e.text = "" → ∃ t ∈ s :: older, t.IsMute) := by
  have hmeets : s.Meets (speaking (∃ t ∈ s :: older, t.IsMute)) :=
    h.meets (K := speaking _) (fun t ht b e he hspeaks => Engine.Speaks.step hspeaks
      (h.shaped ht he) fun hmute => ⟨t, ht, b, e, he, hmute⟩) s (List.mem_cons_self ..)
  have hcontrol := hmeets.control
  rw [hc] at hcontrol
  exact ⟨(hcontrol _ rfl).name, (hcontrol _ rfl).text⟩

/-- A program in which script throws the empty string. -/
def muttering : List Session :=
  follow 30 (tell 0 (.evaluate (.op .throw [.string []])) (made [] [{}]))

/-- An operation ends with an error that has a name and no text. -/
theorem script_error_speaks_muttering : ∃ s older e, muttering = s :: older ∧
    s.control = .done (.error (.operation (.script e))) ∧ e.text = "" ∧ e.name ≠ "" ∧
    ∃ t ∈ s :: older, t.IsMute := by
  have hends : muttering.head?.bind failure? = some (.script { name := "Error", text := "" }) := by
    decide +kernel
  have h : History [] [{}] muttering := ((history_made (by decide +kernel)).tell ..).follow _
  generalize muttering = hist at hends h ⊢
  cases hist with
  | nil => cases hends
  | cons s older =>
  rw [List.head?_cons, Option.bind_some, failure?] at hends
  split at hends
  case h_2 => cases hends
  case h_1 e hc =>
  cases hends
  obtain ⟨hname, htext⟩ := script_error_speaks h hc
  exact ⟨s, older, _, rfl, hc, rfl, hname, htext rfl⟩

end Session

end ScriptBridge
