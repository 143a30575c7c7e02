/-
# Disagreements about the wire format

A record that cannot be read, or that names an empty handle, does not stand for a value; the
error says so.  Decoding a proper record never fails in this way, and the record of a host
value is proper.
-/
import ScriptBridge.Proofs.Bridge.Obstacles
import ScriptBridge.Proofs.Wire.Proper

namespace ScriptBridge

open ScriptBridge.Bridge ScriptBridge.Host ScriptBridge.Table ScriptBridge.Wire

/-! ### Errors of skew -/

/-- Whether an error says that the two sides disagree about the wire format. -/
def Host.BridgeError.isSkew : BridgeError → Bool
  | .protocol _ | .interop .emptyHandle => true
  | _ => false

lemma Host.BridgeError.isSkew_ofHost (e : HostError) : (ofHost e).isSkew = false := by
  cases e <;> rfl

/-- Whether an error comes from the host's own side of a bridge, and not from a record. -/
def Host.BridgeError.isOwn : BridgeError → Bool
  | .script _ => false
  | e => !e.isSkew

lemma Host.BridgeError.isSkew_of_isOwn {e : BridgeError} (h : e.isOwn = true) :
    e.isSkew = false := by
  cases e with
  | script => rfl
  | _ => simpa [isOwn] using h

namespace Bridge

variable {bridge next : Nat} {a : Arena Entry} {r : Record} {f : Fault} {v : HostValue}

/-- Whether a fault says that the two sides disagree about the wire format. -/
def Fault.isSkew : Fault → Bool
  | .known e => e.isSkew
  | .thrown _ => false

lemma Fault.isSkew_error (heard : List Heard) (f : Fault) : (f.error heard).isSkew = f.isSkew := by
  cases f <;> rfl

/-! ### Records that are decoded -/

lemma isSkew_entryValue {entry : Entry} (h : entryValue entry = .error f) : f.isSkew = false := by
  cases entry with
  | object o => cases h
  | method o name => cases h; rfl
  | error e =>
    cases h
    exact BridgeError.isSkew_ofHost e

lemma isSkew_entryFault (entry : Entry) : (entryFault entry).isSkew = false := by
  cases entry with
  | error e => exact BridgeError.isSkew_ofHost e
  | _ => rfl

lemma isSkew_dateValue {millis : Number.Binary64} (h : dateValue millis = .error f) :
    f.isSkew = false := by
  unfold dateValue at h
  split at h
  · cases h
  · split at h <;> cases h
    rfl

lemma isSkew_decodeLeaf {view : View} (hview : r.view = .ok view) (hv : view.isVacant = false)
    (h : (decodeLeaf bridge a next r).result = .error f) : f.isSkew = false := by
  unfold decodeLeaf at h
  rw [hview] at h
  cases view with
  | date millis => exact isSkew_dateValue h
  | managedRef slot =>
    dsimp only [plainValue] at h
    split at h
    · exact isSkew_entryValue h
    · cases h
      exact BridgeError.isSkew_ofHost (.invalidSlot slot)
  | managedError slot =>
    dsimp only [plainValue] at h
    split at h <;> cases h
    · exact isSkew_entryFault _
    · exact BridgeError.isSkew_ofHost (.invalidSlot slot)
  | foreignRef handle =>
    cases handle with
    | none => cases hv
    | some handle => cases h
  | foreignError handle =>
    cases handle with
    | none => cases hv
    | some handle => cases h; rfl
  | unknownError m => cases h; rfl
  | _ => cases h

lemma mem_of_gather_eq_error {rs : List (Except Fault HostValue)} {before after : List HostValue}
    (h : gather rs = .error (f, before, after)) : .error f ∈ rs := by
  induction rs generalizing before with
  | nil => cases h
  | cons r rs ih =>
    cases r with
    | error g =>
      cases h
      exact List.mem_cons_self ..
    | ok v =>
      rw [gather] at h
      split at h
      · cases h
      · next hrest =>
        cases h
        exact List.mem_cons_of_mem _ (ih hrest)

mutual
/-- **Decoding a proper record does not fail for a disagreement about the wire format.** -/
theorem isSkew_decode (bridge : Nat) (a : Arena Entry) (next : Nat) {f : Fault} : ∀ {r : Record},
    r.IsProper → (decode bridge a next r).result = .error f → f.isSkew = false
  | .plain .., hr, h | .text .., hr, h => by
    obtain ⟨view, hview, hv⟩ := hr
    exact isSkew_decodeLeaf hview hv h
  | .array items, hr, h => by
    rw [decode, decodedArray] at h
    split at h
    · cases h
    · next hgather =>
      cases h
      exact isSkew_decodeItems bridge a next hr (mem_of_gather_eq_error hgather)

/-- Nor does decoding proper records. -/
theorem isSkew_decodeItems (bridge : Nat) (a : Arena Entry) (next : Nat) {f : Fault} :
    ∀ {rs : List Record}, Record.AreProper rs →
      .error f ∈ (decodeItems bridge a next rs).result → f.isSkew = false
  | [], _, h => by cases h
  | r :: rs, hr, h => by
    rcases List.mem_cons.1 h with h | h
    · exact isSkew_decode bridge a next hr.1 h.symm
    · exact isSkew_decodeItems bridge a _ hr.2 h
end

/-! ### Values that are encoded -/

/-- The record of a host value is proper. -/
lemma Renders.isProper (h : Renders a v r) : r.IsProper := by
  induction v using HostValue.array_induction generalizing r with
  | leaf v hv =>
    obtain ⟨hn, view, hview, hsays⟩ := h.leaf hv
    exact Record.isProper_of_view hn hview (by cases hsays <;> rfl)
  | array vs ih =>
    obtain ⟨rs, rfl, hrs⟩ := h
    refine Record.isProper_array.2 fun r hr => ?_
    obtain ⟨v, hv, hvr⟩ := hrs.exists_of_mem hr
    exact ih v hv hvr

lemma isProper_encode (h : (encode bridge a v).1 = .ok r) : r.IsProper :=
  (renders_encode bridge (Prod.ext h rfl)).isProper

lemma isOwn_encode {e : BridgeError} (h : (encode bridge a v).1 = .error e) : e.isOwn = true := by
  cases bars_encode bridge a v h <;> rfl

end Bridge

end ScriptBridge
