/-
# What an engine says of errors

An engine tells the host of an error by an object, or by a text alone.  It makes up none of these
texts but for the one of an exception that is no object, which is the text of what was thrown.  So
an engine only hands an error with an empty text to the host after script has thrown the empty
string and has not caught it.
-/
import ScriptBridge.Proofs.Engine.Proper
import ScriptBridge.Proofs.Text.Utf16

namespace ScriptBridge

open ScriptBridge.Number ScriptBridge.Script ScriptBridge.Table ScriptBridge.Text ScriptBridge.Wire

/-! ### Texts that are not empty -/

lemma append_ne_empty_of_left {a : String} (h : a ≠ "") (b : String) : a ++ b ≠ "" :=
  fun hab => h (String.append_eq_empty_iff.1 hab).1

lemma append_ne_empty_of_right (a : String) {b : String} (h : b ≠ "") : a ++ b ≠ "" :=
  fun hab => h (String.append_eq_empty_iff.1 hab).2

lemma toString_nat_ne_empty (n : Nat) : toString n ≠ "" := by
  rw [Nat.toString_eq_ofList_toDigits]
  exact fun h => Nat.toDigits_ne_nil (String.ofList_eq_empty_iff.1 h)

lemma toString_int_ne_empty (n : Int) : toString n ≠ "" := by
  cases n with
  | ofNat n => exact toString_nat_ne_empty n
  | negSucc n => exact append_ne_empty_of_left (by decide) _

namespace Number.Layout

variable {l : Layout}

lemma plain_ne_empty (d : Decimal) : l.plain d ≠ "" := by
  have hdigits : String.ofList (Nat.toDigits 10 d.digits) ≠ "" := fun h =>
    Nat.toDigits_ne_nil (String.ofList_eq_empty_iff.1 h)
  unfold plain
  dsimp only
  split
  · exact append_ne_empty_of_right _ hdigits
  · split
    · exact append_ne_empty_of_left (append_ne_empty_of_left hdigits _) _
    · exact append_ne_empty_of_left (append_ne_empty_of_right _ (by decide)) _

lemma scientific_ne_empty (d : Decimal) : l.scientific d ≠ "" :=
  append_ne_empty_of_right _ (toString_nat_ne_empty _)

/-- The text of a double is not empty, if that of infinity is not. -/
lemma write_ne_empty (hl : l.infinity ≠ "") (x : Binary64) : l.write x ≠ "" := by
  unfold write
  dsimp only
  split
  · decide
  · split
    · refine append_ne_empty_of_right _ ?_
      split <;> decide
    · split
      · exact append_ne_empty_of_right _ hl
      · refine append_ne_empty_of_right _ ?_
        split
        · exact plain_ne_empty _
        · exact scientific_ne_empty _

end Number.Layout

namespace Script.Value

lemma ofString_eq_nil {s : String} (h : Units.ofString s = []) : s = "" := by
  have hs := Units.toString_ofString s
  rw [h] at hs
  exact (Except.ok.inj hs).symm

/-- Of all values, only the empty string has an empty text. -/
lemma toUnits?_eq_nil {v : Value} (h : v.toUnits? = some []) : v = .string [] := by
  have htext : ∀ {s : String}, s ≠ "" → some (Units.ofString s) ≠ some [] := fun hs heq =>
    hs (ofString_eq_nil (Option.some.inj heq))
  cases v with
  | string units => rw [Option.some.inj h]
  | undefined => exact absurd h (htext (by decide))
  | null => exact absurd h (htext (by decide))
  | bool b => exact absurd h (htext (by cases b <;> decide))
  | int n => exact absurd h (htext (toString_int_ne_empty _))
  | bigint n => exact absurd h (htext (toString_int_ne_empty _))
  | number x => exact absurd h (htext (Layout.write_ne_empty (by decide) x))
  | symbol | object => cases h

end Script.Value

namespace Engine

variable {P m : Prop} {e₀ e e' : Engine}

/-- Only an exception that is the empty string has an empty text. -/
lemma thrownText_eq_empty {v : Value} (h : thrownText v = "") : v = .string [] := by
  unfold thrownText at h
  split at h
  · exact absurd h (by decide)
  · next units hunits =>
    split at h
    · next s hs =>
      subst h
      obtain rfl : [] = units := Units.ofString_of_toString hs
      exact Value.toUnits?_eq_nil hunits
    · exact absurd h (by decide)

/-! ### Errors on their way to the host -/

/-- The errors that a frame keeps on their way to the host say something, unless there is a
reason. -/
def Frame.Speaks (m : Prop) : Frame → Prop
  | .elements _ _ _ _ done => ∀ r ∈ done, r.Speaks m
  | .entry c => c.Speaks m
  | _ => True

/-- All errors on their way to the host say something, unless there is a reason. -/
structure Speaks (m : Prop) (e : Engine) : Prop where
  control : e.control.Speaks m
  frames : ∀ f ∈ e.stack, f.Speaks m

/-- The empty string has been thrown, by script or in the place of an object that prints as
nothing, and script does not catch it. -/
structure IsMute (e : Engine) : Prop where
  control : e.control = .throw (.string [])
  stack : AwaitsRecord e.stack

lemma Control.Speaks.mono {m' : Prop} {c : Control} (h : m → m') (hc : c.Speaks m) :
    c.Speaks m' := by
  cases c with
  | encoded r => exact Record.Speaks.mono h hc
  | refuse text => exact h ∘ hc
  | ask req =>
    cases req with
    | get => trivial
    | set | invoke => exact Record.Speaks.mono h hc
  | _ => trivial

lemma Speaks.pop (h : e.Speaks m) {f : Frame} {rest : List Frame} (hs : e.stack = f :: rest) :
    f.Speaks m ∧ ∀ f ∈ rest, f.Speaks m := by
  have hframes := h.frames
  rw [hs] at hframes
  exact List.forall_mem_cons.1 hframes

lemma Frame.speaks_of_isQuiet {f : Frame} (hf : f.isQuiet = true) : f.Speaks m := by
  cases f <;> trivial

/-- Work of script puts nothing on the stack that waits for the host. -/
lemma ScriptWork.frames_speak (h : ScriptWork P e₀ e) (h₀ : ∀ f ∈ e₀.stack, f.Speaks m) :
    ∀ f ∈ e.stack, f.Speaks m := by
  have hgrown : ∀ {e : Engine}, Grown P e₀ e → ∀ f ∈ e.stack, f.Speaks m := by
    intro e hg
    obtain ⟨fs, hstack, hfs⟩ := hg.stack
    rw [hstack]
    exact List.forall_mem_append.2 ⟨fun f hf => Frame.speaks_of_isQuiet (hfs f hf).1, h₀⟩
  cases h with
  | inner h => exact hgrown h
  | asks h | sends h => exact List.forall_mem_cons.2 ⟨trivial, hgrown h⟩

/-- The empty string is told to the host where it has been thrown or refused. -/
lemma AboutToTell.reason {text : String} (h : e.AboutToTell text) (hs : e.Speaks m)
    (hm : e.IsMute → m)
    (ht : text = "") : m := by
  subst ht
  obtain ⟨hstack, hrefuse | ⟨v, hthrow, hv⟩⟩ := h
  · have hcontrol := hs.control
    rw [hrefuse] at hcontrol
    exact hcontrol rfl
  · rw [thrownText_eq_empty hv] at hthrow
    exact hm ⟨hthrow, hstack⟩

lemma ScriptWork.speaks (h : ScriptWork P e e') (hs : e.Speaks m) (hm : e.IsMute → m) :
    e'.Speaks m := by
  refine ⟨?_, h.frames_speak hs.frames⟩
  rcases h.voices with hspeaks | hsame | ⟨text, hsaid, hcontrol⟩
  · exact hspeaks.mono False.elim
  · rw [hsame]
    exact hs.control
  · rw [hcontrol]
    exact Record.speaks_unknownError (hsaid.reason hs hm)

lemma Speaks.nextElement {array : Ref} {depth length index : Nat} {done : List Record}
    (hd : ∀ r ∈ done, r.Speaks m) (h : ∀ f ∈ e.stack, f.Speaks m) :
    (e.nextElement array depth length index done).Speaks m := by
  unfold Engine.nextElement
  split
  · exact ⟨trivial, List.forall_mem_cons.2 ⟨hd, h⟩⟩
  · exact ⟨Record.speaks_array.2 fun r hr => hd r (List.mem_reverse.1 hr), h⟩

lemma speaks_nextItem {array : Ref} {index : Nat} {items : List Record}
    (h : ∀ f ∈ e.stack, f.Speaks m) : (e.nextItem array index items).Speaks m := by
  cases items with
  | nil => exact ⟨trivial, h⟩
  | cons r rest => exact ⟨trivial, List.forall_mem_cons.2 ⟨trivial, h⟩⟩

lemma Control.speaks_of_records {c : Control} {r : Record} (hc : c = .encoded r)
    (h : c.Speaks m) : r.Speaks m := by
  subst hc
  exact h

/-! ### Steps -/

/-- What a step that goes on with an operation hands to the host says something, unless there is a
reason. -/
lemma Advance.speaks {ev : Event} (h : Advance P e e' ev) (hs : e.Speaks m) (hm : e.IsMute → m) :
    e'.Speaks m ∧ ∀ r ∈ ev.records, r.Speaks m := by
  have hsilent : ∀ r ∈ Event.silent.records, r.Speaks m := List.forall_mem_nil _
  cases h with
  | idle hc => exact ⟨hs, hsilent⟩
  | stops hstack hc => exact ⟨⟨trivial, hs.frames⟩, hsilent⟩
  | works hc h => exact ⟨h.speaks hs hm, hsilent⟩
  | pops hstack hf hentry hc h hu =>
    refine ⟨⟨?_, h.frames_speak (hs.pop hstack).2⟩, hsilent⟩
    rcases hu with hspeaks | hsame
    · exact hspeaks.mono False.elim
    · rw [hsame]
      exact hs.control
  | element hstack hc hv => exact ⟨⟨trivial, hs.frames⟩, hsilent⟩
  | startsArray hc hr => exact ⟨.nextElement (List.forall_mem_nil _) hs.frames, hsilent⟩
  | nextElement hstack hc ha =>
    have hr := Control.speaks_of_records hc hs.control
    exact ⟨.nextElement (List.forall_mem_cons.2 ⟨hr, (hs.pop hstack).1⟩) (hs.pop hstack).2, hsilent⟩
  | @names r slot record hc ha ho =>
    refine ⟨⟨?_, hs.frames⟩, hsilent⟩
    rcases hc with ⟨-, rfl⟩ | ⟨-, rfl⟩
    · exact Record.speaks_managed slot
    · exact Record.speaks_managedError slot
  | @pins base r handle handles record hbase hin ha hr hi hrecord ho =>
    have hframes : ∀ f ∈ base.stack, f.Speaks m := by
      rcases hbase with rfl | ⟨f, rest, hstack, -, -, rfl⟩
      · exact hs.frames
      · exact (hs.pop hstack).2
    refine ⟨⟨?_, hframes⟩, hsilent⟩
    rcases hrecord with rfl | rfl
    · exact Record.speaks_foreign handle
    · exact Record.speaks_foreignError handle
  | @sends c result held rest r hstack hc =>
    refine ⟨⟨trivial, List.forall_mem_cons.2 ⟨trivial, (hs.pop hstack).2⟩⟩, ?_⟩
    rw [Event.records, Call.records_request]
    exact List.forall_mem_singleton.2 (Control.speaks_of_records hc hs.control)
  | @asks req hc =>
    have hcontrol := hs.control
    rw [hc] at hcontrol
    refine ⟨⟨trivial, hs.frames⟩, ?_⟩
    cases req with
    | get => exact List.forall_mem_nil _
    | set | invoke => exact List.forall_mem_singleton.2 hcontrol
  | finishes hstack hc =>
    refine ⟨⟨(hs.pop hstack).1, (hs.pop hstack).2⟩, ?_⟩
    exact List.forall_mem_singleton.2 (Control.speaks_of_records hc hs.control)
  | replies hstack hc =>
    exact ⟨⟨trivial, List.forall_mem_cons.2 ⟨trivial, (hs.pop hstack).2⟩⟩, hsilent⟩
  | fails hstack hf hc => exact ⟨⟨hs.control, (hs.pop hstack).2⟩, hsilent⟩
  | takes hc =>
    refine ⟨⟨Control.speaks_of_isInner (control_withValue _), ?_⟩, hsilent⟩
    rw [stack_withValue, stack_convert]
    exact hs.frames
  | startsItems hc => exact ⟨speaks_nextItem (e := (e.allocArray []).2) hs.frames, hsilent⟩
  | startsStandIn hc hr =>
    exact ⟨⟨trivial, List.forall_mem_cons.2 ⟨trivial, hs.frames⟩⟩, hsilent⟩
  | places hstack hc hv =>
    exact ⟨⟨trivial, List.forall_mem_cons.2 ⟨trivial, (hs.pop hstack).2⟩⟩, hsilent⟩
  | nextItem hstack hc => exact ⟨speaks_nextItem (hs.pop hstack).2, hsilent⟩
  | takesClass hstack hc =>
    have hrest := (hs.pop hstack).2
    rcases takeStandInClass_works with heq | ⟨heap, -, -, h⟩
    · rw [heq]
      exact ⟨⟨trivial, hrest⟩, hsilent⟩
    · refine ⟨h.speaks ⟨hs.control, List.forall_mem_cons.2 ⟨trivial, hrest⟩⟩ fun hmute => ?_,
        hsilent⟩
      cases hc.symm.trans hmute.control
  | @enters slot rest v hstack hc => cases v <;> exact ⟨⟨trivial, (hs.pop hstack).2⟩, hsilent⟩
  | begins hc hb =>
    refine ⟨⟨trivial, List.forall_mem_cons.2 ⟨?_, hs.frames⟩⟩, hsilent⟩
    cases hb <;> trivial
  | releases hc hr => exact ⟨⟨Record.speaks_null, hs.frames⟩, hsilent⟩
  | collects hc => exact ⟨⟨Record.speaks_null, hs.frames⟩, hsilent⟩

/-- **An engine hands an error with an empty text to the host only for the empty string that script
has thrown and does not catch.** -/
theorem Speaks.step (hs : e.Speaks m) (hshaped : e.Shaped) (hm : e.IsMute → m) :
    e.step.1.Speaks m ∧ ∀ r ∈ e.step.2.records, r.Speaks m := by
  have hreport : ∀ slot, (e.reportSlot slot).records = [] := by
    intro slot
    unfold reportSlot
    split <;> rfl
  unfold Engine.step
  split
  · exact ⟨⟨hs.control, hs.frames⟩, by rw [hreport]; exact nofun⟩
  · split
    · next r o hfound =>
      refine ⟨⟨hs.control, hs.frames⟩, ?_⟩
      cases o.slot? with
      | none => exact nofun
      | some slot =>
        rw [Option.elim_some, hreport]
        exact nofun
    · exact (proceed_advance_false hshaped).speaks hs hm

lemma speaks_start (maxDepth maxLength : Nat) (maxCalls : Option Nat) :
    (start maxDepth maxLength maxCalls).Speaks m where
  control := trivial
  frames := List.forall_mem_nil _

lemma Speaks.enter (hs : e.Speaks m) (op : Operation) : (e.enter op).Speaks m :=
  ⟨trivial, List.forall_mem_cons.2 ⟨hs.control, hs.frames⟩⟩

lemma Speaks.answer (hs : e.Speaks m) (r : Record) : (e.answer r).Speaks m :=
  ⟨trivial, hs.frames⟩

end Engine

end ScriptBridge
