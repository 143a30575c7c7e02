/-
# What a read tells

The host reads a member of a thrown object by an operation of its own.  The read may run script and
call the host, and so may turning what it gives into a record.  In the end the host hears a text
exactly if the read gave a string that has one.  Whatever else the read gives or throws, and
whatever is given or thrown afterwards, the host hears nothing.
-/
import ScriptBridge.Proofs.Bridge.RoundTrip
import ScriptBridge.Proofs.Engine.Beneath
import ScriptBridge.Proofs.Engine.Copying

namespace ScriptBridge

open ScriptBridge.Bridge ScriptBridge.Number ScriptBridge.Script ScriptBridge.Table
  ScriptBridge.Wire

/-! ### Texts of records -/

namespace Bridge

lemma textOf?_string (s : String) : textOf? (.string s) = some (Record.clip s) := by
  rw [textOf?, Record.view_string]

/-- What has the type code of an error is no text. -/
lemma textOf?_of_isError {r : Record} (h : r.isError = true) : textOf? r = none := by
  unfold textOf?
  split
  · next s hview =>
    rw [Record.isError_of_view hview] at h
    cases h
  · rfl

end Bridge

namespace Engine

variable {P : Prop} {e e₀ e' : Engine} {base s : List Frame} {f : Frame} {v : Value} {q : Ref}
  {key : Key} {o : Outcome} {said : Option String} {depth : Nat}

/-! ### Reading -/

/-- A member of an object is read next, as the reply of an operation. -/
structure Asks (q : Ref) (key : Key) (base : List Frame) (e : Engine) : Prop where
  control : e.control = .read (.object q) key
  stack : e.stack = .settle :: base

/-- The value that is to be the reply of an operation is there, or an exception instead. -/
structure Obtains (o : Outcome) (base : List Frame) (e : Engine) : Prop where
  control : e.control = .ofOutcome o
  stack : e.stack = .settle :: base

/-- What the host hears when such an outcome becomes a reply: the text of a string, as far as a
record can hold it, and nothing otherwise. -/
def saidText? : Outcome → Option String
  | .ok (.string units) => units.toString.toOption.map Record.clip
  | _ => none

/-- Whether a frame waits for a part of what a value is to become, or for the text of what has been
thrown instead. -/
def Frame.isConverting : Frame → Bool
  | .elements .. | .timeMember _ | .time _ | .pending (.dateClass _) | .pending (.dateParent _)
  | .printing _ => true
  | _ => false

/-- A value becomes the reply of an operation, and it is settled what the host hears. -/
inductive Utters (base : List Frame) (said : Option String) (e : Engine) : Prop
  /-- The value is there. -/
  | converts {v : Value} (hc : e.control = .encode v 0) (hs : e.stack = base)
    (hsaid : saidText? (.ok v) = said)
  /-- The reply is there. -/
  | replies {r : Record} (hc : e.control = .encoded r) (hs : e.stack = base)
    (hsaid : textOf? r = said)
  /-- No value has come of it. -/
  | fails (hc : e.control.isFailure = true) (hs : e.stack = base) (hsaid : said = none)
  /-- The value is an array or may be a date, or what has been thrown instead is printed. -/
  | copies {f : Frame} (hf : f.isConverting = true) (hs : f :: base <:+ e.stack)
    (hsaid : said = none)

lemma utters_encodeInstance (r : Ref) (isDate : Bool) (hs : e.stack = base) :
    Utters base none (e.encodeInstance r isDate) := by
  unfold encodeInstance
  split
  · exact .copies (f := .timeMember (.object r)) rfl (hs ▸ List.suffix_refl _) rfl
  · split
    · next handle e' hpin =>
      obtain ⟨x, -, hx⟩ := Option.map_eq_some_iff.1 hpin
      cases hx
      exact .replies rfl hs (by rw [textOf?, Record.view_foreign])
    · exact .replies rfl hs (textOf?_of_isError (Record.isError_unknownError _))

lemma utters_nextElement (array : Ref) (depth length index : Nat) (done : List Record)
    (hs : e.stack = base) : Utters base none (e.nextElement array depth length index done) := by
  unfold nextElement
  split
  · exact .copies (f := .elements array depth length index done) rfl (hs ▸ List.suffix_refl _) rfl
  · exact .replies rfl hs rfl

/-- A value that is turned into a record tells its text, if it is a string that has one. -/
lemma utters_encodeStep (v : Value) (hs : e.stack = base) :
    Utters base (saidText? (.ok v)) (e.encodeStep v 0) := by
  have herror : ∀ text, Utters base none (e.goto (.encoded (.unknownError (some text)))) :=
    fun text => .replies rfl hs (textOf?_of_isError (Record.isError_unknownError _))
  cases v with
  | string units =>
    unfold encodeStep saidText?
    dsimp only
    cases units.toString with
    | ok text => exact .replies rfl hs (textOf?_string text)
    | error offset => exact .fails rfl hs rfl
  | object r =>
    unfold encodeStep encodeObject
    dsimp only
    split
    · exact .replies rfl hs (by rw [textOf?, Record.view_managed]; rfl)
    · split
      · exact herror _
      · split
        · exact herror _
        · split
          · next length _ _ _ _ hlong =>
            rw [Record.nulls, if_neg (Nat.not_le.2 hlong)]
            exact herror _
          · exact utters_nextElement _ _ _ _ _ hs
    · split
      · exact utters_encodeInstance _ _ hs
      · exact .copies (f := .pending (.dateClass r)) rfl (hs ▸ List.suffix_refl _) rfl
  | symbol | bigint => exact herror _
  | _ => exact .replies rfl hs rfl

/-- Whatever a part of a value turns out to be, there is no text. -/
lemma utters_retStep (hf : f.isConverting = true) (hs : e.stack = base) (v : Value) :
    Utters base none (e.retStep f v) := by
  have hthrow : ∀ text, Utters base none (e.throwType text) := fun text => .fails rfl hs rfl
  cases f with
  | elements array depth length index done =>
    exact .copies (f := .elements array depth length index done) rfl (hs ▸ List.suffix_refl _) rfl
  | timeMember date =>
    simp only [retStep]
    split
    · exact .copies (f := .time date) rfl (hs ▸ List.suffix_refl _) rfl
    · exact hthrow _
  | time date =>
    simp only [retStep, takeTime]
    split
    · exact .replies rfl hs (by rw [textOf?, Record.view_date])
    · exact .fails rfl hs rfl
  | pending work =>
    cases work with
    | dateClass r =>
      unfold retStep pendingStep takeDateClass
      dsimp only
      split
      · exact .copies (f := .pending (.dateParent r)) rfl (hs ▸ List.suffix_refl _) rfl
      · exact hthrow _
    | dateParent r =>
      cases v with
      | object parent => exact utters_encodeInstance _ _ hs
      | _ => exact hthrow _
    | _ => cases hf
  | printing thrown => exact .fails rfl hs rfl
  | _ => cases hf

/-- An exception ends the conversion of a value, or the printing of what was thrown before. -/
lemma utters_throwStep (hf : f.isConverting = true) (hc : e.control = .throw v)
    (hs : e.stack = base) :
    Utters base none (e.throwStep f v) := by
  have hfails : Utters base none e := .fails (congrArg Control.isFailure hc) hs rfl
  cases f with
  | pending => exact hfails
  | printing thrown => exact .fails rfl hs rfl
  | guard | «items» | placed | sending | entry => cases hf
  | _ => exact hfails

/-- An exception becomes a record without a text, or is printed first. -/
lemma utters_settleError (v : Value) (hs : e.stack = base) :
    Utters base none (e.settleError v) := by
  rcases exists_settles e v with ⟨r, handles, hsettles⟩ | ⟨q, rfl, hentry, hfull⟩
  · rw [hsettles.settleError_eq]
    exact .replies rfl hs (textOf?_of_isError hsettles.isExcuse.1)
  · rw [settleError_of_full hentry hfull]
    have hgrown : Grown False (e.push (.printing (.object q))) (e.push (.printing (.object q))) :=
      .refl (guarded_false _)
    exact .copies (f := .printing (.object q)) rfl
      (hs ▸ (hgrown.giveText (shown_false _ _) none).suffix) rfl

/-- Of the frames that wait for a part of a value, only the one of an array waits for a record. -/
lemma exists_elements_of_awaits (hf : f.isConverting = true) (hr : AwaitsRecord (f :: base)) :
    ∃ array depth length index done, f = .elements array depth length index done := by
  cases f with
  | elements => exact ⟨_, _, _, _, _, rfl⟩
  | sending | entry => cases hf
  | _ => cases hr

/-- **While a value becomes a reply, what the host hears of it stays settled.** -/
theorem Utters.step (h : Utters base said e) (hs : e.Shaped) {c : Control} {st : List Frame}
    (hbase : base = .entry c :: st) (hends : ∀ r, e.step.2 = .finished r → e.stack ≠ base) :
    Utters base said e.step.1 := by
  rcases step_stays_or_proceeds e with ⟨hstays, -, -⟩ | hp
  · cases h with
    | converts hc hst hsaid =>
      exact .converts (hstays.control.trans hc) (hstays.stack.trans hst) hsaid
    | replies hc hst hsaid =>
      exact .replies (hstays.control.trans hc) (hstays.stack.trans hst) hsaid
    | fails hc hst hsaid => exact .fails (hstays.control ▸ hc) (hstays.stack.trans hst) hsaid
    | copies hf hst hsaid => exact .copies hf (hstays.stack ▸ hst) hsaid
  · cases h with
    | converts hc hst hsaid =>
      rw [hp, proceed_encode hc, ← hsaid]
      exact utters_encodeStep _ hst
    | @replies r hc hst hsaid =>
      refine absurd hst (hends r ?_)
      rw [hp, proceed_encoded hc (hst.trans hbase)]
      rfl
    | fails hc hst hsaid =>
      subst hsaid
      rw [hp]
      have hst' := hst.trans hbase
      rcases Control.eq_of_isFailure hc with ⟨w, hw⟩ | ⟨text, htext⟩
      · rw [proceed_throw hw hst']
        exact utters_settleError
          (e := ({ e with stack := st } : Engine).push (.entry c)) w hbase.symm
      · rw [proceed_refuse htext hst']
        exact .replies rfl hbase.symm (textOf?_of_isError (Record.isError_unknownError _))
    | @copies f hf hst hsaid =>
      subst hsaid
      -- What goes on above the frame leaves it there; the frame itself is left with its outcome.
      by_cases heq : e.stack = f :: base
      · by_cases hfor : e.control.isForFrame = false
        · rw [hp]
          exact .copies hf (heq ▸ suffix_proceed hfor) rfl
        · have hfits := hs.fits
          rw [hp]
          cases hc : e.control with
          | ret v =>
            rw [proceed_ret hc heq]
            exact utters_retStep (e := { e with stack := base }) hf rfl v
          | throw v =>
            rw [proceed_throw hc heq]
            exact utters_throwStep (e := { e with stack := base }) hf hc rfl
          | encoded r =>
            rw [hc, heq] at hfits
            obtain ⟨array, depth, length, index, done, rfl⟩ := exists_elements_of_awaits hf hfits
            rw [proceed_encoded hc heq]
            exact utters_nextElement _ _ _ _ _ rfl
          | refuse text =>
            rw [hc, heq] at hfits
            obtain ⟨array, depth, length, index, done, rfl⟩ := exists_elements_of_awaits hf hfits
            rw [proceed_refuse hc heq]
            exact .fails (congrArg Control.isFailure hc) rfl rfl
          | reply r =>
            rw [hc, heq] at hfits
            obtain ⟨result, held, rest, hcons⟩ := hfits
            obtain rfl := (List.cons.inj hcons).1
            cases hf
          | _ =>
            rw [hc] at hfor
            exact absurd rfl hfor
      · exact .copies hf (hs.suffix_step hst heq) rfl

/-- What lies beneath a frame that is no entry has fewer entries than what an entry is on top of. -/
lemma countP_lt_of_suffix {c : Control} {st : List Frame} (h : f :: base <:+ .entry c :: st)
    (hf : f.isEntry = false) :
    base.countP Frame.isEntry < (Frame.entry c :: st).countP Frame.isEntry := by
  obtain ⟨l, hl⟩ := h
  cases l with
  | nil =>
    obtain rfl := (List.cons.inj hl).1
    cases hf
  | cons g l =>
    have hentry : Frame.isEntry g = true := (List.cons.inj hl).1 ▸ rfl
    rw [← hl, List.cons_append, List.countP_cons_of_pos hentry, List.countP_append,
      List.countP_cons]
    omega

lemma Frame.isEntry_of_isConverting (hf : f.isConverting = true) : f.isEntry = false := by
  cases f <;> first | rfl | cases hf

/-- When the reply is given, it is what the host hears. -/
lemma Utters.textOf? {c : Control} {st : List Frame} {r : Record} (h : Utters base said e)
    (hc : e.control = .encoded r) (hs : e.stack = .entry c :: st)
    (hn : e.stack.countP Frame.isEntry ≤ base.countP Frame.isEntry) : textOf? r = said := by
  cases h with
  | converts hc' =>
    rw [hc] at hc'
    cases hc'
  | replies hc' hst hsaid =>
    obtain rfl := Control.encoded.inj (hc.symm.trans hc')
    exact hsaid
  | fails hc' =>
    rw [hc] at hc'
    cases hc'
  | copies hf hst =>
    rw [hs] at hst hn
    exact absurd (countP_lt_of_suffix hst (Frame.isEntry_of_isConverting hf)) (Nat.not_lt.2 hn)

/-- What the host hears stays settled when an engine is entered or answered that waits for the
host. -/
lemma Utters.turn (h : Utters base said e) (hc : e.control = .idle) (hs : e.stack <:+ e'.stack) :
    Utters base said e' := by
  cases h with
  | copies hf hst hsaid => exact .copies hf (hst.trans hs) hsaid
  | fails hc' =>
    rw [hc] at hc'
    cases hc'
  | converts hc' | replies hc' =>
    rw [hc] at hc'
    cases hc'

/-! ### The outcome of a read -/

/-- **A read goes on until its outcome is there**, and from then on it is settled what the host
hears of it. -/
theorem Shaped.read_step (hs : e.Shaped) (h : .settle :: base <:+ e.stack) :
    .settle :: base <:+ e.step.1.stack ∨
      ∃ o, Obtains o base e ∧ Utters base (saidText? o) e.step.1 := by
  rcases hs.outcome_step (f := .settle) rfl h with hsuffix | ⟨o, hstack, hc, hstep⟩
  · exact .inl hsuffix
  · refine .inr ⟨o, ⟨hc, hstack⟩, ?_⟩
    rw [hstep]
    cases o with
    | ok v => exact .converts rfl rfl rfl
    | error v => exact .fails (congrArg Control.isFailure hc) rfl rfl

/-- An operation that reads a member begins with that. -/
lemma begin_step {h : Handle} {name : String} (hc : e.control = .begin (.getMember h name))
    (hs : e.stack = base) (hh : e.handles.get? h = some q) :
    e.Stays e.step.1 ∨ Asks q (.ofName name) base e.step.1 := by
  refine (step_stays_or_proceeds e).imp And.left fun hp => ?_
  have hproceed : e.proceed =
      ((e.push .settle).goto (.read (.object q) (.ofName name)), .silent) := by
    simp only [proceed, hc, beginStep, restore, hh]
    rfl
  rw [hp, hproceed]
  exact ⟨rfl, congrArg (Frame.settle :: ·) hs⟩

end Engine

end ScriptBridge
