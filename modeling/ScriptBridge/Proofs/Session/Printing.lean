/-
# Thrown objects that are printed

An object that nothing catches leaves its engine as a handle.  When no handle is left for it, it is
printed: its conversion to a string runs, like any other, and so may run script and call the host.
What the host hears in the end is the string that this gives, and a fixed text if it gives none.
-/
import ScriptBridge.Proofs.Session.Throws

namespace ScriptBridge

open ScriptBridge.Bridge ScriptBridge.Host ScriptBridge.Script ScriptBridge.Table ScriptBridge.Wire

/-! ### Texts -/

namespace Script.Value

/-- The text of a value that is no object: its conversion to a string, if there is one that has a
text. -/
def printed? (v : Value) : Option String :=
  v.toText.toOption.bind fun units => units.toString.toOption

lemma printed?_text (s : String) : (Value.text s).printed? = some s := by
  have hs := Text.Units.toString_ofString s
  rw [Value.text, printed?, Value.toText, Value.toUnits?]
  dsimp only [Except.toOption, Option.bind_some]
  rw [hs]

end Script.Value

namespace Engine

variable {e e' : Engine} {v : Value} {q : Ref} {base : List Frame} {o : Outcome}

lemma thrownText_eq (v : Value) : thrownText v = v.printed?.getD unprintable := by
  unfold thrownText Value.printed? Value.toText
  cases v.toUnits? with
  | none => rfl
  | some units =>
    dsimp only [Except.toOption, Option.bind_some]
    cases units.toString <;> rfl

/-! ### Exceptions that nothing catches -/

/-- An exception is on its way out of an operation: no handler of script is there for it, nor is
it thrown while something is copied that script calls the host with, or while what has been thrown
before is printed. -/
structure Uncaught (v : Value) (e : Engine) : Prop where
  control : e.control = .throw v
  stack : ∃ fs c base, e.stack = fs ++ .entry c :: base ∧ ∀ f ∈ fs, f.passes = true

/-! ### Printing -/

/-- The string of an object is asked for, as it has been thrown and there is no handle for it. -/
structure AsksText (q : Ref) (base : List Frame) (e : Engine) : Prop where
  control : e.control = .read (.object q) (.name "toString")
  stack : e.stack = .pending (.conversion (.object q) true false) :: .pending (.text none) ::
    .printing (.object q) :: base

/-- The string of a thrown object is there, or an exception instead. -/
structure GivesText (q : Ref) (o : Outcome) (base : List Frame) (e : Engine) : Prop where
  control : e.control = .ofOutcome o
  stack : e.stack = .printing (.object q) :: base
  plain : ∀ r, o ≠ .ok (.object r)

/-- The text of a thrown object: that of its string, if there is one that has a text. -/
def printedText? : Outcome → Option String
  | .ok v => v.printed?
  | .error _ => none

/-- What is thrown in the place of an object that has been printed. -/
def spoken : Outcome → Value
  | .ok v => v
  | .error _ => .text unprintable

lemma thrownText_spoken (o : Outcome) :
    thrownText (spoken o) = (printedText? o).getD unprintable := by
  rw [thrownText_eq]
  cases o with
  | ok v => rfl
  | error v =>
    rw [spoken, Value.printed?_text]
    rfl

/-- A thrown object is being printed. -/
inductive Prints (q : Ref) (base : List Frame) (e : Engine) : Prop
  /-- It is converted to a string. -/
  | converts (hs : .pending (.text none) :: .printing (.object q) :: base <:+ e.stack)
  /-- The conversion has come to its end. -/
  | gives {o : Outcome} (h : GivesText q o base e)

lemma AsksText.prints (h : AsksText q base e) : Prints q base e :=
  .converts (h.stack ▸ List.suffix_cons ..)

lemma Prints.suffix (h : Prints q base e) : .printing (.object q) :: base <:+ e.stack := by
  cases h with
  | converts hs => exact (List.suffix_cons ..).trans hs
  | gives h => exact h.stack ▸ List.suffix_refl _

/-- Printing begins with the conversion of the object. -/
lemma asksText_giveText (hs : e.stack = base) :
    AsksText q base ((e.push (.printing (.object q))).giveText (.object q) none) where
  control := rfl
  stack := hs ▸ rfl

/-- What the conversion gives is taken for a string, or converted further. -/
lemma prints_giveText (v : Value) (hs : e.stack = .printing (.object q) :: base) :
    Prints q base (e.giveText v none) := by
  cases v with
  | object r => exact .converts (hs ▸ List.suffix_cons ..)
  | _ =>
    unfold giveText giveOr
    dsimp only
    split
    · exact .gives (o := .ok (.string _)) ⟨rfl, hs, nofun⟩
    · exact .gives (o := .error _) ⟨rfl, hs, nofun⟩

/-- **A thrown object is printed on**, until a text is thrown in its place. -/
theorem Prints.step (hp : Prints q base e) (hs : e.Shaped) : Prints q base e.step.1 ∨
    ∃ o, GivesText q o base e ∧ e.step.1.control = .throw (spoken o) ∧ e.step.1.stack = base := by
  cases hp with
  | converts h =>
    refine .inl ?_
    rcases hs.outcome_step (f := .pending (.text none)) rfl h with hs | ⟨o, -, hc, hstep⟩
    · exact .converts hs
    · rw [hstep]
      cases o with
      | ok v => exact prints_giveText v rfl
      | error v => exact .gives (o := .error v) ⟨hc, rfl, nofun⟩
  | @gives o h =>
    rcases step_stays_or_proceeds e with ⟨hstays, -, -⟩ | hstep
    · exact .inl (.gives
        ⟨hstays.control.trans h.control, hstays.stack.trans h.stack, h.plain⟩)
    · refine .inr ⟨o, h, ?_⟩
      rw [hstep]
      cases o with
      | ok v =>
        rw [proceed_ret h.control h.stack]
        exact ⟨rfl, rfl⟩
      | error v =>
        rw [proceed_throw h.control h.stack]
        exact ⟨rfl, rfl⟩

/-- **An object that nothing catches is printed**, if there is no handle for it. -/
theorem Uncaught.exists_asked (h : e.Uncaught (.object q)) (hs : e.heap.Sound)
    (hentry : (e.heap.get? q).bind (·.entry) = none) (hfull : e.handles.insert q = none) :
    ∃ e' c base, Runs e e' ∧ AsksText q (.entry c :: base) e' ∧
      below e.stack = some (c, base) := by
  obtain ⟨fs, c, base, hstack, hfs⟩ := h.stack
  obtain ⟨h₁, slots, hruns₁, hsound, hkept⟩ :=
    exists_passed_of_throw h.control hs hstack hfs
  let e₁ : Engine := { e with heap := h₁, stack := .entry c :: base, released := slots }
  obtain ⟨h₂, hspares, hruns₂⟩ := exists_runs e₁ hsound
  let e₂ : Engine := { e with heap := h₂, stack := .entry c :: base, released := [] }
  have hq : h₂.get? q = e.heap.get? q :=
    (hspares.get? q (reached_of_control (by
      change q ∈ e.control.refs
      rw [h.control]
      exact List.mem_singleton_self q))).trans (hkept q (List.mem_singleton_self q))
  have hprints := settleError_of_full (e := e₂)
    (by rw [show e₂.heap = h₂ from rfl, hq, hentry]) hfull
  refine ⟨_, c, base, hruns₁.runs.trans (hruns₂ ((e₂.push (.printing (.object q))).giveText
    (.object q) none) ?_).runs, asksText_giveText rfl, ?_⟩
  · rw [proceed_throw (e := { e₁ with heap := h₂, released := [] }) h.control rfl, ← hprints]
    rfl
  · rw [hstack, below_append fun f hf => ?_]
    · rfl
    · have hpasses := hfs f hf
      cases f with
      | entry => cases hpasses
      | _ => rfl

end Engine

namespace Session

variable {s t u : Session} {b : Nat} {e : Engine} {x : Side} {q : Ref} {p : Purpose}
  {below fs : List Frame} {base : List Engine.Frame}
  {types : List HostType} {setups : List Setup} {hist older : List Session}

/-! ### What is heard of an object that is printed -/

/-- What the host hears of an object that is printed between two states of a program. -/
inductive HearsPrinted (b : Nat) (q : Ref) (base : List Engine.Frame) (below : List Frame)
    (s t : Session) : Option String → Prop
  /-- The object is converted to a string, and the outcome of that settles it. -/
  | prints {o : Engine.Outcome} {u v : Session} (hbegins : Proceeds s u)
    (hasks : During b .value below (Engine.AsksText q base) u)
    (hprints :
      ProceedsWhile (During b .value below (.printing (.object q) :: base <:+ ·.stack)) u v)
    (hgives : During b .value below (Engine.GivesText q o base) v) (hends : Proceeds v t) :
    HearsPrinted b q base below s t (Engine.printedText? o)

lemma HearsPrinted.later {said : Option String} (hv : HearsPrinted b q base below s t said)
    (hp : Proceeds t u) : HearsPrinted b q base below s u said := by
  cases hv with
  | prints hbegins hasks hprints hgives hends =>
    exact .prints hbegins hasks hprints hgives (hends.trans hp)

/-- An object is being printed that has been thrown out of an operation. -/
structure Printing (b : Nat) (q : Ref) (base : List Engine.Frame) (below : List Frame)
    (s u : Session) : Prop where
  asks : ∃ v, Proceeds s v ∧ During b .value below (Engine.AsksText q base) v ∧
    ProceedsWhile (During b .value below (.printing (.object q) :: base <:+ ·.stack)) v u
  prints : During b .value below (Engine.Prints q base) u
  depth : base.countP Engine.Frame.isEntry = awaited b below + 1

/-- An object has been printed, and its text is thrown in its place. -/
structure Spoken (b : Nat) (q : Ref) (base : List Engine.Frame) (below : List Frame) (s u : Session)
    (o : Engine.Outcome) : Prop where
  hears : HearsPrinted b q base below s u (Engine.printedText? o)
  plain : ∀ r, o ≠ .ok (.object r)
  frames : u.frames = .running b .value :: below
  control : u.control = .engine b
  engine : ∃ e, u.engine? b = some e ∧ e.control = .throw (Engine.spoken o) ∧ e.stack = base

/-- The engine of the operation that is waited for is at work, if it is not waiting itself and has
no more entries than are waited for there. -/
lemma frames_of_depth (hx : s.side? b = some x) (ha : x.Accounted)
    (hf : s.frames = fs ++ .running b p :: below) (hs : .scope b ∈ below)
    (hc : x.engine.control ≠ .idle)
    (hdepth : x.engine.stack.countP Engine.Frame.isEntry = awaited b below + 1) :
    s.control = .engine b ∧ s.frames = .running b p :: below := by
  have htrail : x.trail = (s.control.mark b :: fs.map (Frame.mark b)) ++
      .running p :: below.map (Frame.mark b) := by
    rw [← (side?_eq_some.1 hx).2, trail, hf, List.map_append, List.map_cons,
      show (Frame.running b p).mark b = .running p from if_pos rfl]
    rfl
  have hscope : .scope ∈ below.map (Frame.mark b) := List.mem_map.2 ⟨_, hs, if_pos rfl⟩
  have hcontrol : s.control = .engine b := by
    by_contra hne
    have hhead : x.trail.head? ≠ some .engine := fun h => hne ((control_of_head? hx).1 h)
    exact hc ((htrail ▸ ha.nested.atRest_of_ne hhead).eq_idle hscope)
  refine ⟨hcontrol, ?_⟩
  -- Another operation on top would have an entry of its own.
  have hcount := countP_of_side? hx ha
  obtain ⟨p', rest, hframes⟩ := exists_running_of_side? hx ha hcontrol
  cases fs with
  | nil => exact hf
  | cons f fs =>
    obtain rfl : f = .running b p' := (List.cons.inj (hf.symm.trans hframes)).1
    rw [hf, List.cons_append, awaited_running, awaited_append, awaited_running] at hcount
    omega

/-- **An object that is printed is printed on, until a text is thrown in its place.** -/
theorem Printing.step (hp : Printing b q base below s u) (hstep : u.step? = some t)
    (hist : History types setups (u :: older)) (hscope : .scope b ∈ below) :
    Printing b q base below s t ∨ ∃ o, Spoken b q base below s t o := by
  obtain ⟨⟨v, hbegins, hasks, hruns⟩, ⟨l, e, hf, he, hprints⟩, hdepth⟩ := hp
  obtain ⟨x, hx, rfl⟩ := side?_isSome_of_engine? he
  have ho := hist.orderly
  have hsuffix := hprints.suffix
  have hruns' := hruns.tail ⟨⟨l, _, hf, he, hsuffix⟩, hstep⟩
  -- Something happens outside of the engine, or it takes a step, or it is entered or answered.
  rcases (Goes.steps hstep).waited ho hf hscope he with
    ⟨l', e', hf', he', hmoves⟩ | ⟨r, -, ⟨c', st', hs⟩, hends, -⟩
  · have hgoes : Engine.Prints q base e' → Printing b q base below s t := fun hprints =>
      ⟨⟨v, hbegins, hasks, hruns'⟩, ⟨l', e', hf', he', hprints⟩, hdepth⟩
    rcases hmoves with rfl | ⟨rfl, -⟩ | ⟨hidle, hturn⟩
    · exact .inl (hgoes hprints)
    · rcases hprints.step (ho b x hx).shaped with hprints' | ⟨o, hgives, hc, hs⟩
      · exact .inl (hgoes hprints')
      · obtain ⟨y, hy, hengine⟩ := side?_isSome_of_engine? he'
        have ha := (hist.goes (.steps hstep)).accounted (List.mem_cons_self ..) hy
        obtain ⟨hcontrol, hframes⟩ := frames_of_depth hy ha hf' hscope
          (by rw [hengine, hc]; nofun) (by rw [hengine, hs, hdepth])
        exact .inr ⟨o, .prints hbegins hasks hruns ⟨l, _, hf, he, hgives⟩ (.single hstep),
          hgives.plain, hframes, hcontrol, _, he', hc, hs⟩
    · refine .inl (hgoes ?_)
      cases hprints with
      | converts hs =>
        refine .converts (hs.trans ?_)
        rcases hturn with ⟨w, rfl⟩ | ⟨r, rfl⟩
        · exact List.suffix_cons ..
        · exact List.suffix_refl _
      | @gives o hgives =>
        have hcontrol := hgives.control.symm.trans hidle
        cases o <;> cases hcontrol
  · rw [hs] at hsuffix hends
    have hlt := Engine.countP_lt_of_suffix hsuffix rfl
    omega

/-- An object that is printed comes to have been printed, if the program does not run on forever. -/
lemma Printing.exists_spoken (hp : Printing b q base (.scope b :: below) s u)
    (hist : History types setups (u :: older)) (hlooks : u.looks ≤ below.countP Frame.isPausing)
    (hends : Acc (fun t u : Session => u.step? = some t) u) :
    ∃ t o, ProceedsWhile (fun v => below.length < v.frames.length) u t ∧
      Spoken b q base (.scope b :: below) s t o := by
  induction hends generalizing older with
  | intro u _ ih =>
    obtain ⟨l, e, hf, -⟩ := hp.prints
    have habove : below.length < u.frames.length :=
      length_lt_of_suffix (hf ▸ (List.suffix_cons ..).trans (List.suffix_append ..))
    obtain ⟨t, hstep⟩ : ∃ t, u.step? = some t :=
      exists_step hlooks (l := l ++ [.running b .value, .scope b]) (by simp) (by rw [hf]; simp)
    rcases hp.step hstep hist (List.mem_cons_self ..) with hp' | ⟨o, hspoken⟩
    · obtain ⟨t', o, hruns, hspoken⟩ :=
        ih t hstep hp' (hist.goes (.steps hstep)) ((looks_step? hstep).symm ▸ hlooks)
      exact ⟨t', o, .head ⟨habove, hstep⟩ hruns, hspoken⟩
    · exact ⟨t, o, .single ⟨habove, hstep⟩, hspoken⟩

/-- **An object that nothing catches gives its place to a text**, if there is no handle for it. -/
theorem exists_spoken (hist : History types setups (s :: older)) (hx : s.side? b = some x)
    (hc : s.control = .engine b) (hf : s.frames = .running b .value :: .scope b :: below)
    (huncaught : x.engine.Uncaught (.object q))
    (hentry : (x.engine.heap.get? q).bind (·.entry) = none)
    (hfull : x.engine.handles.insert q = none)
    (hlooks : s.looks ≤ below.countP Frame.isPausing)
    (hends : Acc (fun t u : Session => u.step? = some t) s) :
    ∃ t o c st, ProceedsWhile (fun v => below.length < v.frames.length) s t ∧
      Engine.below x.engine.stack = some (c, st) ∧
      Spoken b q (.entry c :: st) (.scope b :: below) s t o := by
  have ha := hist.accounted (List.mem_cons_self ..) hx
  -- All frames that let exceptions pass are left, and the conversion begins on what is beneath.
  obtain ⟨e, c, st, hruns, hasks, hbelow⟩ := huncaught.exists_asked ha.sound hentry hfull
  obtain ⟨u, queue, hruns, hdrives, hcore⟩ :=
    drives_runs hruns.always hc (inCall_of_running hx ha hc hf nofun) (side?_eq_some.1 hx).1
  have hf' : u.frames = [] ++ .running b .value :: .scope b :: below := hdrives.frames.trans hf
  have hduring : ∀ {P : Engine → Prop}, P e → During b .value (.scope b :: below) P u :=
    fun hP => ⟨[], e, hf', engine?_of_core? hcore, hP⟩
  obtain ⟨older', hist'⟩ := history_proceeds hist hruns.proceeds
  have hdepth : (Engine.Frame.entry c :: st).countP Engine.Frame.isEntry =
      awaited b (.scope b :: below) + 1 := by
    have hcount := countP_of_side? hx ha
    rw [Engine.countP_of_below hbelow, hf, awaited_running] at hcount
    exact (List.countP_cons_of_pos rfl).trans hcount
  have hprinting : Printing b q (.entry c :: st) (.scope b :: below) s u :=
    ⟨⟨u, hruns.proceeds, hduring hasks, .refl⟩, hduring hasks.prints, hdepth⟩
  obtain ⟨t, o, hruns', hspoken⟩ := hprinting.exists_spoken hist'
    ((looks_proceeds hruns.proceeds).symm ▸ hlooks) (acc_proceeds hends hruns.proceeds)
  refine ⟨t, o, c, st, (hruns.mono fun v hv => ?_).trans hruns', hbelow, hspoken⟩
  rw [hv.2, hf]
  exact Nat.lt_of_lt_of_le (Nat.lt_succ_self _) (by simp)

end Session

end ScriptBridge
