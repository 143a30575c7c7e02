/-
# Thrown objects are asked about themselves

An exception that nothing catches leaves its engine as a handle, if it is an object of script.  The
host then reads the members of the object, one after the other, and gives the handle up.  Each
read is an operation of its own, in which scripts and host code run.  What is heard of a member is
settled by the outcome of its read, whatever else happens; and when all has been heard, the error is
there.
-/
import ScriptBridge.Proofs.Engine.Telling
import ScriptBridge.Proofs.Session.Causes
import ScriptBridge.Proofs.Session.Decoding

namespace ScriptBridge

open ScriptBridge.Bridge ScriptBridge.Host ScriptBridge.Script ScriptBridge.Table ScriptBridge.Wire

/-- Beneath an entry of an engine there is one entry less. -/
lemma Engine.countP_of_below {c : Engine.Control} {st st' : List Engine.Frame}
    (h : Engine.below st' = some (c, st)) :
    st'.countP Engine.Frame.isEntry = st.countP Engine.Frame.isEntry + 1 := by
  induction st' with
  | nil => cases h
  | cons f rest ih =>
    cases hf : f.isEntry with
    | true =>
      obtain ⟨c', rfl⟩ := Engine.Frame.exists_of_isEntry hf
      cases h
      exact List.countP_cons_of_pos hf
    | false =>
      rw [Engine.below_cons hf] at h
      rw [List.countP_cons_of_neg (by rw [hf]; exact Bool.false_ne_true), ih h]

namespace Session

variable {k k' : List ForeignObject} {s s' t u : Session} {b : Nat} {x y : Side} {T l : List Mark}
  {c : Engine.Control} {st : List Engine.Frame} {e e' : Engine} {p : Purpose} {q : Ref} {h : Handle}
  {name : String} {below : List Frame} {types : List HostType} {setups : List Setup}
  {older : List Session}

/-! ### Entries and what waits for them -/

/-- Whether the reply of an engine is waited for. -/
def Mark.isRunning : Mark → Bool
  | .running _ => true
  | _ => false

/-- Each entry of an engine is waited for. -/
lemma AtRest.countP (h : AtRest T c st) :
    st.countP Engine.Frame.isEntry = T.countP Mark.isRunning := by
  induction h with
  | nil => rfl
  | @awaits T c st st' m p hm hs hb h ih =>
    have hnot : ¬ m.isRunning = true := by cases m <;> first | exact Bool.false_ne_true | cases hm
    rw [Engine.countP_of_below hb, ih, List.countP_cons_of_neg hnot, List.countP_cons_of_pos rfl]
  | gives hs hc h ih =>
    rw [List.countP_cons_of_pos rfl, ih, List.countP_cons_of_neg Bool.false_ne_true,
      List.countP_cons_of_pos rfl]
  | _ =>
    rename_i ih
    rw [ih, List.countP_cons_of_neg Bool.false_ne_true]

lemma Nested.countP (h : Nested e T) :
    e.stack.countP Engine.Frame.isEntry = T.countP Mark.isRunning := by
  cases h with
  | rests h => exact h.countP
  | works hb h hr =>
    rw [Engine.countP_of_below hb, h.countP, List.countP_cons_of_neg Bool.false_ne_true,
      List.countP_cons_of_pos rfl]

/-- An engine that is not at work although an operation waits for it waits for the host. -/
lemma AtRest.eq_idle (h : AtRest (l ++ .running p :: T) c st) (hs : .scope ∈ T) : c = .idle := by
  generalize heq : l ++ .running p :: T = T' at h
  induction h generalizing l with
  | nil => cases l <;> cases heq
  | awaits => rfl
  | gives hs' hc h =>
    refine absurd ?_ hs'
    rcases l with _ | ⟨m, _ | ⟨m', l⟩⟩
    · cases heq
    · obtain ⟨-, heq⟩ := List.cons.inj heq
      rw [← (List.cons.inj heq).2]
      exact hs
    · obtain ⟨-, heq⟩ := List.cons.inj heq
      rw [← (List.cons.inj heq).2]
      exact List.mem_append_right _ (List.mem_cons_of_mem _ hs)
  | _ =>
    rename_i ih
    cases l with
    | nil => cases heq
    | cons m l => exact ih (List.cons.inj heq).2

/-- An engine that is about to go on goes on. -/
lemma Moves.engine_of_head (h : Moves k k' x y) (hx : x.Accounted)
    (hhead : x.trail.head? = some .engine) : y.engine = x.engine ∨ y.engine = x.engine.step.1 := by
  cases h with
  | opens | gives | reads | answers => cases hhead
  | releases f hm => exact absurd (Option.some.inj hhead) hm
  | strays h => exact absurd h hx.nested.not_astray
  | works | defers | unpins | misses | refuses | calls | takes | pins | finishes => exact .inr rfl
  | _ => exact .inl rfl

/-- While an operation waits for an engine, the engine works, or it is entered or answered where it
waits for the host. -/
lemma Moves.engine_of_running (h : Moves k k' x y) (hx : x.Accounted)
    (hT : x.trail = l ++ .running p :: T) (hs : .scope ∈ T) :
    y.engine = x.engine ∨ x.trail.head? = some .engine ∧ y.engine = x.engine.step.1 ∨
      x.engine.control = .idle ∧
        ((∃ w, y.engine = x.engine.enter w) ∨ ∃ r, y.engine = x.engine.answer r) := by
  by_cases hhead : x.trail.head? = some .engine
  · exact (h.engine_of_head hx hhead).imp_right fun heq => .inl ⟨hhead, heq⟩
  · refine (h.engine hx).imp_right (Or.imp_right fun ⟨_, _, hmore⟩ => ?_)
    exact ⟨(hT ▸ hx.nested.atRest_of_ne hhead).eq_idle hs, hmore.imp_right fun ⟨_, _, hr⟩ => hr⟩

/-! ### What waits for a reply -/

variable {f : Frame} {fs : List Frame}

lemma Control.isRunning_mark (ctl : Control) (b : Nat) : (ctl.mark b).isRunning = false := by
  unfold Control.mark
  split <;> first | rfl | (split <;> rfl)

/-- How many operations of the engine of a bridge are waited for. -/
def awaited (b : Nat) (fs : List Frame) : Nat := (fs.map (Frame.mark b)).countP Mark.isRunning

lemma awaited_append (b : Nat) (fs fs' : List Frame) :
    awaited b (fs ++ fs') = awaited b fs + awaited b fs' := by
  rw [awaited, List.map_append, List.countP_append]
  rfl

lemma awaited_running (b : Nat) (p : Purpose) (fs : List Frame) :
    awaited b (.running b p :: fs) = awaited b fs + 1 := by
  rw [awaited, List.map_cons, show (Frame.running b p).mark b = .running p from if_pos rfl,
    List.countP_cons_of_pos rfl]
  rfl

lemma countP_of_side? (hx : s.side? b = some x) (ha : x.Accounted) :
    x.engine.stack.countP Engine.Frame.isEntry = awaited b s.frames := by
  rw [ha.nested.countP, ← (side?_eq_some.1 hx).2, trail, List.countP_cons_of_neg]
  · rfl
  · rw [Control.isRunning_mark]
    exact Bool.false_ne_true

/-- A reply is taken by what is on top. -/
lemma engineStep_of_finished {r : Record} (he : s.engine? b = some e) (hev : e.step.2 = .finished r)
    (hf : s.frames = .running b p :: below) :
    s.engineStep b = (({ s.updateBridge b ({ · with engine := some e.step.1 }) with
      frames := below } : Session).goto (replyControl b r p)) := by
  have hstep : e.step = (e.step.1, .finished r) := Prod.ext rfl hev
  have htake : (s.updateBridge b ({ · with engine := some e.step.1 })).frames =
      .running b p :: below := hf
  rw [engineStep, he]
  dsimp only
  rw [hstep]
  dsimp only
  rw [takeFinished, htake]
  cases p <;> rfl

/-- **What an engine does while its reply is waited for**, until it comes to that reply. -/
theorem Goes.waited (hgo : Goes s s') (ho : Orderly s) (hf : s.frames = fs ++ .running b p :: below)
    (hs : .scope b ∈ below) (he : s.engine? b = some e) :
    (∃ fs' e', s'.frames = fs' ++ .running b p :: below ∧ s'.engine? b = some e' ∧
      (e' = e ∨ e' = e.step.1 ∧ (∀ r, e.step.2 = .finished r →
          e.stack.countP Engine.Frame.isEntry ≠ awaited b below + 1) ∨
        e.control = .idle ∧ ((∃ w, e' = e.enter w) ∨ ∃ r, e' = e.answer r))) ∨
    ∃ r, e.control = .encoded r ∧ (∃ c st, e.stack = .entry c :: st) ∧
      e.stack.countP Engine.Frame.isEntry = awaited b below + 1 ∧ s.control = .engine b ∧
      s.frames = .running b p :: below ∧ e.step.2 = .finished r := by
  obtain ⟨x, hx, rfl⟩ := side?_isSome_of_engine? he
  have ha := ho b x hx
  have hcount := countP_of_side? hx ha
  rw [hf, awaited_append, awaited_running] at hcount
  have hsome : (s.engine? b).isSome := by rw [he]; rfl
  rcases hgo.running ho hsome hf with ⟨fs', hfs'⟩ | ⟨rfl, e, r, hc, he', hev, hf', hc'⟩
  · refine .inl ?_
    have hsome' := hgo.engine_isSome hsome (p := p) (by rw [hf]; simp)
    obtain ⟨e', he'⟩ := Option.isSome_iff_exists.1 hsome'
    obtain ⟨y, hy, rfl⟩ := side?_isSome_of_engine? he'
    refine ⟨fs', y.engine, hfs', he', ?_⟩
    obtain ⟨k, x', z, hx', hmove, hlast⟩ := hgo.moves hy
    obtain rfl : x = x' := Option.some.inj (hx.symm.trans hx')
    have hengine : y.engine = z.engine := by
      rcases hlast with ⟨rfl, -⟩ | ⟨-, -, hengine, -⟩
      · rfl
      · exact hengine
    have htrail : x.trail = (s.control.mark b :: fs.map (Frame.mark b)) ++
        .running p :: below.map (Frame.mark b) := by
      rw [← (side?_eq_some.1 hx).2, trail, hf, List.map_append, List.map_cons,
        show (Frame.running b p).mark b = .running p from if_pos rfl]
      rfl
    have hscope : .scope ∈ below.map (Frame.mark b) :=
      List.mem_map.2 ⟨_, hs, if_pos rfl⟩
    rw [hengine]
    refine (hmove.engine_of_running ha htrail hscope).imp_right (Or.imp_left ?_)
    rintro ⟨hhead, heq⟩
    refine ⟨heq, fun r hev heq' => ?_⟩
    -- The operation on top would be the one that is waited for, and it would have ended.
    have hc := (control_of_head? hx).1 hhead
    obtain ⟨p', rest, hframes⟩ := exists_running_of_side? hx ha hc
    cases fs with
    | nil =>
      have hended : s'.frames = below := by
        rw [hgo.eq_engineStep hc, engineStep_of_finished he hev hf]
        rfl
      have hlength := congrArg List.length (hfs'.symm.trans hended)
      rw [List.length_append, List.length_cons] at hlength
      omega
    | cons f fs =>
      obtain rfl : f = .running b p' := (List.cons.inj (hf.symm.trans hframes)).1
      rw [awaited_running] at hcount
      omega
  · obtain rfl : x.engine = e := Option.some.inj (he.symm.trans he')
    obtain ⟨-, hencoded, c, st, hstack, -⟩ := Engine.step_finished ha.shaped hev
    refine .inr ⟨r, hencoded, ⟨c, st, hstack⟩, ?_, hc, hf, hev⟩
    rw [hcount]
    exact Nat.zero_add _

/-! ### Handles that are given up in between -/

variable {ctl : Control} {tasks : List Task} {heard : List Heard} {result : Except Fault HostValue}

/-- How far an engine has come that gives up a handle before something else is done. -/
inductive Giving (b : Nat) (ctl : Control) (below : List Frame) (u : Session) : Prop
  /-- It works. -/
  | works {e : Engine} {c : Engine.Control} {st : List Engine.Frame}
    (hf : u.frames = .running b .nothing :: .interrupted ctl :: below) (hc : u.control = .engine b)
    (he : u.engine? b = some e) (hr : e.control.IsRelease) (hs : e.stack = .entry c :: st)
  /-- It has given up the handle. -/
  | ended (hf : u.frames = .interrupted ctl :: below) (hc : u.control = .finished)
  /-- What was to be done next is. -/
  | given (hf : u.frames = below) (hc : u.control = ctl)

/-- An engine gives up a handle before something else is done, and nothing else can come in
between. -/
structure Undisturbed (b : Nat) (ctl : Control) (below : List Frame) (u : Session) : Prop where
  tidy : u.tidy? = none
  engine : ∃ e, u.engine? b = some e
  giving : Giving b ctl below u

lemma Undisturbed.isOn (h : Undisturbed b ctl below u) : IsOn ctl below u := by
  cases h.giving with
  | works hf => exact .inr ⟨[_], hf⟩
  | ended hf => exact .inr ⟨[], hf⟩
  | given hf hc => exact .inl ⟨hf, hc⟩

/-- When an engine has come to its end, nothing can come before what is done with its reply. -/
lemma undisturbed_finished {r : Record} (hc : s.control = .engine b)
    (hf : s.frames = .running b p :: below) (he : s.engine? b = some e)
    (hev : e.step.2 = .finished r) (ht : s.tidy? = none)
    (hv : p.values ⊆ (replyControl b r p).values)
    (hu : (replyControl b r p).bridge? = some b ∨ ∃ f ∈ below, f.bridge? = some b) :
    (s.engineStep b).tidy? = none ∧ ∃ e, (s.engineStep b).engine? b = some e := by
  rw [engineStep_of_finished he hev hf]
  refine ⟨(broadens_finished hc hf hv hu).tidy? ht, e.step.1, ?_⟩
  obtain ⟨br, hbr, -⟩ := Option.bind_eq_some_iff.1 he
  change (s.updateBridge b ({ · with engine := some e.step.1 })).engine? b = _
  rw [Session.engine?, bridge?_updateBridge, if_pos rfl, hbr]
  rfl

/-- What waits for something without a result is done when that has ended. -/
lemma broadens_resume (hc : s.control = .finished) (hf : s.frames = .interrupted ctl :: below) :
    Broadens s (({ s with frames := below } : Session).goto ctl) := by
  refine .of_references (g := [.interrupted ctl]) (l := []) (.of_bridges rfl) rfl rfl rfl hf rfl
    (List.forall_mem_singleton.2 fun _ => rfl) (HostValue.referencesOf_subset fun v hv => ?_) ?_
  · rw [hc] at hv
    rcases List.mem_cons.1 hv with rfl | hv
    · exact .inl rfl
    · rw [List.flatMap_singleton] at hv
      exact .inr (subset_values (l := []) rfl (List.mem_append_left _ hv))
  · rintro c (hc' | ⟨f, hm, hf⟩)
    · rw [hc] at hc'
      cases hc'
    · obtain rfl := List.mem_singleton.1 hm
      rw [uses, Bool.or_eq_true]
      exact .inl (decide_eq_true hf)

/-- **An engine that gives up a handle gives it up**, and then what was to be done next is done. -/
theorem Undisturbed.step (h : Undisturbed b ctl below u) (hstep : u.step? = some t)
    (hscope : .scope b ∈ below) :
    Undisturbed b ctl below t ∨ u.frames = below ∧ u.control = ctl := by
  cases h.giving with
  | @works e c st hf hc he hr hs =>
    refine .inl ?_
    rcases Engine.step_release hr hs with hev | ⟨hturn, hr', hs'⟩
    · have hfinished := engineStep_of_finished he hev hf
      obtain ⟨ht, he'⟩ := undisturbed_finished hc hf he hev h.tidy (by rintro _ ⟨⟩)
        (.inr ⟨.scope b, List.mem_cons_of_mem _ hscope, rfl⟩)
      obtain rfl := (Goes.steps hstep).eq_engineStep hc
      exact ⟨ht, he', .ended (by rw [hfinished]; rfl) (by rw [hfinished]; rfl)⟩
    · obtain ⟨x, hx, rfl⟩ := side?_isSome_of_engine? he
      have hin : u.inCall b = true := by
        rw [inCall, hf]
        exact List.any_eq_true.2 ⟨.scope b, List.mem_cons_of_mem _ (List.mem_cons_of_mem _ hscope),
          beq_self_eq_true b⟩
      obtain ⟨t', q', hstep', hdrives, hcore⟩ :=
        drives_step hc hin (side?_eq_some.1 hx).1 ⟨rfl, hturn⟩
      obtain rfl : t = t' := Option.some.inj (hstep.symm.trans hstep')
      have he' := engine?_of_core? hcore
      exact ⟨(hdrives.broadens hc).tidy? h.tidy, ⟨_, he'⟩, .works (hdrives.frames.trans hf)
        (hdrives.control.trans hc) he' hr' (hs'.trans hs)⟩
  | ended hf hc =>
    refine .inl ?_
    have hbroadens := broadens_resume hc hf
    have hproceed : u.proceed? = some (({ u with frames := below } : Session).goto ctl) := by
      rw [proceed?, hc, Control.finished]
      dsimp only
      rw [hf]
      rfl
    have hnext := hbroadens.step? (by rw [hc]; rintro _ ⟨⟩) h.tidy hproceed
    obtain rfl := Option.some.inj (hnext.symm.trans hstep)
    exact ⟨hbroadens.tidy? h.tidy, h.engine, .given rfl rfl⟩
  | given hf hc => exact .inr ⟨hf, hc⟩

/-- What is left to do for a record is started at once. -/
lemma step_performStep {task : Task} (hu : u.tidy? = none) (he : u.engine? b = some e)
    (hc : u.control = .perform b (task :: tasks) heard result) (hstep : u.step? = some t) :
    t = u.performStep b (task :: tasks) heard result ∧ Broadens u t := by
  obtain ⟨a, q, hcore⟩ := core?_of_engine? he
  have hbroadens := broadens_performStep hc hcore (by cases task <;> rw [performStep, he] <;> rfl)
  have hnext := hbroadens.step? (by simp [hc]) hu (by rw [proceed?, hc])
  obtain rfl := Option.some.inj (hnext.symm.trans hstep)
  exact ⟨rfl, hbroadens⟩

/-- The handle that comes next is given up. -/
lemma undisturbed_performStep {g : Handle} (hu : u.tidy? = none) (he : u.engine? b = some e)
    (hc : u.control = .perform b (.release g :: tasks) heard result) (hstep : u.step? = some t) :
    Undisturbed b (.perform b tasks heard result) u.frames t := by
  obtain ⟨heq, hbroadens⟩ := step_performStep hu he hc hstep
  replace heq : t = (u.push (.interrupted (.perform b tasks heard result))).startEngine b .nothing e
      (.release g) := heq.trans (by rw [performStep, he])
  have he' : t.engine? b = some (e.enter (.release g)) := by
    rw [heq]
    exact engine?_startEngine (s := u.push _) he ..
  exact ⟨hbroadens.tidy? hu, ⟨_, he'⟩, .works (heq ▸ rfl) (heq ▸ rfl) he' trivial rfl⟩

/-! ### What is heard of a member -/

/-- While something waits for a reply of the engine of a bridge, something holds of the engine. -/
def During (b : Nat) (p : Purpose) (below : List Frame) (P : Engine → Prop) (u : Session) : Prop :=
  ∃ l e, u.frames = l ++ .running b p :: below ∧ u.engine? b = some e ∧ P e

/-- What the host hears of a member of a thrown object between two states of a program. -/
inductive Hears (b : Nat) (h : Handle) (q : Ref) (name : String) (below : List Frame)
    (s t : Session) : Option String → Prop
  /-- The member is read, and the outcome of that read settles it. -/
  | reads {tasks : List Task} {heard : List Heard} {result : Except Fault HostValue}
    {base : List Engine.Frame} {o : Engine.Outcome} {u v : Session} (hbegins : Proceeds s u)
    (hasks : During b (.member h name tasks heard result) below
      (Engine.Asks q (.ofName name) base) u)
    (hreads : ProceedsWhile (During b (.member h name tasks heard result) below
      (.settle :: base <:+ ·.stack)) u v)
    (hobtains : During b (.member h name tasks heard result) below (Engine.Obtains o base) v)
    (hends : Proceeds v t) : Hears b h q name below s t (Engine.saidText? o)

lemma Hears.later {said : Option String} (hh : Hears b h q name below s t said)
    (hp : Proceeds t u) : Hears b h q name below s u said := by
  cases hh with
  | reads hbegins hasks hreads hobtains hends =>
    exact .reads hbegins hasks hreads hobtains (hends.trans hp)

/-- How far the read of a member has come in an engine. -/
inductive Phase (b : Nat) (h : Handle) (q : Ref) (name : String) (below : List Frame) (p : Purpose)
    (s u : Session) (base : List Engine.Frame) (e : Engine) : Prop
  /-- It is about to begin. -/
  | begins (hbegins : Proceeds s u) (hc : e.control = .begin (.getMember h name))
    (hs : e.stack = base)
  /-- The read goes on. -/
  | reads {v : Session} (hbegins : Proceeds s v)
    (hasks : During b p below (Engine.Asks q (.ofName name) base) v)
    (hreads : ProceedsWhile (During b p below (.settle :: base <:+ ·.stack)) v u)
    (hs : .settle :: base <:+ e.stack)
  /-- It is settled what the host hears. -/
  | tells {said : Option String} (hh : Hears b h q name below s u said)
    (hu : Engine.Utters base said e)

/-- A member of a thrown object is being read. -/
structure ReadsMember (b : Nat) (h : Handle) (q : Ref) (name : String) (below : List Frame)
    (p : Purpose) (s u : Session) : Prop where
  frames : ∃ l, u.frames = l ++ .running b p :: below
  phase : ∃ e base c st, u.engine? b = some e ∧ base = .entry c :: st ∧
    base.countP Engine.Frame.isEntry = awaited b below + 1 ∧ Phase b h q name below p s u base e

/-- **A member that is read is read on, until the reply comes and tells what is heard.** -/
theorem ReadsMember.step (hr : ReadsMember b h q name below (.member h name tasks heard result) s u)
    (hstep : u.step? = some t) (ho : Orderly u) (hscope : .scope b ∈ below)
    (hpin : ∀ e, u.engine? b = some e → e.handles.get? h = some q) :
    ReadsMember b h q name below (.member h name tasks heard result) s t ∨
    ∃ e r, Hears b h q name below s t (textOf? r) ∧ u.control = .engine b ∧
      u.frames = .running b (.member h name tasks heard result) :: below ∧ u.engine? b = some e ∧
        e.step.2 = .finished r := by
  obtain ⟨⟨l, hf⟩, e, base, c, st, he, rfl, hcount, hphase⟩ := hr
  obtain ⟨x, hx, rfl⟩ := side?_isSome_of_engine? he
  have hshaped := (ho b x hx).shaped
  -- The read goes on, in the engine or outside of it, or its reply is there.
  rcases (Goes.steps hstep).waited ho hf hscope he with
    ⟨l', e', hf', he', hmoves⟩ | ⟨r, hc, ⟨c', st', hs⟩, hends, hengine, hf', hev⟩
  · refine .inl ⟨⟨l', hf'⟩, e', _, c, st, he', rfl, hcount, ?_⟩
    have hduring : ∀ {P : Engine → Prop}, P x.engine →
        During b (.member h name tasks heard result) below P u := fun hP => ⟨l, _, hf, he, hP⟩
    cases hphase with
    | begins hbegins hc hs =>
      have hbegins := hbegins.tail hstep
      rcases hmoves with rfl | ⟨rfl, -⟩ | ⟨hidle, -⟩
      · exact .begins hbegins hc hs
      · rcases Engine.begin_step hc hs (hpin _ he) with hstays | hasks
        · exact .begins hbegins (hstays.control.trans hc) (hstays.stack.trans hs)
        · exact .reads hbegins ⟨l', _, hf', he', hasks⟩ .refl (hasks.stack ▸ List.suffix_refl _)
      · rw [hc] at hidle
        cases hidle
    | @reads v hbegins hasks hreads hs =>
      have hreads' := hreads.tail ⟨hduring hs, hstep⟩
      rcases hmoves with rfl | ⟨rfl, -⟩ | ⟨-, ⟨w, rfl⟩ | ⟨r, rfl⟩⟩
      · exact .reads hbegins hasks hreads' hs
      · rcases hshaped.read_step hs with hs' | ⟨o, hobtains, hutters⟩
        · exact .reads hbegins hasks hreads' hs'
        · exact .tells (.reads hbegins hasks hreads (hduring hobtains) (.single hstep)) hutters
      · exact .reads hbegins hasks hreads' (hs.trans (List.suffix_cons ..))
      · exact .reads hbegins hasks hreads' hs
    | tells hh hu =>
      have hh := hh.later (.single hstep)
      rcases hmoves with rfl | ⟨rfl, hends⟩ | ⟨hidle, hturn⟩
      · exact .tells hh hu
      · refine .tells hh (hu.step hshaped rfl fun r hev hs => hends r hev ?_)
        rw [hs, hcount]
      · refine .tells hh (hu.turn hidle ?_)
        rcases hturn with ⟨w, rfl⟩ | ⟨r, rfl⟩
        · exact List.suffix_cons ..
        · exact List.suffix_refl _
  · refine .inr ⟨x.engine, r, ?_, hengine, hf', he, hev⟩
    cases hphase with
    | begins _ hc' =>
      rw [hc] at hc'
      cases hc'
    | reads hbegins hasks hreads hsuffix =>
      rw [hs] at hsuffix hends
      have hlt := Engine.countP_lt_of_suffix hsuffix rfl
      omega
    | tells hh hu =>
      rw [hu.textOf? hc hs (Nat.le_of_eq (hends.trans hcount.symm))]
      exact hh.later (.single hstep)

/-! ### What is heard of an object -/

variable {names : List String}

/-- What has been heard of a thrown object so far, and the members that are still to be read. -/
structure Told (b : Nat) (h : Handle) (q : Ref) (below : List Frame) (s u : Session)
    (heard : List Heard) (names : List String) : Prop where
  members : heard.map (·.member) ++ names = errorMembers
  hears : ∀ x ∈ heard, x.thrown = h ∧ Hears b h q x.member below s u x.text

lemma Told.later (ht : Told b h q below s u heard names) (hp : Proceeds u t) :
    Told b h q below s t heard names :=
  ⟨ht.members, fun x hx => (ht.hears x hx).imp_right (·.later hp)⟩

/-- One member more has been heard of. -/
lemma Told.append {said : Option String} (ht : Told b h q below s u heard (name :: names))
    (hh : Hears b h q name below s u said) :
    Told b h q below s u (heard ++ [⟨h, name, said⟩]) names where
  members := by
    rw [List.map_append, List.append_assoc]
    exact ht.members
  hears := by
    intro x hx
    rcases List.mem_append.1 hx with hx | hx
    · exact ht.hears x hx
    · obtain rfl := List.mem_singleton.1 hx
      exact ⟨rfl, hh⟩

/-- What is left to do for a thrown object of which some members are still to be read. -/
def restTasks (h : Handle) (names : List String) : List Task := names.map (.read h) ++ [.release h]

/-- A thrown object is asked about itself. -/
inductive Asking (b : Nat) (h : Handle) (q : Ref) (below : List Frame) (s u : Session) : Prop
  /-- Handles that an answer has left are given up, and then it is asked about the other members. -/
  | performs {l : List Handle} {heard : List Heard} {names : List String}
    (hon : Undisturbed b
      (.perform b (l.map .release ++ restTasks h names) heard (.error (.thrown h))) below u)
    (ht : Told b h q below s u heard names)
  /-- One of its members is read. -/
  | reads {name : String} {names : List String} {heard : List Heard}
    (hr : ReadsMember b h q name below
      (.member h name (restTasks h names) heard (.error (.thrown h))) s u)
    (ht : Told b h q below s u heard (name :: names))

lemma mem_released (gs : List Handle) (h : Handle) (names : List String) :
    h ∈ (gs.map Task.release ++ restTasks h names).flatMap Task.released :=
  List.mem_flatMap.2 ⟨.release h, by simp [restTasks], List.mem_singleton_self h⟩

/-- The handle of a thrown object is answered for while the object is asked about itself. -/
lemma Asking.mem_owned (ha : Asking b h q below s u) (hx : u.side? b = some x) :
    h ∈ x.owned (u.kept b) := by
  obtain ⟨m, hm, hmem⟩ : ∃ m ∈ u.trail b, h ∈ m.handles := by
    cases ha with
    | @performs gs heard names hon ht =>
      let tasks : List Task := gs.map .release ++ restTasks h names
      have hmark : (Control.perform b tasks heard (.error (.thrown h))).mark b =
          .perform tasks heard (.error (.thrown h)) := if_pos rfl
      refine ⟨_, ?_, show h ∈ (Mark.perform tasks heard (.error (.thrown h))).handles from
        mem_released gs h names⟩
      rcases hon.isOn with ⟨-, hc⟩ | ⟨l, hl⟩
      · rw [trail, hc, hmark]
        exact List.mem_cons_self ..
      · refine List.mem_cons_of_mem _ (List.mem_map.2
          ⟨.interrupted (.perform b tasks heard (.error (.thrown h))), ?_, hmark⟩)
        rw [hl]
        exact List.mem_append_right _ (List.mem_cons_self ..)
    | @reads name names heard hr ht =>
      obtain ⟨l, hl⟩ := hr.frames
      let p : Purpose := .member h name (restTasks h names) heard (.error (.thrown h))
      have hmark : (Frame.running b p).mark b = .running p := if_pos rfl
      refine ⟨.running p, List.mem_cons_of_mem _ (List.mem_map.2 ⟨_, ?_, hmark⟩),
        mem_released [] h names⟩
      rw [hl]
      exact List.mem_append_right _ (List.mem_cons_self ..)
  rw [(side?_eq_some.1 hx).2] at hm
  exact List.mem_append_left _ (List.mem_append_right _ (List.mem_flatMap.2 ⟨m, hm, hmem⟩))

/-- **As long as a thrown object is asked about itself, its handle stays with it.** -/
lemma Asking.get? (ha : Asking b h q below s t) (hist : History types setups (u :: older))
    (hstep : u.step? = some t) (hpin : ∀ e, u.engine? b = some e → e.handles.get? h = some q)
    (he : t.engine? b = some e) : e.handles.get? h = some q := by
  obtain ⟨y, hy, rfl⟩ := side?_isSome_of_engine? he
  obtain ⟨-, x, hx, hfollows⟩ := (Goes.steps hstep).follows
    (fun x hx => hist.accounted (List.mem_cons_self ..) hx)
    (fun x hx => hist.owns (List.mem_cons_self ..) hx) hy
  have hbefore := hpin _ (engine?_of_side? hx)
  rcases hfollows h (ha.mem_owned hy) with ⟨-, heq⟩ | ⟨r, -, hnone, -⟩
  · exact heq.trans hbefore
  · rw [hnone] at hbefore
    cases hbefore

/-- The next thing is done for a thrown object that is asked about itself. -/
lemma asking_performStep {gs : List Handle} (ho : Orderly u) (hp : Proceeds s u)
    (hu : u.tidy? = none) (he : u.engine? b = some e)
    (hc : u.control = .perform b (gs.map .release ++ restTasks h names) heard (.error (.thrown h)))
    (ht : Told b h q u.frames s u heard names) (hstep : u.step? = some t) :
    Asking b h q u.frames s t ∨ ∃ heard, Told b h q u.frames s t heard [] ∧
      IsOn (.perform b [] heard (.error (.thrown h))) u.frames t := by
  have htold := ht.later (.single hstep)
  cases gs with
  | cons g gs => exact .inl (.performs (l := gs) (undisturbed_performStep hu he hc hstep) htold)
  | nil =>
    cases names with
    | nil => exact .inr ⟨heard, htold, (undisturbed_performStep hu he hc hstep).isOn⟩
    | cons name names =>
      let p : Purpose := .member h name (restTasks h names) heard (.error (.thrown h))
      have heq : t = u.startEngine b p e (.getMember h name) :=
        (step_performStep hu he hc hstep).1.trans (by rw [performStep, he]; rfl)
      obtain ⟨x, hx, rfl⟩ := side?_isSome_of_engine? he
      refine .inl (.reads
        ⟨⟨[], heq ▸ rfl⟩, x.engine.enter (.getMember h name), _, _, _, ?_, rfl, ?_,
        .begins (hp.tail hstep) rfl rfl⟩ htold)
      · rw [heq]
        exact engine?_startEngine he ..
      · rw [List.countP_cons_of_pos rfl, countP_of_side? hx (ho b x hx)]

/-- **A thrown object that is asked about itself is asked on, until all has been heard.** -/
theorem Asking.step (ha : Asking b h q below s u) (hstep : u.step? = some t)
    (hist : History types setups (u :: older)) (hp : Proceeds s u) (hscope : .scope b ∈ below)
    (hpin : ∀ e, u.engine? b = some e → e.handles.get? h = some q) :
    Asking b h q below s t ∨ ∃ heard, Told b h q below s t heard [] ∧
      IsOn (.perform b [] heard (.error (.thrown h))) below t := by
  cases ha with
  | @performs gs heard names hon ht =>
    rcases hon.step hstep hscope with hon' | ⟨rfl, hc⟩
    · exact .inl (.performs hon' (ht.later (.single hstep)))
    · obtain ⟨e, he⟩ := hon.engine
      exact asking_performStep hist.orderly hp hon.tidy he hc ht hstep
  | @reads name names heard hr ht =>
    have htold := ht.later (.single hstep)
    rcases hr.step hstep hist.orderly hscope hpin with hr' | ⟨e, r, hh, hc, hf, he, hev⟩
    · exact .inl (.reads hr' htold)
    · -- Nothing could be let go of while a member was read.
      obtain ⟨x, hx, -⟩ := side?_isSome_of_engine? he
      have hu := hist.tidy?_eq_none hx hc hf nofun
      obtain ⟨hu', he'⟩ := undisturbed_finished hc hf he hev hu nofun (.inl rfl)
      have hfinished := engineStep_of_finished he hev hf
      obtain rfl := (Goes.steps hstep).eq_engineStep hc
      exact .inl (.performs ⟨hu', he', .given (by rw [hfinished]; rfl) (by rw [hfinished]; rfl)⟩
        (htold.append hh))

/-- A thrown object that is asked about itself comes to have said all, if the program does not run
on forever. -/
lemma Asking.exists_told (ha : Asking b h q (.scope b :: below) s u)
    (hist : History types setups (u :: older)) (hp : Proceeds s u)
    (hpin : ∀ e, u.engine? b = some e → e.handles.get? h = some q)
    (hlooks : u.looks ≤ below.countP Frame.isPausing)
    (hends : Acc (fun t u : Session => u.step? = some t) u) :
    ∃ t heard, ProceedsWhile (fun v => below.length < v.frames.length) u t ∧
      Told b h q (.scope b :: below) s t heard [] ∧
      IsOn (.perform b [] heard (.error (.thrown h))) (.scope b :: below) t := by
  induction hends generalizing older with
  | intro u _ ih =>
    have hbeneath : .scope b :: below <:+ u.frames := by
      cases ha with
      | performs hon ht => exact hon.isOn.suffix
      | reads hr ht =>
        obtain ⟨l, hl⟩ := hr.frames
        rw [hl]
        exact (List.suffix_cons ..).trans (List.suffix_append ..)
    have habove : below.length < u.frames.length := length_lt_of_suffix hbeneath
    obtain ⟨t, hstep⟩ : ∃ t, u.step? = some t := by
      obtain ⟨l, hl⟩ := hbeneath
      exact exists_step hlooks (l := l ++ [.scope b]) (by simp)
        (by rw [List.append_assoc]; exact hl.symm)
    rcases ha.step hstep hist hp (List.mem_cons_self ..) hpin with ha' | ⟨heard, ht, hon⟩
    · obtain ⟨t', heard, hruns, hend⟩ := ih t hstep ha' (hist.goes (.steps hstep)) (hp.tail hstep)
        (fun e he => ha'.get? hist hstep hpin he) ((looks_step? hstep).symm ▸ hlooks)
      exact ⟨t', heard, .head ⟨habove, hstep⟩ hruns, hend⟩
    · exact ⟨t, heard, .single ⟨habove, hstep⟩, ht, hon⟩

/-- When a script object has been heard, its operation ends with what it has said. -/
lemma exists_ended {f : Fault} (hon : IsOn (.perform b [] heard (.error f)) (.scope b :: below) u)
    (hlooks : u.looks ≤ below.countP Frame.isPausing)
    (hends : Acc (fun t u : Session => u.step? = some t) u) :
    ∃ t, ProceedsWhile (fun v => below.length < v.frames.length) u t ∧ t.frames = below ∧
      t.control = .done (.error (.operation (f.error heard))) := by
  -- The outcome is given.
  obtain ⟨v, w, hruns, hf, hc, hw⟩ := hon.exists_done (by simp) hlooks hends
  rw [proceed?, hc] at hw
  obtain rfl := Option.some.inj hw
  have hgiven : IsOn (.done (.error (.operation (f.error heard)))) (.scope b :: below)
      (v.performStep b [] heard (.error f)) := .inl ⟨hf, rfl⟩
  -- The operation is left.
  obtain ⟨v', w', hruns', hf', hc', hw'⟩ := (hgiven.lettingGo v).exists_done (by simp)
    ((looks_proceeds hruns.proceeds).symm ▸ hlooks) (acc_proceeds hends hruns.proceeds)
  rw [proceed?_of_done hc' hf' (by simp)] at hw'
  obtain rfl := Option.some.inj hw'
  have hruns : ProceedsWhile (fun v => below.length < v.frames.length) u _ := hruns.trans hruns'
  obtain ⟨t, hruns', hend⟩ := ((isOn_leaveScope ..).lettingGo v').exists_reached
    ((looks_proceeds hruns.proceeds).symm ▸ hlooks) (acc_proceeds hends hruns.proceeds)
  exact ⟨t, hruns.trans hruns', hend⟩

end Session

end ScriptBridge
