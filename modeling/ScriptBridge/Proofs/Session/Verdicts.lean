/-
# What exceptions are for the host

An exception that script does not catch ends the operation of the host.  What stands for an entry of
the host gives the entry, any other object is asked for its name and its message, and anything else
gives its text.  The verdict is settled by what was thrown: no second exception ever takes the place
of the first one, and nothing makes a success of it.
-/
import ScriptBridge.Proofs.Session.Failures
import ScriptBridge.Proofs.Session.Printing

namespace ScriptBridge

open ScriptBridge.Bridge ScriptBridge.Host ScriptBridge.Script ScriptBridge.Table ScriptBridge.Wire

/-! ### What objects say -/

namespace Bridge

/-- The error of a thrown object, of whose members something may be heard. -/
def saidError (said : String → Option String) : ScriptError where
  name := ((said "name").filter (· ≠ "")).getD "Error"
  text := ((said "message").filter (· ≠ "")).getD "script threw an object without a message"
  stack := (said "stack").filter (· ≠ "")

end Bridge

namespace Engine

variable {e : Engine} {v : Value} {r : Record} {handles : Handles Ref}

/-- **An exception that nothing catches becomes the reply of its operation.** -/
theorem Uncaught.exists_settled (h : e.Uncaught v) (hs : e.heap.Sound)
    (hsettles : e.Settles v r handles) :
    ∃ e' c base, Runs e e' ∧ e'.Clean ∧ e'.control = .encoded r ∧
      e'.stack = .entry c :: base ∧ e'.handles = handles := by
  obtain ⟨fs, c, base, hstack, hfs⟩ := h.stack
  obtain ⟨h₁, slots, hruns₁, hsound, hkept⟩ :=
    exists_passed_of_throw h.control hs hstack hfs
  let e₁ : Engine := { e with heap := h₁, stack := .entry c :: base, released := slots }
  obtain ⟨h₂, hruns₂, hclean⟩ := Settles.exists_reply (e := e₁)
    (hsettles.of_kept hkept rfl) h.control hsound rfl
  exact ⟨_, c, base, hruns₁.runs.trans hruns₂.runs, hclean, rfl, rfl, rfl⟩

end Engine

namespace Session

variable {s t u : Session} {b : Nat} {e : Engine} {v : Value} {below : List Frame}
  {types : List HostType} {setups : List Setup} {hist older : List Session}

/-! ### Verdicts -/

/-- What an exception that nothing has caught in an engine is for the host, after the operation has
ended. -/
inductive Verdict (b : Nat) (below : List Frame) (hist : List Session) (e : Engine)
    (s t : Session) :
    Value → BridgeError → Prop
  /-- It stands for a failure of the host, which comes back. -/
  | failure {q : Ref} {slot : Slot} {err : HostError}
    (hentry : (e.heap.get? q).bind (·.entry) = some slot)
    (hslot : s.entryOf? b slot = some (.error err)) :
    Verdict b below hist e s t (.object q) (.ofHost err)
  /-- It stands for something else of the host. -/
  | entry {q : Ref} {slot : Slot} {entry : Entry}
    (hentry : (e.heap.get? q).bind (·.entry) = some slot)
    (hslot : s.entryOf? b slot = some entry) (hne : ∀ err, entry ≠ .error err) :
    Verdict b below hist e s t (.object q)
      (.script { name := "Error", text := "script threw a host " ++ entry.typeName })
  /-- It stands for nothing any more.  Script has put something in the place of the class of
  stand-ins. -/
  | vacant {q : Ref} {slot : Slot} (hentry : (e.heap.get? q).bind (·.entry) = some slot)
    (hslot : s.entryOf? b slot = none) (hintact : ¬ Intact b hist) :
    Verdict b below hist e s t (.object q) (.ofHost (.invalidSlot slot))
  /-- It is another object, for which a handle is handed out, and the host hears what its members
  say. -/
  | object {q : Ref} {h : Handle} {handles : Handles Ref} {said : String → Option String}
    (hentry : (e.heap.get? q).bind (·.entry) = none)
    (hinsert : e.handles.insert q = some (h, handles))
    (hsaid : ∀ m ∈ errorMembers, Hears b h q m (.scope b :: below) s t (said m)) :
    Verdict b below hist e s t (.object q) (.script (saidError said))
  /-- It is another object, for which no handle is left, and the host hears the text of the string
  that it is converted to. -/
  | full {q : Ref} {c : Engine.Control} {st : List Engine.Frame} {said : Option String}
    (hentry : (e.heap.get? q).bind (·.entry) = none) (hfull : e.handles.insert q = none)
    (hbelow : Engine.below e.stack = some (c, st))
    (hsaid : HearsPrinted b q (.entry c :: st) (.scope b :: below) s t said) :
    Verdict b below hist e s t (.object q)
      (.script { name := "Error", text := Record.clip (said.getD Engine.unprintable) })
  /-- It is no object, and has a text. -/
  | text {v : Value} {text : String} (hv : v.printed? = some text) :
    Verdict b below hist e s t v (.script { name := "Error", text := Record.clip text })
  /-- It is no object, and has no text. -/
  | unprintable {v : Value} (hv : ∀ q, v ≠ .object q) (hnone : v.printed? = none) :
    Verdict b below hist e s t v (.script { name := "Error", text := Engine.unprintable })

/-! ### The record of an exception -/

variable {x : Side} {r : Record} {n : Nat} {err : BridgeError} {handles : Handles Ref}

/-- **An exception that nothing catches is decoded.** -/
lemma exists_decoded {result : Except Fault HostValue} {tasks : List Task}
    (h : History types setups (s :: older)) (hx : s.side? b = some x)
    (hc : s.control = .engine b) (hf : s.frames = .running b .value :: .scope b :: below)
    (huncaught : x.engine.Uncaught v) (hsettles : x.engine.Settles v r handles)
    (hdecode : decode b x.arena s.nextLease r = ⟨result, tasks, n⟩) :
    ∃ u e, ProceedsWhile (fun w => below.length < w.frames.length) s u ∧
      u.frames = .scope b :: below ∧ u.control = .perform b tasks [] result ∧ u.tidy? = none ∧
      u.engine? b = some e ∧ e.handles = handles := by
  have ha := h.accounted (List.mem_cons_self ..) hx
  have hin := inCall_of_running hx ha hc hf nofun
  -- The exception becomes a record.
  obtain ⟨e₁, c, base, hruns, hclean, hencoded, hstack, hhandles⟩ :=
    huncaught.exists_settled ha.sound hsettles
  obtain ⟨u₁, q, hruns₁, hdrives, hcore₁⟩ := drives_runs hruns.always hc hin (side?_eq_some.1 hx).1
  have hc₁ := hdrives.control.trans hc
  have hf₁ := hdrives.frames.trans hf
  obtain ⟨older₁, h₁⟩ := history_proceeds h hruns₁.proceeds
  have ht₁ := h₁.tidy?_eq_none (side?_of_core? hcore₁) hc₁ hf₁ nofun
  obtain ⟨u₂, hstep₂, hbroadens₂, hc₂, hf₂, hlease₂, hcore₂⟩ :=
    step_finished hc₁ hf₁ hcore₁ hclean hencoded hstack
  -- The record is decoded.
  rw [← hdrives.nextLease, ← hlease₂] at hdecode
  have ht₂ := hbroadens₂.tidy? ht₁
  obtain ⟨hstep₃, hbroadens₃⟩ := step_decoded hc₂ ht₂ hcore₂ hdecode
  have habove : ∀ {w : Session}, .scope b :: below <:+ w.frames →
      below.length < w.frames.length := List.IsSuffix.length_le
  refine ⟨_, _, (hruns₁.mono fun w hw => habove ?_).trans
    (.head ⟨habove ?_, hstep₂⟩ (.single ⟨habove ?_, hstep₃⟩)), hf₂, rfl, hbroadens₃.tidy? ht₂,
    engine?_of_core? hcore₂, hhandles⟩
  · rw [hw.2, hf]
    exact List.suffix_cons ..
  · rw [hf₁]
    exact List.suffix_cons ..
  · exact hf₂ ▸ List.suffix_refl _

/-- The record of an entry is decoded to what is at its slot. -/
lemma decode_managedError_eq (b n : Nat) (a : Arena Entry) (slot : Slot) :
    decode b a n (.managedError slot) = ⟨plainValue a (.managedError slot), [], n⟩ := by
  change decodeLeaf b a n (.managedError slot) = _
  rw [decodeLeaf, Record.view_managedError]

/-- The record of a text is decoded to an error of script. -/
lemma decode_unknownError (b n : Nat) (a : Arena Entry) (text : String) :
    decode b a n (.unknownError (some text)) =
      ⟨.error (.known (.script { name := "Error", text := Record.clip text })), [], n⟩ := by
  change decodeLeaf b a n (.unknownError (some text)) = _
  rw [decodeLeaf, Record.view_unknownError]
  rfl

/-- The record of another object of script leaves it to be asked about itself. -/
lemma decode_foreignError (b n : Nat) (a : Arena Entry) (h : Handle) :
    decode b a n (.foreignError h) = ⟨.error (.thrown h), restTasks h errorMembers, n⟩ := by
  change decodeLeaf b a n (.foreignError h) = _
  rw [decodeLeaf, Record.view_foreignError]
  rfl

lemma looks_le (hf : s.frames = .running b .value :: .scope b :: below) :
    s.looks ≤ below.countP Frame.isPausing := by
  rw [looks, hf]
  exact Nat.le_refl _

/-- An exception whose error is known ends its operation. -/
lemma exists_known (h : History types setups (s :: older)) (hx : s.side? b = some x)
    (hc : s.control = .engine b) (hf : s.frames = .running b .value :: .scope b :: below)
    (huncaught : x.engine.Uncaught v) (hends : Acc (fun t u : Session => u.step? = some t) s)
    (hsettles : x.engine.Settles v r handles)
    (hdecode : decode b x.arena s.nextLease r = ⟨.error (.known err), [], n⟩) :
    ∃ t, ProceedsWhile (fun w => below.length < w.frames.length) s t ∧ t.frames = below ∧
      t.control = .done (.error (.operation err)) := by
  obtain ⟨u, -, hruns, hf', hc', -⟩ := exists_decoded h hx hc hf huncaught hsettles hdecode
  obtain ⟨t, hruns', hend⟩ := exists_ended (.inl ⟨hf', hc'⟩)
    ((looks_proceeds hruns.proceeds).symm ▸ looks_le hf) (acc_proceeds hends hruns.proceeds)
  exact ⟨t, hruns.trans hruns', hend⟩

/-- An exception that is an object of script ends its operation with what it says of itself. -/
lemma exists_said {h : Handle} {q : Ref}
    (hist : History types setups (s :: older)) (hx : s.side? b = some x)
    (hc : s.control = .engine b) (hf : s.frames = .running b .value :: .scope b :: below)
    (huncaught : x.engine.Uncaught (.object q))
    (hends : Acc (fun t u : Session => u.step? = some t) s)
    (hentry : (x.engine.heap.get? q).bind (·.entry) = none)
    (hinsert : x.engine.handles.insert q = some (h, handles)) :
    ∃ t said, ProceedsWhile (fun w => below.length < w.frames.length) s t ∧ t.frames = below ∧
      t.control = .done (.error (.operation (.script (saidError said)))) ∧
      ∀ m ∈ errorMembers, Hears b h q m (.scope b :: below) s t (said m) := by
  obtain ⟨u, e, hruns, hf', hc', htidy, he, hhandles⟩ := exists_decoded hist hx hc hf huncaught
    (.object hentry hinsert) (decode_foreignError b s.nextLease x.arena h)
  have hpin : ∀ e, u.engine? b = some e → e.handles.get? h = some q := fun e₁ he₁ => by
    obtain rfl : e = e₁ := Option.some.inj (he.symm.trans he₁)
    rw [hhandles]
    exact (Handles.get?_insert (hist.owns (List.mem_cons_self ..) hx).indexed hinsert h).trans
      (if_pos rfl)
  -- It is asked about itself.
  obtain ⟨older', hist'⟩ := history_proceeds hist hruns.proceeds
  have hlooks := (looks_proceeds hruns.proceeds).symm ▸ looks_le hf
  have hends' := acc_proceeds hends hruns.proceeds
  have hundisturbed : Undisturbed b (.perform b (([] : List Handle).map .release ++
      restTasks h errorMembers) [] (.error (.thrown h))) (.scope b :: below) u :=
    ⟨htidy, ⟨e, he⟩, .given hf' hc'⟩
  have hask : Asking b h q (.scope b :: below) s u :=
    .performs hundisturbed ⟨rfl, List.forall_mem_nil _⟩
  obtain ⟨w, heard, hruns', htold, hon⟩ :=
    hask.exists_told hist' hruns.proceeds hpin hlooks hends'
  -- All has been heard.
  obtain ⟨t, hruns'', hframes, hdone⟩ := exists_ended hon
    ((looks_proceeds hruns'.proceeds).symm ▸ hlooks) (acc_proceeds hends' hruns'.proceeds)
  let isOf (m : String) (x : Heard) : Bool := decide (x.thrown = h ∧ x.member = m)
  refine ⟨t, fun m => (heard.find? (isOf m)).bind (·.text),
    (hruns.trans hruns').trans hruns'', hframes, hdone, fun m hm => ?_⟩
  have htold := htold.later hruns''.proceeds
  obtain ⟨y, hy, hmember⟩ : ∃ y ∈ heard, y.member = m := by
    have hmembers := htold.members
    rw [List.append_nil] at hmembers
    exact List.mem_map.1 (hmembers ▸ hm)
  dsimp only
  cases hfind : heard.find? (isOf m) with
  | none =>
    have hnot := List.find?_eq_none.1 hfind y hy
    exact absurd (decide_eq_true ⟨(htold.hears y hy).1, hmember⟩) hnot
  | some z =>
    obtain ⟨-, rfl⟩ := of_decide_eq_true (p := z.thrown = h ∧ z.member = m)
      (List.find?_some (p := isOf m) hfind)
    exact (htold.hears z (List.mem_of_find?_eq_some hfind)).2

/-- An exception that is an object of script for which there is no handle ends its operation with
the text that is thrown in its place. -/
lemma exists_printed {q : Ref} (hist : History types setups (s :: older)) (hx : s.side? b = some x)
    (hc : s.control = .engine b) (hf : s.frames = .running b .value :: .scope b :: below)
    (huncaught : x.engine.Uncaught (.object q))
    (hends : Acc (fun t u : Session => u.step? = some t) s)
    (hentry : (x.engine.heap.get? q).bind (·.entry) = none)
    (hfull : x.engine.handles.insert q = none) :
    ∃ t said, ProceedsWhile (fun w => below.length < w.frames.length) s t ∧ t.frames = below ∧
      t.control = .done (.error (.operation (.script
        { name := "Error", text := Record.clip (said.getD Engine.unprintable) }))) ∧
      ∃ c st, Engine.below x.engine.stack = some (c, st) ∧
        HearsPrinted b q (.entry c :: st) (.scope b :: below) s t said := by
  obtain ⟨u, o, c, st, hruns, hbelow, hspoken⟩ :=
    exists_spoken hist hx hc hf huncaught hentry hfull (looks_le hf) hends
  obtain ⟨older', hist'⟩ := history_proceeds hist hruns.proceeds
  obtain ⟨e, he, hthrow, hstack⟩ := hspoken.engine
  obtain ⟨y, hy, rfl⟩ := side?_isSome_of_engine? he
  have hplain : ∀ r, Engine.spoken o ≠ .object r := by
    cases o with
    | ok v => exact fun r hr => hspoken.plain r (congrArg _ hr)
    | error v => nofun
  obtain ⟨t, hruns', hframes, hdone⟩ := exists_known hist' hy hspoken.control hspoken.frames
    ⟨hthrow, [], c, st, hstack, List.forall_mem_nil _⟩ (acc_proceeds hends hruns.proceeds)
    (.plain hplain) (decode_unknownError ..)
  rw [Engine.thrownText_spoken] at hdone
  exact ⟨t, _, hruns.trans hruns', hframes, hdone, c, st, hbelow,
    hspoken.hears.later hruns'.proceeds⟩

/-! ### Uncaught exceptions -/

/-- **Exceptions that script does not catch are told apart.**  Within an operation, an exception is
thrown that no handler of script is there for; nothing else comes of it than that the operation ends
with an error, unless the program runs on forever.  A stand-in gives what it stands for.  Another
object gives what the host hears when it reads its members, whatever these reads do, or when it is
printed because there is no handle for it.  Anything else gives its text. -/
theorem exception_ends_operation (h : History types setups (s :: older))
    (hc : s.control = .engine b) (hf : s.frames = .running b .value :: .scope b :: below)
    (he : s.engine? b = some e) (huncaught : e.Uncaught v)
    (hends : Acc (fun t u : Session => u.step? = some t) s) :
    ∃ t err, ProceedsWhile (fun w => below.length < w.frames.length) s t ∧ t.frames = below ∧
      t.control = .done (.error (.operation err)) ∧ Verdict b below (s :: older) e s t v err := by
  obtain ⟨x, hx, rfl⟩ := side?_isSome_of_engine? he
  -- What is known is given.
  have hknown : ∀ {err n r handles}, x.engine.Settles v r handles →
      decode b x.arena s.nextLease r = ⟨.error (.known err), [], n⟩ →
      (∀ t, Verdict b below (s :: older) x.engine s t v err) →
      ∃ t err, ProceedsWhile (fun w => below.length < w.frames.length) s t ∧ t.frames = below ∧
        t.control = .done (.error (.operation err)) ∧
          Verdict b below (s :: older) x.engine s t v err := by
    intro err n r handles hsettles hdecode hverdict
    obtain ⟨t, hruns, hframes, hdone⟩ := exists_known h hx hc hf huncaught hends hsettles hdecode
    exact ⟨t, err, hruns, hframes, hdone, hverdict t⟩
  have hprinted : (∀ q, v ≠ .object q) → ∀ t, Verdict b below (s :: older) x.engine s t v
      (.script { name := "Error", text := Record.clip (Engine.thrownText v) }) := by
    intro hv t
    rw [Engine.thrownText_eq]
    cases hprints : v.printed? with
    | none =>
      rw [Option.getD_none, Record.clip_of_le (by decide)]
      exact .unprintable hv hprints
    | some text => exact .text hprints
  cases v with
  | object q =>
    cases hentry : (x.engine.heap.get? q).bind (·.entry) with
    | some slot =>
      have hsettles := Engine.Settles.entry hentry
      have hslot := entryOf?_of_side? hx slot
      have hdecode := decode_managedError_eq b s.nextLease x.arena slot
      cases hget : x.arena.get? slot with
      | none =>
        rw [plainValue, hget] at hdecode
        refine hknown hsettles hdecode fun t => .vacant hentry (hslot.trans hget) fun hi => ?_
        -- A stand-in would have kept the entry.
        have hfaithful := h.faithful hi (List.mem_cons_self ..) hx
        have hstand := Engine.hasStandIn_of_entry hfaithful.honest.standIns trivial hentry
        obtain ⟨entry, hsome⟩ := hfaithful.toAccounted.exists_get?
          (Side.mem_holders_of_hasStandIn hfaithful.honest hstand)
        rw [hget] at hsome
        cases hsome
      | some entry =>
        rw [plainValue, hget] at hdecode
        cases entry with
        | error err => exact hknown hsettles hdecode fun t => .failure hentry (hslot.trans hget)
        | _ => exact hknown hsettles hdecode fun t => .entry hentry (hslot.trans hget) (by simp)
    | none =>
      cases hinsert : x.engine.handles.insert q with
      | none =>
        obtain ⟨t, said, hruns, hframes, hdone, c, st, hbelow, hsaid⟩ :=
          exists_printed h hx hc hf huncaught hends hentry hinsert
        exact ⟨t, _, hruns, hframes, hdone, .full hentry hinsert hbelow hsaid⟩
      | some made =>
        obtain ⟨t, said, hruns, hframes, hdone, hsaid⟩ :=
          exists_said h hx hc hf huncaught hends hentry hinsert
        exact ⟨t, _, hruns, hframes, hdone, .object hentry hinsert hsaid⟩
  | _ => exact hknown (.plain (by simp)) (decode_unknownError ..) (hprinted (by simp))

/-! ### Three programs -/

/-- Whether an engine is about to throw something that nothing catches. -/
def isThrowing (e : Engine) : Bool :=
  e.control.isThrow && (e.stack.find? fun f => !f.passes).any Engine.Frame.isEntry

lemma exists_uncaught (h : isThrowing e = true) : ∃ v, e.Uncaught v := by
  rw [isThrowing, Bool.and_eq_true, Option.any_eq_true] at h
  obtain ⟨hthrow, f, hfind, hentry⟩ := h
  obtain ⟨v, hv⟩ : ∃ v, e.control = .throw v := by
    cases hc : e.control with
    | throw v => exact ⟨v, rfl⟩
    | _ =>
      rw [hc] at hthrow
      cases hthrow
  obtain ⟨c, rfl⟩ := Engine.Frame.exists_of_isEntry hentry
  obtain ⟨-, fs, base, hstack, hfs⟩ := List.find?_eq_some_iff_append.1 hfind
  exact ⟨v, hv, fs, c, base, hstack, fun f hf => by simpa using hfs f hf⟩

/-- A program in which script throws an object with a name and with a message that throws another
exception, up to where it throws the first one. -/
def confessing : List Session :=
  follow 9 (tell 0 (.evaluate (.op .throw [.defineGetter
      (.op (.object ["name"]) [.string (Text.Units.ofString "Odd")]) "message"
      (.op .throw [.string (Text.Units.ofString "second")])])) (made [] [{}]))

/-- Whether the engine of an outermost operation is about to throw something that nothing
catches. -/
def isFailed (s : Session) : Bool :=
  match s.control, s.frames, s.engine? 0 with
  | .engine 0, [.running 0 .value, .scope 0, .pausing, .keeping 0], some e => isThrowing e
  | _, _, _ => false

/-- An object that throws another exception when it is asked for its message ends its operation
under its own name. -/
theorem exception_ends_operation_confessing : ∃ s older e v t err, confessing = s :: older ∧
    s.engine? 0 = some e ∧ e.Uncaught v ∧ Proceeds s t ∧ t.frames = [.pausing, .keeping 0] ∧
    t.control = .done (.error (.operation err)) ∧
    Verdict 0 [.pausing, .keeping 0] confessing e s t v err ∧
    (follow 80 confessing).head?.bind failure? = some (.script
      { name := "Odd", text := "script threw an object without a message" }) := by
  have hfailed : confessing.head?.map isFailed = some true := by decide +kernel
  have hend : (follow 80 confessing).head?.all (·.step?.isNone) = true := by decide +kernel
  have hlast : (follow 80 confessing).head?.bind failure? = some (.script
      { name := "Odd", text := "script threw an object without a message" }) := by decide +kernel
  have h : History [] [{}] confessing := ((history_made (by decide +kernel)).tell ..).follow _
  generalize confessing = hist at hfailed hend hlast h ⊢
  cases hist with
  | nil => cases hfailed
  | cons s older =>
  rw [List.head?_cons, Option.map_some, Option.some_inj, isFailed] at hfailed
  split at hfailed
  case h_2 => cases hfailed
  case h_1 e hc hf he =>
  obtain ⟨v, hv⟩ := exists_uncaught hfailed
  obtain ⟨t, err, hruns, hframes, hdone, hverdict⟩ :=
    exception_ends_operation h hc hf he hv (acc_of_follow hend)
  exact ⟨s, older, e, v, t, err, rfl, he, hv, hruns.proceeds, hframes, hdone, hverdict, hlast⟩

/-- A program in which script throws what stands for a host object, after it has put a function
that gives objects of its own in the place of the class of stand-ins. -/
def posing : List Session :=
  follow 30 (tell 0 (.evaluate (.op .throw [.var "x"]))
    (obey 40 0 (.setVariable "x" (.fresh 0 "x" [])) none
      (obey 40 0 (.evaluate (.op (.assign "Proxy") [.function (.op (.object ["k"]) [.int 1])])) none
        (made [bareType] [{}]))))

/-- A host type with a method that gives what it is called with. -/
def returningType : HostType := .described [.method "echo" [.any] .echo] none

/-- A program in which script calls that method with an array that throws when it is copied. -/
def copying : List Session :=
  follow 120 (tell 0 (.evaluate (.callMember (.var "x") "echo"
      [.defineGetter (.op .array [.int 1]) "0"
        (.op .throw [.string (Text.Units.ofString "boom")])]))
    (obey 40 0 (.setVariable "x" (.fresh 0 "x" [])) none (made [returningType] [{}])))

/-- The slot that what the first engine is about to throw stands for. -/
def thrownSlot? (s : Session) : Option Slot :=
  (s.engine? 0).bind fun e =>
    match e.control with
    | .throw (.object q) => (e.heap.get? q).bind (·.entry)
    | _ => none

/-- The string that the first engine is about to throw. -/
def thrownString? (s : Session) : Option String :=
  (s.engine? 0).bind fun e =>
    match e.control with
    | .throw (.string units) => units.toString.toOption
    | _ => none

/-- No handler of script is there in either program.  In the first one what stands for a host object
is thrown, and its slot is reported to be vacant.  In the second one a string is thrown, and the
operation ends with the failure of the callback that it has broken off. -/
theorem exception_misjudged :
    (History [bareType] [{}] posing ∧ posing.all isUnguarded = true ∧
      (posing.any fun s => s.thrownSlot? = some firstSlot) = true ∧
      posing.head?.bind failure? = some (.interop (.host (.invalidSlot firstSlot)))) ∧
    (History [returningType] [{}] copying ∧ copying.all isUnguarded = true ∧
      (copying.any fun s => s.thrownString? = some "boom") = true ∧
      copying.head?.bind failure? = some (.hostMethod (.thrown "Error: boom"))) :=
  ⟨⟨(((history_made (by decide +kernel)).obey ..).obey ..).tell .. |>.follow _, by decide +kernel,
      by decide +kernel, by decide +kernel⟩,
    ⟨((history_made (by decide +kernel)).obey ..).tell .. |>.follow _, by decide +kernel,
      by decide +kernel, by decide +kernel⟩⟩

end Session

end ScriptBridge
