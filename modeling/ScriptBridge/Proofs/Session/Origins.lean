/-
# Steps hand on what is there

An engine at work, an operation, a callback or a slot that is given up brings nothing into a
session that was not there before.  Foreign objects come of records that are decoded, host objects
are made by host code, entries are let go of when a slot is given up or a bridge is torn down, and
a dispose hook runs for the last entry of its object.
-/
import ScriptBridge.Proofs.Session.Copies

namespace ScriptBridge.Session

open ScriptBridge.Bridge ScriptBridge.Host ScriptBridge.Host.HostValue ScriptBridge.Script

variable {P : Stock} {s s' : Session} {b : Nat} {v : HostValue}

/-! ### Operations -/

lemma Keeps.startEngine (h : s.Keeps P) {p : Purpose}
    (hp : ∀ v ∈ p.values, v.Only P) (e : Engine) (op : Engine.Operation) :
    (s.startEngine b p e op).Refers P := by
  simp only [Session.startEngine, refers_goto, keeps_push]
  exact ⟨⟨hp, h.updateBridge_of_arena fun _ => rfl⟩, by simp [Control.Fits, Control.values]⟩

lemma Keeps.opened (h : s.Keeps P) (crossing : Crossing) :
    ((s.record b crossing).push (.scope b)).Keeps P :=
  keeps_push.2 ⟨by simp [Frame.Fits, Frame.values], h.record crossing⟩

/-- The host objects of a value may be entered into an arena. -/
lemma Keeps.encode (h : s.Keeps P) {br : Bridge} (hb : s.bridge? b = some br) (hv : v.Only P) :
    ∀ e ∈ (encode b br.arena v).2.values, e.Fits P := by
  intro e he
  rcases mem_values_of_encode br.arena v he with he | ⟨o, ho, rfl⟩
  · exact h.entries_of_bridge? hb e he
  · intro p hp
    cases hp
    exact hv.object ho

lemma Keeps.call (h : s.Keeps P) (crossing : Crossing) (op : Engine.Operation) :
    (s.call b crossing op).Refers P := by
  have hopened := h.opened (b := b) crossing
  unfold Session.call
  dsimp only
  split
  · exact refers_fail.2 hopened
  · exact hopened.startEngine (by simp [Purpose.values]) _ _

lemma Keeps.exchange (h : s.Keeps P) (crossing : Crossing) (hv : v.Only P)
    (op : Wire.Record → Engine.Operation) : (s.exchange b crossing v op).Refers P := by
  have hopened := h.opened (b := b) crossing
  unfold Session.exchange
  dsimp only
  split
  · exact refers_fail.2 hopened
  · next br hbr =>
    have hentries := hopened.encode hbr hv
    split
    · exact refers_fail.2 hopened
    · split
      · next heq =>
        rw [heq] at hentries
        exact refers_fail.2 (hopened.withArena hentries)
      · next heq =>
        rw [heq] at hentries
        exact (hopened.withArena hentries).startEngine (by simp [Purpose.values]) _ _

lemma Keeps.operateStep (h : s.Keeps P) {op : Operation} (hop : ∀ v ∈ op.values, v.Only P) :
    (s.operateStep b op).Refers P := by
  cases op with
  | evaluate script => exact h.call _ _
  | getVariable name =>
    unfold Session.operateStep
    dsimp only
    split
    · exact refers_fail.2 h
    · exact h.call _ _
  | setVariable name v =>
    unfold Session.operateStep
    dsimp only
    split
    · exact refers_fail.2 h
    · have hheld : (s.push (.held [v])).Keeps P := keeps_push.2 ⟨hop, h⟩
      exact hheld.exchange _ (List.forall_mem_singleton.1 hop) _
  | member target name access =>
    unfold Session.operateStep
    dsimp only
    split
    · exact refers_fail.2 h
    · split
      · exact refers_fail.2 h
      · have hops := List.forall_mem_cons.1 hop
        have hheld : (s.push (.held (access.values ++ [.foreign target]))).Keeps P :=
          keeps_push.2 ⟨List.forall_mem_append.2 ⟨hops.2, by simpa using hops.1⟩, h⟩
        cases access with
        | get => exact hheld.call _ _
        | set v => exact hheld.exchange _ (List.forall_mem_singleton.1 hops.2) _
        | invoke args => exact hheld.exchange _ (only_array.2 hops.2) _
  | flush =>
    have hopened : (s.push (.scope b)).Keeps P :=
      keeps_push.2 ⟨by simp [Frame.Fits, Frame.values], h⟩
    unfold Session.operateStep
    dsimp only
    split
    · exact refers_fail.2 hopened
    · exact hopened.startEngine (by simp [Purpose.values]) _ _

/-- The foreign objects that come of a record are the only references that are new. -/
lemma Keeps.decodeStep (h : s.Keeps P) {r : Wire.Record}
    (hnew : ∀ k, s.core? b = some k →
      ∀ f ∈ foreignsOfResult (decode b k.arena s.nextLease r).result, P.ref (.foreign f)) :
    (s.decodeStep b r).Refers P := by
  unfold Session.decodeStep
  split
  · exact refers_finish.2 h
  · next br hbr =>
    refine refers_iff.2 ⟨{ h with }, ?_⟩
    have hforeign := hnew br.core (core?_of_bridge? hbr)
    change ∀ v ∈ outcomeValues (decode b br.arena s.nextLease r).result, v.Only P
    cases hresult : (decode b br.arena s.nextLease r).result with
    | error f => simp [outcomeValues]
    | ok v =>
      refine List.forall_mem_singleton.2 (only_iff.2 ⟨fun o ho => ?_, fun f hf => ?_⟩)
      · exact h.entries_of_bridge? hbr _ (mem_objects_of_decode _ r hresult ho) o rfl
      · refine hforeign f ?_
        rw [show br.core.arena = br.arena from rfl, hresult, foreignsOfResult_ok]
        exact hf

lemma Keeps.performStep (h : s.Keeps P) {tasks : List Task} {heard : List Heard}
    {result : Except Fault HostValue} (hr : ∀ v ∈ outcomeValues result, v.Only P) :
    (s.performStep b tasks heard result).Refers P := by
  unfold Session.performStep
  split
  · split
    · exact refers_iff.2 ⟨{ h with }, hr⟩
    · exact refers_fail.2 h
  · next handle rest =>
    split
    · exact refers_goto.2 ⟨h, hr⟩
    · have hpaused : (s.push (.interrupted (.perform b rest heard result))).Keeps P :=
        keeps_push.2 ⟨hr, h⟩
      exact hpaused.startEngine (by simp [Purpose.values]) _ _
  · next handle name rest =>
    split
    · exact refers_goto.2 ⟨h, hr⟩
    · exact h.startEngine (p := .member handle name rest heard result) hr _ _

lemma Keeps.takeReply (h : s.Keeps P) {purpose : Purpose}
    (hp : ∀ v ∈ purpose.values, v.Only P) (r : Wire.Record) :
    (s.takeReply b purpose r).Refers P := by
  cases purpose with
  | value => exact refers_goto.2 ⟨h, by simp [Control.Fits, Control.values]⟩
  | nothing => exact refers_finish.2 h
  | member thrown name tasks heard result => exact refers_goto.2 ⟨h, hp⟩

/-! ### Slots -/

lemma Keeps.unpin (h : s.Keeps P) (slot : Wire.Slot) {next : Control} (hn : next.Fits P)
    (hentry : ∀ e, s.entryOf? b slot = some e → P.entry e) : (s.unpin b slot next).Refers P := by
  unfold Session.unpin
  split
  · exact refers_goto.2 ⟨h, hn⟩
  · next entry a htake =>
    obtain ⟨br, hb, htake⟩ := Option.bind_eq_some_iff.1 htake
    have hget : s.entryOf? b slot = some entry :=
      Option.bind_eq_some_iff.2 ⟨br, hb, Table.Arena.get?_of_take htake⟩
    refine refers_goto.2 ⟨keeps_push.2 ⟨hn, h.withArena fun e he => ?_⟩, ?_⟩
    · exact h.entries_of_bridge? hb e (Table.Arena.mem_values_of_take htake he)
    · exact List.forall_mem_singleton.2 ⟨h.fits_entryOf? hget, hentry entry hget⟩

lemma Keeps.removeSlot (h : s.Keeps P) (slot : Wire.Slot) {next : Control} (hn : next.Fits P)
    (hentry : s.inCall b = false → ∀ e, s.entryOf? b slot = some e → P.entry e) :
    (s.removeSlot b slot next).Refers P := by
  unfold Session.removeSlot
  dsimp only
  split
  · exact refers_goto.2 ⟨(h.record _).updateBridge_of_arena fun _ => rfl, hn⟩
  · next hcall =>
    refine (h.record _).unpin slot hn fun e he => hentry (Bool.eq_false_iff.2 hcall) e ?_
    unfold entryOf? at he ⊢
    rw [Session.record, bridge?_updateBridge, if_pos rfl, Option.bind_map] at he
    exact he

lemma Keeps.drainStep (h : s.Keeps P) (slots : List Wire.Slot)
    (hentry : ∀ slot rest, slots = slot :: rest →
      ∀ e, s.entryOf? b slot = some e → P.entry e) : (s.drainStep b slots).Refers P := by
  cases slots with
  | cons slot rest =>
    exact h.unpin slot (by simp [Control.Fits, Control.values]) (hentry slot rest rfl)
  | nil =>
    unfold Session.drainStep
    dsimp only
    split
    · exact refers_finish.2 h
    · exact refers_goto.2
        ⟨h.updateBridge_of_arena fun _ => rfl, by simp [Control.Fits, Control.values]⟩

lemma Keeps.leaveScope (h : s.Keeps P) {r : Outcome} (hr : ∀ v ∈ outcomeValues r, v.Only P) :
    (s.leaveScope b r).Refers P := by
  unfold Session.leaveScope
  split
  · exact refers_goto.2 ⟨h, hr⟩
  · exact refers_goto.2 ⟨keeps_push.2 ⟨hr, h⟩, by simp [Control.Fits, Control.values]⟩

/-- Runs the dispose hook of an object: its entry in the log, and then its host code. -/
def runHook (s : Session) (o : HostObject) : Session :=
  let s := if (s.typeOf o).logged then s.log (s.identOf o) else s
  match (s.typeOf o).hook with
  | none => s
  | some a => ((s.push (.interrupted s.control)).push (.hook o)).goto (.act a ⟨o, [], .null⟩)

lemma runHook_of_none {o : HostObject} (h : (s.typeOf o).hook = none) :
    s.runHook o = if (s.typeOf o).logged then s.log (s.identOf o) else s := by
  unfold runHook
  cases (s.typeOf o).logged with
  | false => simp only [Bool.false_eq_true, if_false, h]
  | true => simp only [if_true, show ((s.log (s.identOf o)).typeOf o).hook = none from h]

lemma runHook_of_some {o : HostObject} {a : Action} (h : (s.typeOf o).hook = some a) :
    (s.runHook o).control = .act a ⟨o, [], .null⟩ ∧
      (s.runHook o).frames = .hook o :: .interrupted s.control :: s.frames := by
  unfold runHook
  cases (s.typeOf o).logged with
  | false =>
    simp only [Bool.false_eq_true, if_false, h]
    exact ⟨rfl, rfl⟩
  | true =>
    simp only [if_true, show ((s.log (s.identOf o)).typeOf o).hook = some a from h]
    exact ⟨rfl, rfl⟩

/-- An object that only the entry that is let go of still refers to is disposed. -/
lemma releaseStep_cons (s : Session) (entry : Entry) (rest : List Entry) :
    s.releaseStep (entry :: rest) =
      match entry.target? with
      | none => s.goto (.release rest)
      | some o =>
        if (s.goto (.release rest)).refersTo o then s.goto (.release rest)
        else (s.goto (.release rest)).runHook o := rfl

lemma Refers.runHook (h : s.Refers P) {o : HostObject} (hhook : P.hook o)
    (hlog : (s.typeOf o).logged = true → P.log (s.identOf o :: s.disposed)) :
    (s.runHook o).Refers P := by
  have hlogged : (if (s.typeOf o).logged = true then s.log (s.identOf o) else s).Refers P := by
    split
    · next hl => exact ⟨{ h.keeps with log := hlog hl }, h.control⟩
    · exact h
  unfold Session.runHook
  dsimp only
  split
  · exact hlogged
  · exact refers_goto.2 ⟨keeps_push.2 ⟨hhook, keeps_push.2 ⟨hlogged.control, hlogged.keeps⟩⟩,
      by simp [Control.Fits, Scene.given]⟩

lemma Keeps.releaseStep (h : s.Keeps P) {entries : List Entry}
    (hentries : ∀ e ∈ entries, e.Fits P ∧ P.entry e)
    (hdispose : ∀ entry rest o, entries = entry :: rest → entry.target? = some o →
      (s.goto (.release rest)).refersTo o = false →
      P.hook o ∧ ((s.typeOf o).logged = true → P.log (s.identOf o :: s.disposed))) :
    (s.releaseStep entries).Refers P := by
  cases entries with
  | nil => exact refers_finish.2 h
  | cons entry rest =>
    have hrest : (s.goto (.release rest)).Refers P :=
      refers_goto.2 ⟨h, (List.forall_mem_cons.1 hentries).2⟩
    rw [releaseStep_cons]
    split
    · exact hrest
    · next o ho =>
      split
      · exact hrest
      · next hshared =>
        obtain ⟨hhook, hlog⟩ := hdispose entry rest o rfl ho (Bool.eq_false_iff.2 hshared)
        exact hrest.runHook hhook hlog

lemma Keeps.disposeStep (h : s.Keeps P) : (s.disposeStep b).Refers P := by
  unfold Session.disposeStep
  split
  · exact refers_finish.2 h
  · split
    · exact refers_finish.2 h
    · exact refers_goto.2
        ⟨h.updateBridge_of_arena fun _ => rfl, by simp [Control.Fits, Control.values]⟩

lemma Keeps.teardownStep (h : s.Keeps P) (slots : List Wire.Slot)
    (hentry : ∀ slot rest, slots = slot :: rest → s.inCall b = false →
      ∀ e, s.entryOf? b slot = some e → P.entry e)
    (hall : slots = [] → ∀ br, s.bridge? b = some br → ∀ e ∈ br.arena.values, P.entry e) :
    (s.teardownStep b slots).Refers P := by
  cases slots with
  | cons slot rest =>
    exact h.removeSlot slot (by simp [Control.Fits, Control.values]) (hentry slot rest rfl)
  | nil =>
    unfold Session.teardownStep
    dsimp only
    split
    · exact refers_finish.2 h
    · next br hbr =>
      refine refers_goto.2 ⟨keeps_push.2 ⟨by simp [Frame.Fits, Control.Fits, Control.values],
        h.updateBridge fun _ _ e he => by cases he⟩, fun e he => ?_⟩
      exact ⟨h.entries_of_bridge? hbr e he, hall rfl br hbr e he⟩

/-! ### Callbacks -/

lemma Keeps.readObject (h : s.Keeps P) {o : HostObject} (ho : P.ref (.object o))
    (name : String) : (s.readObject b o name).Refers P := by
  have hdescribed := h.describe (b := b) o.type
  unfold Session.readObject
  dsimp only
  split
  · split
    · exact refers_refuse.2 hdescribed
    · refine refers_goto.2 ⟨keeps_push.2 ⟨?_, hdescribed⟩, ?_⟩
      · simpa [Frame.Fits, Frame.values] using ho
      · simp [Control.Fits, Scene.given]
  · split
    · split
      · exact refers_finish.2 hdescribed
      · next br hbr =>
        refine refers_goto.2 ⟨hdescribed.withArena fun e he => ?_, by
          simp [Control.Fits, Control.values]⟩
        rcases mem_values_of_pin he with rfl | he
        · intro p hp
          cases hp
          exact ho
        · exact hdescribed.entries_of_bridge? hbr e he
    · exact refers_refuse.2 hdescribed

lemma Keeps.readProperty (h : s.Keeps P) (slot : Wire.Slot) (name : String) :
    (s.readProperty b slot name).Refers P := by
  have htext : ∀ text, (s.goto (.respond b (.ok (.string text)))).Refers P := fun text =>
    refers_goto.2 ⟨h, by simp [Control.Fits, Control.values, outcomeValues]⟩
  unfold Session.readProperty
  split
  · exact refers_refuse.2 h
  · next hentry => exact h.readObject (h.fits_entryOf? hentry _ rfl) _
  · split
    · exact htext _
    · exact refers_refuse.2 h
  · split
    · exact htext _
    · split
      · exact htext _
      · exact refers_refuse.2 h

lemma Keeps.writeProperty (h : s.Keeps P) (slot : Wire.Slot) (name : String) (r : Wire.Record) :
    (s.writeProperty b slot name r).Refers P := by
  unfold Session.writeProperty
  split
  · exact refers_refuse.2 h
  · next o hentry =>
    have hdescribed := h.describe (b := b) o.type
    dsimp only
    split
    · refine refers_goto.2 ⟨keeps_push.2 ⟨?_, hdescribed⟩, by simp [Control.Fits, Control.values]⟩
      simpa [Frame.Fits, Frame.values] using h.fits_entryOf? hentry o rfl
    · exact refers_refuse.2 hdescribed
  · exact refers_refuse.2 h

lemma Keeps.callEntry (h : s.Keeps P) (slot : Wire.Slot) (r : Wire.Record) :
    (s.callEntry b slot r).Refers P := by
  unfold Session.callEntry
  split
  · exact refers_refuse.2 h
  · next o name hentry =>
    refine refers_goto.2 ⟨keeps_push.2 ⟨?_, h⟩, by simp [Control.Fits, Control.values]⟩
    simpa [Frame.Fits, Frame.values] using h.fits_entryOf? hentry o rfl
  · exact refers_refuse.2 h

lemma Keeps.change (h : s.Keeps P) {o : HostObject} {f : Frame} {a : Action} {scene : Scene}
    (hf : f.Fits P) (hscene : ∀ v ∈ scene.given, v.Only P) :
    (s.change b o f a scene).Refers P := by
  unfold Session.change
  split
  · exact refers_refuse.2 h
  · exact refers_goto.2 ⟨keeps_push.2 ⟨hf, h⟩, hscene⟩

lemma Keeps.callMethod (h : s.Keeps P) {o : HostObject} (ho : P.ref (.object o)) (name : String)
    (hv : v.Only P) : (s.callMethod b o name v).Refers P := by
  have hargs : ∀ w ∈ v.asArray.getD [v], w.Only P := by
    cases harray : v.asArray with
    | none => simpa using hv
    | some items => exact only_of_asArray harray hv
  have hdescribed := h.describe (b := b) o.type
  unfold Session.callMethod
  dsimp only
  split
  · exact refers_refuse.2 hdescribed
  · exact hdescribed.change (List.forall_mem_append.2 ⟨hargs, by simpa using ho⟩)
      (List.forall_mem_cons.2 ⟨only_null, hargs⟩)

lemma Keeps.respondStep (h : s.Keeps P) {r : Except HostError HostValue}
    (hr : ∀ v ∈ outcomeValues r, v.Only P) : (s.respondStep b r).Refers P := by
  unfold Session.respondStep
  split
  · exact refers_goto.2 ⟨h, by simp [Control.Fits, Control.values]⟩
  · split
    · exact refers_finish.2 h
    · next br hbr =>
      exact refers_goto.2 ⟨h.withArena (h.encode hbr (List.forall_mem_singleton.1 hr)),
        by simp [Control.Fits, Control.values]⟩

/-- A failure that is kept alive refers to no host object. -/
lemma mem_values_of_failureRecord {a : Table.Arena Entry} {e : HostError} {entry : Entry}
    (h : entry ∈ (failureRecord a e).2.values) : entry.target? = none ∨ entry ∈ a.values := by
  unfold failureRecord at h
  split at h
  · exact .inr h
  · split at h <;> next heq =>
      exact (mem_values_of_pin (by rw [heq]; exact h)).imp_left fun hentry => by rw [hentry]; rfl

lemma Keeps.answerStep (h : s.Keeps P) (r : Except HostError Wire.Record) :
    (s.answerStep b r).Refers P := by
  unfold Session.answerStep
  split
  · exact refers_finish.2 h
  · next br hbr =>
    have hentries := h.entries_of_bridge? hbr
    refine refers_goto.2 ⟨h.updateBridge fun _ _ e he => ?_, by simp [Control.Fits, Control.values]⟩
    cases r with
    | ok r => exact hentries e he
    | error err =>
      rcases mem_values_of_failureRecord he with hnone | he
      · intro o ho
        rw [hnone] at ho
        cases ho
      · exact hentries e he

lemma Refers.engineStep (h : s.Refers P)
    (hentry : ∀ e slot, s.engine? b = some e → e.step.2 = .removed slot → s.inCall b = false →
      ∀ entry, s.entryOf? b slot = some entry → P.entry entry) :
    (s.engineStep b).Refers P := by
  unfold Session.engineStep
  split
  · exact refers_finish.2 h.keeps
  · next e he =>
    have hstepped : (s.updateBridge b ({ · with engine := some e.step.1 })).Refers P :=
      h.updateBridge_of_arena fun _ => rfl
    have hkept : ∀ slot, (s.updateBridge b ({ · with engine := some e.step.1 })).entryOf? b slot =
        s.entryOf? b slot := fun slot => by
      rw [entryOf?, bridge?_updateBridge, if_pos rfl, Option.bind_map]
      rfl
    dsimp only
    split
    · exact hstepped
    · next slot hslot =>
      refine hstepped.keeps.removeSlot _ (by simp [Control.Fits, Control.values])
        fun hcall entry hget => ?_
      exact hentry e slot he hslot hcall entry ((hkept slot).symm.trans hget)
    · next req _ =>
      cases req with
      | get slot name => exact (hstepped.keeps.record _).readProperty slot name
      | set slot name r => exact (hstepped.keeps.record _).writeProperty slot name r
      | invoke slot r => exact (hstepped.keeps.record _).callEntry slot r
    · generalize s.updateBridge b ({ · with engine := some e.step.1 }) = u at hstepped
      unfold takeFinished
      split
      · next c purpose rest hframes =>
        obtain ⟨hp, hrest⟩ := hstepped.keeps.pop hframes
        exact hrest.takeReply hp _
      · exact refers_finish.2 hstepped.keeps

/-! ### Outcomes -/

lemma only_outcome {r : Outcome} (hr : ∀ v ∈ outcomeValues r, v.Only P) :
    (∀ fallible, ∀ v ∈ outcomeValues (getterResult fallible r), v.Only P) ∧
    (∀ v ∈ outcomeValues (setterResult r), v.Only P) ∧
    (∀ v ∈ outcomeValues (seenByScript r), v.Only P) ∧
    ∀ v ∈ outcomeValues (reported r), v.Only P := by
  cases r with
  | ok v => exact ⟨fun fallible => by cases fallible <;> exact hr, by
      simp [setterResult, seenByScript, Except.mapError, Except.map, outcomeValues], hr, hr⟩
  | error f =>
    refine ⟨fun fallible => ?_, ?_, ?_, ?_⟩
    · cases f <;> cases fallible <;>
        simp [getterResult, seenByScript, Except.mapError, outcomeValues]
    · simp [setterResult, seenByScript, Except.mapError, Except.map, outcomeValues]
    · simp [seenByScript, Except.mapError, outcomeValues]
    · cases f <;> simp [reported, outcomeValues]

lemma Keeps.doneStep (h : s.Keeps P) {f : Frame} {r : Outcome} (hf : f.Fits P)
    (hr : ∀ v ∈ outcomeValues r, v.Only P)
    (hlog : ∀ o e, f = .hook o → hookFailure? r = some e →
      P.log ((s.identOf o ++ "! " ++ e.message) :: s.disposed)) : (s.doneStep f r).Refers P := by
  have hdone : ∀ r' : Outcome, (∀ v ∈ outcomeValues r', v.Only P) →
      (s.goto (.done r')).Refers P := fun r' hr' => refers_goto.2 ⟨h, hr'⟩
  have herror : ∀ e, (s.goto (.done (.error e))).Refers P := fun e =>
    hdone _ (by simp [outcomeValues])
  obtain ⟨hgetter, hsetter, hseen, hreported⟩ := only_outcome hr
  cases f with
  | interrupted ctl => exact refers_goto.2 ⟨h, hf⟩
  | held | pausing | keeping | running | borrowed => exact hdone r hr
  | scope c => exact h.leaveScope hr
  | reporting => exact hdone _ hreported
  | getting c o fallible => exact refers_goto.2 ⟨h, hgetter fallible⟩
  | setting c o v => exact refers_goto.2 ⟨h, hsetter⟩
  | calling c o args => exact refers_goto.2 ⟨h, hseen⟩
  | assignee c o setter =>
    cases r with
    | error e => exact refers_refuse.2 h
    | ok v =>
      have hv : v.Only P := by simpa [outcomeValues] using hr
      have ho : P.ref (.object o) := only_object.1 (List.forall_mem_singleton.1 hf)
      refine h.change ?_ ?_
      · simp [Frame.Fits, Frame.values, hv, ho]
      · simp [Scene.given, hv]
  | callee c o name =>
    cases r with
    | error e => exact refers_refuse.2 h
    | ok v =>
      exact h.callMethod (only_object.1 (List.forall_mem_singleton.1 hf)) name
        (by simpa [outcomeValues] using hr)
  | hook o =>
    unfold Session.doneStep
    dsimp only
    split
    · exact refers_finish.2 h
    · next e he => exact refers_finish.2 { h with log := hlog o e rfl he }
  | sequence rest last scene =>
    obtain ⟨-, hscene⟩ := hf
    cases r with
    | error e => exact herror e
    | ok v =>
      have hv : v.Only P := by simpa [outcomeValues] using hr
      exact h.actFirst rest (refers_give.2 ⟨h, hv⟩) hscene fun rest => ⟨hv, hscene⟩
  | listing rest results scene =>
    obtain ⟨hresults, hscene⟩ := hf
    cases r with
    | error e => exact herror e
    | ok v =>
      have hv : v.Only P := by simpa [outcomeValues] using hr
      have hall : ∀ w ∈ v :: results, w.Only P := List.forall_mem_cons.2 ⟨hv, hresults⟩
      exact h.actFirst rest
        (refers_give.2 ⟨h, only_array.2 fun w hw => hall w (List.mem_reverse.1 hw)⟩) hscene
        fun rest => ⟨hall, hscene⟩
  | attempting =>
    unfold Session.doneStep
    dsimp only
    split
    · exact refers_give.2 ⟨h, only_string _⟩
    · exact refers_give.2 ⟨h, only_string _⟩
    · exact hdone r hr

/-! ### Steps -/

/-- What is about to be done gives up a slot of a bridge. -/
inductive Removes (s : Session) (b : Nat) (slot : Wire.Slot) : Prop
  /-- Script has let go of the slot outside of all operations. -/
  | reported {e : Engine} (hc : s.control = .engine b) (he : s.engine? b = some e)
    (hr : e.step.2 = .removed slot) (hi : s.inCall b = false)
  /-- Script has let go of the slot during an operation. -/
  | deferred {slots : List Wire.Slot} (ht : s.tidy? = none)
    (hc : s.control = .drain b (slot :: slots))
  /-- The engine has been torn down. -/
  | torn {slots : List Wire.Slot} (ht : s.tidy? = none)
    (hc : s.control = .teardown b (slot :: slots)) (hi : s.inCall b = false)

/-- What is about to be done takes an entry out of its arena, to let go of it: its slot is given
up, or its bridge is disposed. -/
inductive Yields (s : Session) (entry : Entry) : Prop
  /-- Its slot is given up. -/
  | removal {b : Nat} {slot : Wire.Slot} (h : s.Removes b slot)
    (he : s.entryOf? b slot = some entry)
  /-- Its bridge is disposed. -/
  | disposal {b : Nat} {br : Bridge} (ht : s.tidy? = none) (hc : s.control = .teardown b [])
    (hb : s.bridge? b = some br) (he : entry ∈ br.arena.values)

/-- What is about to be done lets go of an entry, and nothing but this entry refers to its host
object any more. -/
structure Disposes (s : Session) (o : HostObject) : Prop where
  tidy : s.tidy? = none
  control : ∃ entry rest, s.control = .release (entry :: rest) ∧ entry.target? = some o ∧
    (s.goto (.release rest)).refersTo o = false

/-- What the log of the dispose hooks becomes where it does not stay as it is. -/
inductive Logs (s : Session) : List String → Prop
  /-- An object is disposed. -/
  | disposal {o : HostObject} (h : s.Disposes o) (hl : (s.typeOf o).logged = true) :
    Logs s (s.identOf o :: s.disposed)
  /-- A dispose hook has failed. -/
  | failure {o : HostObject} {r : Outcome} {rest : List Frame} {e : HostError}
    (hc : s.control = .done r) (hs : s.frames = .hook o :: rest) (he : hookFailure? r = some e) :
    Logs s ((s.identOf o ++ "! " ++ e.message) :: s.disposed)
  /-- A command begins. -/
  | command (hr : s.step? = none) : Logs s []

/-- What is new in a session after something has happened may be found in it. -/
structure Admits (P : Stock) (s s' : Session) : Prop where
  brings : s.tidy? = none → ∀ b r k, s.control = .decode b r → s.core? b = some k →
    ∀ f ∈ foreignsOfResult (decode b k.arena s.nextLease r).result, P.ref (.foreign f)
  allots : Allots P s s'
  yields : ∀ entry, s.Yields entry → P.entry entry
  disposes : ∀ o, s.Disposes o → P.hook o
  logs : ∀ log, s.Logs log → P.log log

lemma nextObject_lettingGo (before s : Session) :
    (before.lettingGo s).nextObject = s.nextObject := by
  rcases lettingGo_eq before s with heq | ⟨-, vs, -, heq⟩ <;> rw [heq]
  rfl

lemma Refers.tidy? {t : Session} (h : s.Refers P) (ht : s.tidy? = some t) : t.Refers P := by
  unfold Session.tidy? at ht
  split at ht
  · cases ht
    refine Refers.interrupt (h.updateBridge_of_arena fun _ => rfl)
      (show (Control.dispose _).Fits P from ?_)
    simp [Control.Fits, Control.values]
  · split at ht
    · cases ht
      exact ⟨h.keeps.updateBridge fun _ _ e he => (by cases he), h.control⟩
    · split at ht
      · next f _ =>
        cases ht
        have hless : ({ s with leases := s.leases.filter fun g => g.lease ≠ f.lease } :
            Session).Refers P := refers_iff.2 ⟨{ h.keeps with }, h.control⟩
        unfold endLease
        dsimp only
        split
        · exact hless
        · have hpaused : ({ s with leases := s.leases.filter fun g => g.lease ≠ f.lease }.push
              (.interrupted s.control)).Keeps P := keeps_push.2 ⟨hless.control, hless.keeps⟩
          exact hpaused.startEngine (by simp [Purpose.values]) _ _
      · obtain ⟨st, hst, rfl⟩ := Option.map_eq_some_iff.1 ht
        have hfields := h.keeps.fields st (List.mem_of_find?_eq_some hst)
        have hless : ({ s with
            objects := s.objects.filter fun other => !other.object.same st.object } :
            Session).Refers P :=
          ⟨{ h.keeps with
            fields := fun other hother => h.keeps.fields other (List.mem_of_mem_filter hother) },
            h.control⟩
        unfold forgetObject
        dsimp only
        split
        · exact hless
        · refine hless.interrupt ?_
          simp only [Control.Fits, List.forall_mem_map]
          exact fun e he => (hfields e ((List.mergeSort_perm ..).subset he)).loose

lemma Refers.lettingGo {before : Session} (h : s.Refers P)
    (hb : ∀ f ∈ foreignsOf before.values, P.ref (.foreign f)) : (before.lettingGo s).Refers P := by
  have hlost : ∀ w ∈ referencesOf before.values, w.Loose P := fun w hw f hf => by
    rcases mem_referencesOf_cases _ hw with ⟨o, rfl⟩ | ⟨g, rfl⟩
    · cases hf
    · obtain rfl := List.mem_singleton.1 hf
      exact hb f ((foreign_mem_referencesOf _).1 hw)
  rcases lettingGo_eq before s with heq | ⟨-, vs, hvs, heq⟩
  · rw [heq]
    exact h
  · rw [heq]
    exact h.interrupt fun w hw => hlost w (hvs hw)

lemma Refers.proceed? {t : Session} (h : s.Refers P) (htidy : s.tidy? = none)
    (hnew : Admits P s t) (ht : s.proceed? = some t) : t.Refers P := by
  have hc := h.control
  unfold Session.proceed? at ht
  split at ht
  · next r hdone =>
    rw [hdone] at hc
    split at ht
    · cases ht
    · cases ht
    · next f rest hframes =>
      cases ht
      obtain ⟨hf, hrest⟩ := h.keeps.pop hframes
      exact hrest.doneStep hf hc fun o e hfo he =>
        hnew.logs _ (.failure hdone (hfo ▸ hframes) he)
  · next hact =>
    cases ht
    rw [hact] at hc
    exact h.keeps.actStep hc _ hnew.allots
  · next hop =>
    cases ht
    rw [hop] at hc
    exact h.keeps.operateStep hc
  · next hengine =>
    cases ht
    exact h.engineStep fun e slot he hr hi entry hget =>
      hnew.yields _ (.removal (.reported hengine he hr hi) hget)
  · next c r hdecode =>
    cases ht
    exact h.keeps.decodeStep fun k hk => hnew.brings htidy c r k hdecode hk
  · next hperform =>
    cases ht
    rw [hperform] at hc
    exact h.keeps.performStep hc
  · next hrespond =>
    cases ht
    rw [hrespond] at hc
    exact h.keeps.respondStep hc
  · cases ht; exact h.keeps.answerStep _
  · next hdrain =>
    cases ht
    refine h.keeps.drainStep _ fun slot rest heq e he => ?_
    exact hnew.yields e (.removal (.deferred htidy (heq ▸ hdrain)) he)
  · next hrelease =>
    cases ht
    rw [hrelease] at hc
    refine h.keeps.releaseStep hc fun entry rest o heq ho hlast => ?_
    have hdisposes : s.Disposes o := ⟨htidy, entry, rest, heq ▸ hrelease, ho, hlast⟩
    exact ⟨hnew.disposes o hdisposes, fun hl => hnew.logs _ (.disposal hdisposes hl)⟩
  · cases ht; exact h.keeps.disposeStep
  · next hteardown =>
    cases ht
    refine h.keeps.teardownStep _ (fun slot rest heq hi e he => ?_) fun heq br hb e he => ?_
    · exact hnew.yields e (.removal (.torn htidy (heq ▸ hteardown) hi) he)
    · exact hnew.yields e (.disposal htidy (heq ▸ hteardown) hb he)
  · cases ht
    exact refers_finish.2 (h.keeps.updateBridge_of_arena fun _ => rfl)
  · cases ht; exact refers_finish.2 h.keeps
  · next v rest hdrop =>
    cases ht
    rw [hdrop] at hc
    exact refers_goto.2 ⟨h.keeps, (List.forall_mem_cons.1 hc).2⟩

lemma Refers.step? (h : s.Refers P) (hnew : Admits P s s') (hs : s.step? = some s') :
    s'.Refers P := by
  unfold Session.step? at hs
  split at hs
  · next hengine =>
    cases hs
    exact h.engineStep fun e slot he hr hi entry hget =>
      hnew.yields _ (.removal (.reported hengine he hr hi) hget)
  · cases htidy : s.tidy? with
    | some u =>
      rw [htidy] at hs
      cases hs
      exact h.tidy? htidy
    | none =>
      rw [htidy] at hs
      obtain ⟨t, ht, rfl⟩ := Option.map_eq_some_iff.1 hs
      refine (h.proceed? htidy { hnew with allots := fun o hle hlt => ?_ } ht).lettingGo h.loose
      exact hnew.allots o hle (Nat.lt_of_lt_of_eq hlt (nextObject_lettingGo s t).symm)

/-! ### Commands -/

lemma Keeps.start {c : Command} {form : Form} {t : Session} (h : s.Keeps P)
    (hnew : Allots P s t) (ht : s.start b c = some (t, form)) : t.Refers P := by
  have hbuilds : ∀ {u : Session}, u.Keeps P → ∀ t : Template, Allots P u (u.build t).2 →
      (giveMade (u.build t)).Refers P := fun h t hnew =>
    refers_give.2 (keeps_build _ t hnew h).symm
  cases c with
  | evaluate script =>
    cases ht
    exact refers_goto.2 ⟨h, by simp [Control.Fits, Control.values, Operation.values]⟩
  | getVariable name =>
    cases ht
    exact refers_goto.2 ⟨h, by simp [Control.Fits, Control.values, Operation.values]⟩
  | setVariable name v =>
    cases ht
    have hmade := keeps_build s v hnew h
    exact refers_goto.2
      ⟨hmade.2, by simpa [Control.Fits, Control.values, Operation.values] using hmade.1⟩
  | member direct on name access =>
    unfold Session.start startMember at ht
    dsimp only at ht
    split at ht
    · next f hf =>
      have hle := nextObject_le_buildAccess (s.build on).2 access
      have hlast : t.nextObject = ((s.build on).2.buildAccess access).2.nextObject := by
        cases ht
        split
        · rfl
        · rw [nextObject_gotoMember]
          rfl
      have hon := keeps_build s on
        (fun o hlo hlt => hnew o hlo (Nat.lt_of_lt_of_le hlt (hlast ▸ hle))) h
      have haccess := hon.2.buildAccess access fun o hlo hlt =>
        hnew o (Nat.le_trans (nextObject_le_build s on) hlo) (hlast ▸ hlt)
      cases ht
      rw [hf] at hon ⊢
      have hvalues := List.forall_mem_cons.2 ⟨hon.1, haccess.1⟩
      have hheld : ((s.build on).2.buildAccess access).2.push
          (.held (((s.build on).2.buildAccess access).1.values ++ [.foreign f])) |>.Keeps P :=
        keeps_push.2 ⟨List.forall_mem_append.2 ⟨haccess.1, by simpa using hon.1⟩, haccess.2⟩
      split
      · exact refers_goto.2 ⟨hheld, hvalues⟩
      · exact hheld.gotoMember f hvalues
    · cases ht
  | flush =>
    cases ht
    exact refers_goto.2 ⟨h, by simp [Control.Fits, Control.values, Operation.values]⟩
  | dispose => cases ht; exact refers_goto.2 ⟨h, by simp [Control.Fits, Control.values]⟩
  | isDisposed => cases ht; exact refers_give.2 ⟨h, only_bool _⟩
  | resetCrossings => cases ht; exact refers_finish.2 (h.updateBridge_of_arena fun _ => rfl)
  | dropBridge =>
    cases ht
    refine refers_finish.2 ?_
    unfold leaveBridge
    split
    · exact h.updateBridge_of_arena fun _ => rfl
    · exact h
  | make v => cases ht; exact hbuilds h v hnew
  | drop register => cases ht; exact h.dropRegister register
  | inspect v => cases ht; exact hbuilds h v hnew
  | same v w =>
    cases ht
    have hfirst := keeps_build s v
      (fun o hlo hlt => hnew o hlo (Nat.lt_of_lt_of_le hlt (nextObject_le_build _ w))) h
    have hboth := keeps_build _ w
      (fun o hlo => hnew o (Nat.le_trans (nextObject_le_build s v) hlo)) hfirst.2
    exact refers_give.2 ⟨hboth.2, only_bool _⟩
  | evaluateHolding script on exclusive =>
    have hop : (Control.operate b (.evaluate script)).Fits P := by
      simp [Control.Fits, Control.values, Operation.values]
    unfold Session.start startHolding at ht
    dsimp only at ht
    split at ht
    · next o ho =>
      have hlast : t.nextObject = (s.build on).2.nextObject := by
        split at ht <;> cases ht <;> rfl
      have hon := keeps_build s on (fun p hlo hlt => hnew p hlo (hlast ▸ hlt)) h
      split at ht <;> cases ht
      · exact refers_goto.2
          ⟨keeps_push.2 ⟨List.forall_mem_singleton.2 (ho ▸ hon.1), hon.2⟩, hop⟩
      · exact refers_goto.2 ⟨keeps_push.2 ⟨List.forall_mem_singleton.2 hon.1, hon.2⟩, hop⟩
    · cases ht

/-- A command begins with an empty log, and keeps its bridge if it needs it. -/
lemma exists_of_begin? {c : Command} {form : Form} (h : s.begin? b c = some (s', form)) :
    ∃ fresh started : Session,
      (fresh = { s with disposed := [], current := b } ∨
        fresh = ({ s with disposed := [], current := b } : Session).push (.keeping b)) ∧
      fresh.start b c = some (started, form) ∧
      s' = lettingGo { s with disposed := [], current := b } (started.push .pausing) := by
  unfold Session.begin? at h
  dsimp only at h
  obtain ⟨⟨started, form'⟩, hstart, heq⟩ := Option.map_eq_some_iff.1 h
  cases heq
  refine ⟨_, started, ?_, hstart, rfl⟩
  split
  · exact .inr rfl
  · exact .inl rfl

lemma Refers.begin? {c : Command} {form : Form} (h : s.Refers P) (hlog : P.log [])
    (hnew : Allots P s s') (hs : s.begin? b c = some (s', form)) : s'.Refers P := by
  have hfresh : ({ s with disposed := [], current := b } : Session).Refers P :=
    ⟨{ h.keeps with log := hlog }, h.control⟩
  obtain ⟨fresh, started, hbegun, hstart, rfl⟩ := exists_of_begin? hs
  have hkept : fresh.Keeps P ∧ fresh.nextObject = s.nextObject := by
    rcases hbegun with rfl | rfl
    · exact ⟨hfresh.keeps, rfl⟩
    · exact ⟨keeps_push.2 ⟨by simp [Frame.Fits, Frame.values], hfresh.keeps⟩, rfl⟩
  have hstarted := hkept.1.start (t := started) (fun o hlo hlt => hnew o (hkept.2 ▸ hlo)
    (Nat.lt_of_lt_of_eq hlt (nextObject_lettingGo _ (started.push .pausing)).symm)) hstart
  have hpausing : (started.push .pausing).Refers P :=
    ⟨keeps_push.2 ⟨by simp [Frame.Fits, Frame.values], hstarted.keeps⟩, hstarted.control⟩
  exact hpausing.lettingGo hfresh.loose

lemma Refers.conclude (h : s.Refers P) (save : Option String) : (s.conclude save).Refers P := by
  have hresume : s.resume.Keeps P := by
    unfold resume
    split
    · next rest hframes => exact (h.keeps.pop hframes).2
    · exact h.keeps
  have houtcome : ∀ v, s.outcome = .ok v → v.Only P := by
    intro v hv
    unfold outcome at hv
    split at hv
    · next r hdone =>
      have hc := h.control
      rw [hdone] at hc
      cases r with
      | ok w => cases hv; exact List.forall_mem_singleton.1 hc
      | error e => cases hv
    · cases hv
      exact only_null
  refine Refers.lettingGo ?_ h.loose
  unfold settle
  split
  · next name v hv => exact refers_finish.2 (hresume.setRegister (houtcome v hv) name)
  · exact refers_finish.2 hresume

/-- **Whatever happens, nothing gets into a session but what is admitted.** -/
theorem Goes.refers (h : Goes s s') (hs : s.Refers P) (hnew : Admits P s s') :
    s'.Refers P := by
  cases h with
  | steps h => exact hs.step? hnew h
  | begins hr hf hbridge h => exact hs.begin? (hnew.logs _ (.command hr)) hnew.allots h
  | concludes save hr hf h => exact h ▸ hs.conclude save

end ScriptBridge.Session
