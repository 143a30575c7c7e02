/-
# Operations and callbacks in alike sessions

Operations, the slots that script lets go of, and callbacks leave two sessions alike, as long as
the slots that are looked up are occupied and those that are handed out have been foreseen.
-/
import ScriptBridge.Proofs.Session.Alike
import ScriptBridge.Proofs.Session.Deferred
import ScriptBridge.Proofs.Session.Entries

namespace ScriptBridge

open ScriptBridge.Bridge ScriptBridge.Host ScriptBridge.Script ScriptBridge.Table
open ScriptBridge.Wire

namespace Engine

variable (f : Slot → Slot) (e : Engine)

@[simp] lemma rename_enter (op : Operation) :
    (e.enter op).rename f = (e.rename f).enter (op.rename f) := rfl

@[simp] lemma rename_answer (r : Record) :
    (e.answer r).rename f = (e.rename f).answer (r.rename f) := rfl

end Engine

namespace Session

/-- It is known which slots the arenas of a session hand out next, where the other one hands out
the next ones. -/
def Foresees (n : Nat → Nat) (f : Nat → Slot → Slot) (s t : Session) : Prop :=
  ∀ b x y, s.bridge? b = some x → t.bridge? b = some y →
    Arena.Foresees (n b) (f b) x.arena y.arena

/-- The same entry, or none, is at a slot of a bridge in both sessions. -/
def SameAt (f : Nat → Slot → Slot) (s t : Session) (b : Nat) (slot : Slot) : Prop :=
  s.entryOf? b (f b slot) = t.entryOf? b slot

variable {f : Nat → Slot → Slot} {s t : Session} {b : Nat} {n : Nat → Nat}

lemma finishOf_of_bridge? {y : Bridge} (h : t.bridge? b = some y) :
    t.finishOf b = y.arena.finish := by
  rw [finishOf, arena?, h]
  rfl

lemma finishOf_updateBridge {y : Bridge} (h : t.bridge? b = some y) (g : Bridge → Bridge) :
    (t.updateBridge b g).finishOf b = (g y).arena.finish := by
  rw [finishOf, arena?_updateBridge, if_pos rfl, h]
  rfl

lemma finishOf_startEngine (t : Session) (b : Nat) (p : Purpose) (e : Engine)
    (op : Engine.Operation) (c : Nat) : (t.startEngine b p e op).finishOf c = t.finishOf c := by
  rw [finishOf, finishOf, arena?_startEngine]

lemma Foresees.updateBridge (h : Foresees n f s t) {g g' : Bridge → Bridge}
    (hg : ∀ x, (g x).arena = x.arena) (hg' : ∀ y, (g' y).arena = y.arena) :
    Foresees n f (s.updateBridge b g) (t.updateBridge b g') := by
  intro c x y hx hy
  rw [bridge?_updateBridge] at hx hy
  split at hx
  · next heq =>
    rw [if_pos heq] at hy
    obtain ⟨x', hx', rfl⟩ := Option.map_eq_some_iff.1 hx
    obtain ⟨y', hy', rfl⟩ := Option.map_eq_some_iff.1 hy
    rw [hg, hg']
    exact h c x' y' hx' hy'
  · next hne =>
    rw [if_neg hne] at hy
    exact h c x y hx hy

lemma Foresees.record (h : Foresees n f s t) (c : Crossing) :
    Foresees n f (s.record b c) (t.record b c) :=
  h.updateBridge (fun _ => rfl) fun _ => rfl

lemma Foresees.describe (h : Foresees n f s t) (type : Nat) :
    Foresees n f (s.updateBridge b (·.describe type)) (t.updateBridge b (·.describe type)) := by
  exact h.updateBridge (Bridge.arena_describe type) (Bridge.arena_describe type)

lemma entryOf?_record (t : Session) (b : Nat) (c : Crossing) (slot : Slot) :
    (t.record b c).entryOf? b slot = t.entryOf? b slot := by
  rw [entryOf?_eq, entryOf?_eq, arena?_record]

lemma SameAt.record {slot : Slot} (h : SameAt f s t b slot) (c : Crossing) :
    SameAt f (s.record b c) (t.record b c) b slot := by
  rw [SameAt, entryOf?_record, entryOf?_record]
  exact h

namespace Alike

/-! ### Operations -/

/-- The arena of a bridge changes in both sessions. -/
lemma withArena (h : Alike f s t) {a a' : Arena Entry} (ha : Arena.Tracks (f b) a a') :
    Alike f (s.updateBridge b ({ · with arena := a }))
      (t.updateBridge b ({ · with arena := a' })) :=
  h.updateBridge fun _ _ _ _ hxy => { hxy with arena := ha }

lemma startEngine (h : Alike f s t) (b : Nat) (p : Purpose) (e : Engine) (op : Engine.Operation) :
    Alike f (s.startEngine b p (e.rename (f b)) (op.rename (f b))) (t.startEngine b p e op) :=
  ((h.updateBridge (b := b)
    (g := ({ · with engine := some ((e.rename (f b)).enter (op.rename (f b))) }))
    (k := ({ · with engine := some (e.enter op) })) fun _ _ _ _ hxy =>
      { hxy with engine := rfl }).push (.running b p)).goto (.engine b)

lemma call (h : Alike f s t) (b : Nat) (c : Crossing) {op : Engine.Operation}
    (hop : op.rename (f b) = op) : Alike f (s.call b c op) (t.call b c op) := by
  have h₁ := (h.record b c).push (.scope b)
  unfold Session.call
  dsimp only
  rw [show ((s.record b c).push (.scope b)).engine? b = _ from h₁.engine? b]
  cases ((t.record b c).push (.scope b)).engine? b with
  | none => exact h₁.fail _
  | some e =>
    have hstart := h₁.startEngine b .value e op
    rw [hop] at hstart
    exact hstart

lemma exchange (h : Alike f s t) (hf : Foresees n f s t) (hl : n b < 0x80000000) (c : Crossing)
    (v : HostValue) {op : Record → Engine.Operation}
    (hop : ∀ r, (op r).rename (f b) = op (r.rename (f b)))
    (hn : (t.exchange b c v op).finishOf b ≤ n b) :
    Alike f (s.exchange b c v op) (t.exchange b c v op) := by
  have h₁ := (h.record b c).push (.scope b)
  have hf₁ : Foresees n f ((s.record b c).push (.scope b)) ((t.record b c).push (.scope b)) :=
    hf.record c
  unfold Session.exchange at hn ⊢
  dsimp only at hn ⊢
  change Alike f ((s.record b c).push (.scope b)) ((t.record b c).push (.scope b)) at h₁
  generalize (s.record b c).push (.scope b) = s₁ at h₁ hf₁ ⊢
  generalize (t.record b c).push (.scope b) = t₁ at h₁ hf₁ hn ⊢
  rcases h₁.bridge_cases b with ⟨hs, ht⟩ | ⟨x, y, hs, ht, hxy⟩
  · rw [hs, ht]
    exact h₁.fail _
  · rw [hs, ht]
    rw [ht] at hn
    dsimp only at hn ⊢
    rw [hxy.engine]
    cases he : y.engine with
    | none => exact h₁.fail _
    | some e =>
      rw [he] at hn
      dsimp only [Option.map_some] at hn ⊢
      have hfinish : (encode b y.arena v).2.finish ≤ n b := by
        have hupdate := fun a => finishOf_updateBridge ht ({ · with arena := a })
        refine Nat.le_trans (Nat.le_of_eq ?_) hn
        split
        · next err a heq =>
          rw [heq]
          exact (hupdate a).symm
        · next r a heq =>
          rw [heq]
          exact ((finishOf_startEngine ..).trans (hupdate a)).symm
      obtain ⟨hresult, htracks, -⟩ :=
        corresponds_encode b hl hxy.arena (hf₁ b x y hs ht) v hfinish
      generalize encode b x.arena v = p at hresult htracks ⊢
      generalize encode b y.arena v = q at hresult htracks ⊢
      obtain ⟨rp, a⟩ := p
      obtain ⟨rq, a'⟩ := q
      cases rq with
      | error err =>
        cases hresult
        exact (h₁.withArena htracks).fail err
      | ok r =>
        cases hresult
        have hstart := (h₁.withArena htracks).startEngine b .value e (op r)
        rw [hop] at hstart
        exact hstart

lemma useHandle (h : Alike f s t) (hf : Foresees n f s t) (hl : n b < 0x80000000)
    (handle : Handle) (name : String) (access : Access HostValue)
    (hn : (t.useHandle b handle name access).finishOf b ≤ n b) :
    Alike f (s.useHandle b handle name access) (t.useHandle b handle name access) := by
  cases access with
  | get =>
    exact h.call b .getMember
      (show Engine.Operation.rename (f b) (.getMember handle name) = _ from rfl)
  | set v => exact h.exchange hf hl .setMember v (fun _ => rfl) hn
  | invoke args => exact h.exchange hf hl .invokeMember (.array args) (fun _ => rfl) hn

/-- **An operation starts alike.** -/
theorem operateStep (h : Alike f s t) (hf : Foresees n f s t) (hl : n b < 0x80000000)
    (op : Operation) (hn : (t.operateStep b op).finishOf b ≤ n b) :
    Alike f (s.operateStep b op) (t.operateStep b op) := by
  cases op with
  | evaluate script =>
    exact h.call b .evaluate
      (show Engine.Operation.rename (f b) (.run script) = _ from rfl)
  | getVariable name =>
    unfold Session.operateStep
    dsimp only
    split
    · exact h.fail _
    · exact h.call b .getGlobal (show Engine.Operation.rename (f b) (.getGlobal name) = _ from rfl)
  | setVariable name v =>
    unfold Session.operateStep at hn ⊢
    dsimp only at hn ⊢
    split
    · exact h.fail _
    · next hname =>
      rw [if_neg hname] at hn
      have hheld : Alike f (s.push (.held [v])) (t.push (.held [v])) := h.push (.held [v])
      exact hheld.exchange hf hl .setGlobal v (fun _ => rfl) hn
  | member target name access =>
    unfold Session.operateStep at hn ⊢
    dsimp only at hn ⊢
    split
    · exact h.fail _
    · next hname =>
      rw [if_neg hname] at hn
      cases hhandle : handleOf b target with
      | error e => exact h.fail e
      | ok handle =>
        rw [hhandle] at hn
        have hheld : Alike f (s.push (.held (access.values ++ [.foreign target])))
            (t.push (.held (access.values ++ [.foreign target]))) :=
          h.push (.held (access.values ++ [HostValue.foreign target]))
        exact hheld.useHandle hf hl handle name access hn
  | flush =>
    have hscope := h.push (.scope b)
    unfold Session.operateStep
    dsimp only
    rw [show (s.push (.scope b)).engine? b = _ from hscope.engine? b]
    cases (t.push (.scope b)).engine? b with
    | none => exact hscope.fail _
    | some e => exact hscope.startEngine b .nothing e .collect

/-! ### Replies -/

/-- A record whose slots are occupied is decoded alike. -/
lemma decodeStep (h : Alike f s t) {r : Record}
    (hr : ∀ y, t.bridge? b = some y → ∀ slot ∈ r.slots, (y.arena.get? slot).isSome) :
    Alike f (s.decodeStep b (r.rename (f b))) (t.decodeStep b r) := by
  unfold Session.decodeStep
  rcases h.bridge_cases b with ⟨hs, ht⟩ | ⟨x, y, hs, ht, hxy⟩ <;> rw [hs, ht]
  · exact h.finish
  · dsimp only
    rw [decode_rename b hxy.arena _ r (hr y ht), h.nextLease]
    exact { h with nextLease := rfl, control := rfl }

lemma performStep (h : Alike f s t) (tasks : List Task) (heard : List Heard)
    (result : Except Fault HostValue) :
    Alike f (s.performStep b tasks heard result) (t.performStep b tasks heard result) := by
  cases tasks with
  | nil =>
    cases result with
    | ok v => exact { h with leases := congrArg (· ++ v.foreigns) h.leases, control := rfl }
    | error e => exact h.fail _
  | cons task rest =>
    cases task with
    | release handle =>
      unfold Session.performStep
      dsimp only
      rw [h.engine?]
      cases t.engine? b with
      | none => exact h.goto (.perform b rest heard result)
      | some e =>
        exact (h.push (.interrupted (.perform b rest heard result))).startEngine b .nothing e
          (.release handle)
    | read handle name =>
      unfold Session.performStep
      dsimp only
      rw [h.engine?]
      cases t.engine? b with
      | none => exact h.goto (.perform b rest (heard ++ [⟨handle, name, none⟩]) result)
      | some e =>
        exact h.startEngine b (.member handle name rest heard result) e (.getMember handle name)

lemma takeReply (h : Alike f s t) (p : Purpose) (r : Record) :
    Alike f (s.takeReply b p (r.rename (f b))) (t.takeReply b p r) := by
  cases p with
  | value => exact h.goto (.decode b r)
  | nothing => exact h.finish
  | member handle name tasks heard result =>
    unfold Session.takeReply
    dsimp only
    rw [Record.handles_rename, textOf?_rename]
    exact h.goto (.perform b _ _ result)

/-! ### Slots that script let go of -/

/-- A slot is given up in both sessions. -/
lemma unpin (h : Alike f s t) {slot : Slot} (next : Control) (hslot : SameAt f s t b slot) :
    Alike f (s.unpin b (f b slot) (next.rename f)) (t.unpin b slot next) := by
  rw [SameAt, Session.entryOf?, Session.entryOf?] at hslot
  unfold Session.unpin
  rcases h.bridge_cases b with ⟨hs, ht⟩ | ⟨x, y, hs, ht, hxy⟩ <;> rw [hs, ht] at hslot ⊢
  · exact h.goto next
  · rw [Option.bind_some, Option.bind_some] at hslot ⊢
    cases htake : y.arena.take slot with
    | none =>
      rw [Arena.take_eq_none.2 (hslot.trans (Arena.take_eq_none.1 htake))]
      exact h.goto next
    | some p =>
      obtain ⟨entry, a'⟩ := p
      obtain ⟨a, ha, htracks⟩ := hxy.arena.take htake
      rw [ha]
      exact ((h.withArena htracks).push (.interrupted next)).goto (.release [entry])

lemma removeSlot (h : Alike f s t) {slot : Slot} (next : Control)
    (hslot : t.inCall b = false → SameAt f s t b slot) :
    Alike f (s.removeSlot b (f b slot) (next.rename f)) (t.removeSlot b slot next) := by
  have h₁ := h.record b .removeSlot
  have hcall : (t.record b .removeSlot).inCall b = t.inCall b := rfl
  unfold Session.removeSlot
  dsimp only
  rw [h₁.inCall]
  split
  · refine (h₁.updateBridge (b := b) (g := (·.defer (f b slot))) (k := (·.defer slot))
      fun x y _ _ hxy => ?_).goto next
    exact { hxy with deferred := by simp [Bridge.defer, hxy.deferred] }
  · next hi =>
    rw [hcall, Bool.not_eq_true] at hi
    exact h₁.unpin next ((hslot hi).record .removeSlot)

lemma drainStep (h : Alike f s t) {slots : List Slot}
    (hslots : ∀ slot ∈ slots.head?, SameAt f s t b slot) :
    Alike f (s.drainStep b (slots.map (f b))) (t.drainStep b slots) := by
  cases slots with
  | cons slot rest => exact h.unpin (.drain b rest) (hslots slot rfl)
  | nil =>
    have hwaiting : s.waiting b = (t.waiting b).map (f b) := by
      unfold waiting
      rcases h.bridge_cases b with ⟨hs, ht⟩ | ⟨x, y, hs, ht, hxy⟩ <;> rw [hs, ht]
      · rfl
      · exact hxy.deferred
    rw [List.map_nil]
    unfold Session.drainStep
    dsimp only
    rw [show (s.bridge? b).elim [] (·.deferred) = _ from hwaiting]
    rw [show (t.bridge? b).elim [] (·.deferred) = t.waiting b from rfl]
    cases t.waiting b with
    | nil => exact h.finish
    | cons slot rest =>
      exact (h.updateBridge (b := b) (g := ({ · with deferred := [] }))
        (k := ({ · with deferred := [] })) fun _ _ _ _ hxy => { hxy with deferred := rfl }).goto
          (.drain b (slot :: rest))

lemma leaveScope (h : Alike f s t) (b : Nat) (r : Outcome) :
    Alike f (s.leaveScope b r) (t.leaveScope b r) := by
  unfold Session.leaveScope
  rw [h.inCall]
  split
  · exact h.goto (.done r)
  · exact (h.push (.interrupted (.done r))).goto (.drain b [])

lemma releaseStep (h : Alike f s t) (entries : List Entry) :
    Alike f (s.releaseStep entries) (t.releaseStep entries) := by
  cases entries with
  | nil => exact h.finish
  | cons entry rest =>
    have h₁ := h.goto (.release rest)
    unfold Session.releaseStep
    dsimp only
    change Alike f (s.goto (.release rest)) (t.goto (.release rest)) at h₁
    generalize s.goto (.release rest) = s₁ at h₁ ⊢
    generalize t.goto (.release rest) = t₁ at h₁ ⊢
    cases entry.target? with
    | none => exact h₁
    | some o =>
      dsimp only
      rw [h₁.refersTo, h₁.typeOf, h₁.identOf]
      split
      · exact h₁
      · have h₂ : Alike f (if (t₁.typeOf o).logged then s₁.log (t₁.identOf o) else s₁)
            (if (t₁.typeOf o).logged then t₁.log (t₁.identOf o) else t₁) := by
          split
          · exact h₁.log _
          · exact h₁
        generalize (if (t₁.typeOf o).logged then s₁.log (t₁.identOf o) else s₁) = s₂ at h₂ ⊢
        generalize (if (t₁.typeOf o).logged then t₁.log (t₁.identOf o) else t₁) = t₂ at h₂ ⊢
        rw [h₂.typeOf, h₂.control]
        split
        · exact h₂
        · next a _ =>
          exact ((h₂.push (.interrupted t₂.control)).push (.hook o)).goto (.act a ⟨o, [], .null⟩)

/-! ### Disposal -/

lemma disposeStep (h : Alike f s t) (b : Nat) : Alike f (s.disposeStep b) (t.disposeStep b) := by
  unfold Session.disposeStep
  rw [h.isBusy, h.engine?]
  split
  · exact h.finish
  · cases t.engine? b with
    | none => exact h.finish
    | some e =>
      rw [Option.map_some]
      dsimp only
      rw [Engine.heldSlots_rename]
      exact (h.updateBridge (b := b) (g := ({ · with engine := none }))
        (k := ({ · with engine := none })) fun _ _ _ _ hxy => { hxy with engine := rfl }).goto
          (.teardown b e.heldSlots)

lemma teardownStep (h : Alike f s t) {slots : List Slot}
    (hslots : ∀ slot ∈ slots.head?, SameAt f s t b slot)
    (htorn : slots = [] → ∀ y, t.bridge? b = some y → y.arena.used ≤ 1) :
    Alike f (s.teardownStep b (slots.map (f b))) (t.teardownStep b slots) := by
  cases slots with
  | cons slot rest => exact h.removeSlot (.teardown b rest) fun _ => hslots slot rfl
  | nil =>
    rw [List.map_nil]
    unfold Session.teardownStep
    dsimp only
    rcases h.bridge_cases b with ⟨hs, ht⟩ | ⟨x, y, hs, ht, hxy⟩ <;> rw [hs, ht]
    · exact h.finish
    · obtain ⟨hentries, htracks⟩ := hxy.arena.drain (htorn rfl y ht)
      have hdrained := h.updateBridge (b := b)
        (g := ({ · with arena := x.arena.drain.2, deferred := [] }))
        (k := ({ · with arena := y.arena.drain.2, deferred := [] }))
        fun _ _ _ _ hxy => { hxy with arena := htracks, deferred := rfl }
      dsimp only
      rw [hentries]
      exact (hdrained.push (.interrupted (.forget b))).goto (.release y.arena.drain.1)

/-! ### Callbacks -/

lemma refuse (h : Alike f s t) (b : Nat) (e : HostError) :
    Alike f (s.refuse b e) (t.refuse b e) := h.goto (.respond b (.error e))

/-- What is entered in the arena of a bridge answers a callback. -/
lemma readObject (h : Alike f s t) (hf : Foresees n f s t) (hl : n b < 0x80000000)
    (o : HostObject) (name : String) (hn : (t.readObject b o name).finishOf b ≤ n b) :
    Alike f (s.readObject b o name) (t.readObject b o name) := by
  have h₁ := h.describe b o.type
  have hf₁ : Foresees n f (s.updateBridge b (·.describe o.type))
    (t.updateBridge b (·.describe o.type)) := hf.describe o.type
  unfold Session.readObject at hn ⊢
  dsimp only at hn ⊢
  generalize s.updateBridge b (·.describe o.type) = s₁ at h₁ hf₁ ⊢
  generalize t.updateBridge b (·.describe o.type) = t₁ at h₁ hf₁ hn ⊢
  rw [h₁.typeOf, h₁.isWriting]
  cases hgetter : (t₁.typeOf o).description.getter name with
  | some g =>
    dsimp only
    split
    · exact h₁.refuse b _
    · exact (h₁.push (.getting b o g.fallible)).goto (.act g.action ⟨o, [], .null⟩)
  | none =>
    rw [hgetter] at hn
    dsimp only at hn ⊢
    split
    · next hmethod =>
      rw [if_pos hmethod] at hn
      rcases h₁.bridge_cases b with ⟨hs, ht⟩ | ⟨x, y, hs, ht, hxy⟩
      · rw [hs, ht]
        exact h₁.finish
      · rw [ht] at hn
        rw [hs, ht]
        dsimp only at hn ⊢
        have hfinish : (pin y.arena (.method o name)).2.finish ≤ n b :=
          Nat.le_trans (Nat.le_of_eq (finishOf_updateBridge ht
            ({ · with arena := (pin y.arena (.method o name)).2 })).symm) hn
        obtain ⟨hresult, htracks, -⟩ :=
          corresponds_pin hxy.arena (hf₁ b x y hs ht) hl (.method o name) hfinish
        have hlast := (h₁.withArena htracks).goto (.answer b
          (((pin y.arena (.method o name)).1.map .managed).mapError BridgeError.cause))
        rw [hresult]
        generalize (pin y.arena (.method o name)).1 = r at hlast ⊢
        cases r with
        | error e => exact hlast
        | ok slot => simpa [Control.rename, Except.map, Except.mapError] using hlast
    · exact h₁.refuse b _

/-- A slot that is occupied has the same entry in both sessions. -/
lemma entryOf? (h : Alike f s t) {slot : Slot} {entry : Entry}
    (hslot : t.entryOf? b slot = some entry) : s.entryOf? b (f b slot) = some entry := by
  unfold Session.entryOf? at hslot ⊢
  rcases h.bridge_cases b with ⟨hs, ht⟩ | ⟨x, y, hs, ht, hxy⟩
  · rw [ht] at hslot
    cases hslot
  · rw [ht] at hslot
    rw [hs]
    exact hxy.arena.get? slot entry hslot

lemma sameAt (h : Alike f s t) {slot : Slot} (hslot : (t.entryOf? b slot).isSome) :
    SameAt f s t b slot := by
  obtain ⟨entry, hentry⟩ := Option.isSome_iff_exists.1 hslot
  exact (h.entryOf? hentry).trans hentry.symm

lemma readProperty (h : Alike f s t) (hf : Foresees n f s t) (hl : n b < 0x80000000)
    {slot : Slot} {entry : Entry} (hslot : t.entryOf? b slot = some entry) (name : String)
    (hn : (t.readProperty b slot name).finishOf b ≤ n b) :
    Alike f (s.readProperty b (f b slot) name) (t.readProperty b slot name) := by
  unfold Session.readProperty at hn ⊢
  rw [hslot] at hn
  rw [hslot, h.entryOf? hslot]
  cases entry with
  | object o => exact h.readObject hf hl o name hn
  | method o method =>
    dsimp only
    split
    · exact h.goto (.respond b (.ok (.string method)))
    · exact h.refuse b _
  | error e =>
    dsimp only
    split
    · exact h.goto (.respond b (.ok (.string e.name)))
    · split
      · exact h.goto (.respond b (.ok (.string e.message)))
      · exact h.refuse b _

lemma writeProperty (h : Alike f s t) {slot : Slot} {entry : Entry}
    (hslot : t.entryOf? b slot = some entry) (name : String) (r : Record) :
    Alike f (s.writeProperty b (f b slot) name (r.rename (f b)))
      (t.writeProperty b slot name r) := by
  unfold Session.writeProperty
  rw [hslot, h.entryOf? hslot]
  cases entry with
  | object o =>
    have h₁ := h.describe b o.type
    dsimp only
    rw [h₁.typeOf]
    split
    · next setter _ => exact (h₁.push (.assignee b o setter)).goto (.decode b r)
    · exact h₁.refuse b _
  | method o method => exact h.refuse b _
  | error e => exact h.refuse b _

lemma callEntry (h : Alike f s t) {slot : Slot} {o : HostObject} {name : String}
    (hslot : t.entryOf? b slot = some (.method o name)) (r : Record) :
    Alike f (s.callEntry b (f b slot) (r.rename (f b))) (t.callEntry b slot r) := by
  unfold Session.callEntry
  rw [hslot, h.entryOf? hslot]
  exact (h.push (.callee b o name)).goto (.decode b r)

/-- A callback to an entry that is there, called only if it is a method, is served alike. -/
theorem serve (h : Alike f s t) (hf : Foresees n f s t) (hl : n b < 0x80000000)
    {req : Engine.Request} {entry : Entry} (hreq : t.entryOf? b req.slot = some entry)
    (hcall : ∀ slot r, req = .invoke slot r → ∃ o name, entry = .method o name)
    (hn : (t.serve b req).finishOf b ≤ n b) :
    Alike f (s.serve b (req.rename (f b))) (t.serve b req) := by
  have hrecord : ∀ c, (t.record b c).entryOf? b req.slot = some entry := fun c =>
    (entryOf?_record t b c _).trans hreq
  cases req with
  | get slot name => exact (h.record b _).readProperty (hf.record _) hl (hrecord _) name hn
  | set slot name r => exact (h.record b _).writeProperty (hrecord _) name r
  | invoke slot r =>
    obtain ⟨o, name, rfl⟩ := hcall slot r rfl
    exact (h.record b _).callEntry (hrecord _) r

lemma change (h : Alike f s t) (b : Nat) (o : HostObject) {frame : Frame}
    (hf : frame.rename f = frame) (a : Action) (scene : Scene) :
    Alike f (s.change b o frame a scene) (t.change b o frame a scene) := by
  unfold Session.change
  rw [h.isBorrowed]
  split
  · exact h.refuse b _
  · have hpush := h.push frame
    rw [hf] at hpush
    exact hpush.goto (.act a scene)

lemma callMethod (h : Alike f s t) (b : Nat) (o : HostObject) (name : String) (v : HostValue) :
    Alike f (s.callMethod b o name v) (t.callMethod b o name v) := by
  have h₁ := h.describe b o.type
  unfold Session.callMethod
  dsimp only
  rw [h₁.typeOf]
  split
  · exact h₁.refuse b _
  · exact h₁.change b o rfl _ _

/-- The outcome of a callback becomes a record alike. -/
lemma respondStep (h : Alike f s t) (hf : Foresees n f s t) (hl : n b < 0x80000000)
    (r : Except HostError HostValue) (hn : (t.respondStep b r).finishOf b ≤ n b) :
    Alike f (s.respondStep b r) (t.respondStep b r) := by
  cases r with
  | error e => exact h.goto (.answer b (.error e))
  | ok v =>
    unfold Session.respondStep at hn ⊢
    dsimp only at hn ⊢
    rcases h.bridge_cases b with ⟨hs, ht⟩ | ⟨x, y, hs, ht, hxy⟩
    · rw [hs, ht]
      exact h.finish
    · rw [ht] at hn
      rw [hs, ht]
      dsimp only at hn ⊢
      have hfinish : (encode b y.arena v).2.finish ≤ n b :=
        Nat.le_trans (Nat.le_of_eq (finishOf_updateBridge ht
          ({ · with arena := (encode b y.arena v).2 })).symm) hn
      obtain ⟨hresult, htracks, -⟩ :=
        corresponds_encode b hl hxy.arena (hf b x y hs ht) v hfinish
      have hlast := (h.withArena htracks).goto
        (.answer b ((encode b y.arena v).1.mapError BridgeError.cause))
      rw [hresult]
      generalize (encode b y.arena v).1 = r at hlast ⊢
      cases r <;> exact hlast

/-- A callback is answered alike. -/
lemma answerStep (h : Alike f s t) (hf : Foresees n f s t) (hl : n b < 0x80000000)
    (r : Except HostError Record) (hn : (t.answerStep b r).finishOf b ≤ n b) :
    Alike f (s.answerStep b (r.map (Record.rename (f b)))) (t.answerStep b r) := by
  unfold Session.answerStep at hn ⊢
  rcases h.bridge_cases b with ⟨hs, ht⟩ | ⟨x, y, hs, ht, hxy⟩
  · rw [hs, ht]
    exact h.finish
  · rw [ht] at hn
    rw [hs, ht]
    dsimp only at hn ⊢
    -- The engine goes on with the record, over the arena that is left.
    have hlast : ∀ {r : Record} {a a' : Arena Entry}, Arena.Tracks (f b) a a' →
        Alike f ((s.updateBridge b fun br => { br with
            arena := a, engine := br.engine.map (·.answer (r.rename (f b))) }).goto (.engine b))
          ((t.updateBridge b fun br => { br with
            arena := a', engine := br.engine.map (·.answer r) }).goto (.engine b)) :=
      fun {r a a'} htracks => (h.updateBridge (b := b)
        (g := fun br => { br with
          arena := a, engine := br.engine.map (·.answer (r.rename (f b))) })
        (k := fun br => { br with arena := a', engine := br.engine.map (·.answer r) })
        fun x y _ _ hxy =>
          { hxy with
            arena := htracks
            engine := by
              dsimp only
              rw [hxy.engine, Option.map_map, Option.map_map]
              rfl }).goto (.engine b)
    cases r with
    | ok r => exact hlast hxy.arena
    | error e =>
      dsimp only [Except.map] at hn ⊢
      have hfinish : (failureRecord y.arena e).2.finish ≤ n b :=
        Nat.le_trans (Nat.le_of_eq (finishOf_updateBridge ht fun br => { br with
          arena := (failureRecord y.arena e).2
          engine := br.engine.map (·.answer (failureRecord y.arena e).1) }).symm) hn
      obtain ⟨hresult, htracks⟩ := failureRecord_rename hxy.arena (hf b x y hs ht) hl e hfinish
      have hall := hlast (r := (failureRecord y.arena e).1) htracks
      rwa [← hresult] at hall

/-! ### The engine -/

lemma takeFinished (h : Alike f s t) (r : Record) :
    Alike f (s.takeFinished b (r.rename (f b))) (t.takeFinished b r) := by
  unfold Session.takeFinished
  rw [h.frames]
  cases hfs : t.frames with
  | nil => exact h.finish
  | cons frame rest =>
    cases frame with
    | running c p => exact (h.pop (l := rest)).takeReply p r
    | _ => exact h.finish

/-- What has to hold of a session for the next step of an engine to be alike in both: no token is
called, the slots that the step needs are occupied, and only methods are called. -/
structure Serves (t : Session) (b : Nat) : Prop where
  silent : ∀ e, t.engine? b = some e → ¬ e.TellsSlot
  removed : ∀ e slot, t.engine? b = some e → e.step.2 = .removed slot →
    (t.entryOf? b slot).isSome
  request : ∀ e req, t.engine? b = some e → e.step.2 = .request req →
    ∃ entry, t.entryOf? b req.slot = some entry ∧
      ∀ slot r, req = .invoke slot r → ∃ o name, entry = .method o name

/-- **An engine works alike.** -/
theorem engineStep (h : Alike f s t) (hf : Foresees n f s t) (hl : n b < 0x80000000)
    (hserves : Serves t b) (hn : (t.engineStep b).finishOf b ≤ n b) :
    Alike f (s.engineStep b) (t.engineStep b) := by
  unfold Session.engineStep at hn ⊢
  rw [h.engine?]
  cases he : t.engine? b with
  | none => exact h.finish
  | some e =>
    rw [he] at hn
    dsimp only [Option.map_some] at hn ⊢
    have hstep := Engine.step_rename (f b) (hserves.silent e he)
    have hremoved := hserves.removed e
    have hrequest := hserves.request e
    rw [hstep]
    generalize e.step = p at hn hremoved hrequest ⊢
    obtain ⟨e', event⟩ := p
    have hengine := h.updateBridge (b := b)
      (g := ({ · with engine := some (e'.rename (f b)) })) (k := ({ · with engine := some e' }))
      fun _ _ _ _ hxy => { hxy with engine := rfl }
    have harena : (t.updateBridge b ({ · with engine := some e' })).arena? b = t.arena? b :=
      arena?_updateBridge_of_same (f := ({ · with engine := some e' })) (fun _ => rfl) t b b
    have hentry : ∀ slot, (t.updateBridge b ({ · with engine := some e' })).entryOf? b slot =
        t.entryOf? b slot := fun slot => by
      rw [entryOf?_eq, entryOf?_eq, harena]
    have hf' : Foresees n f (s.updateBridge b ({ · with engine := some (e'.rename (f b)) }))
        (t.updateBridge b ({ · with engine := some e' })) :=
      hf.updateBridge (fun _ => rfl) fun _ => rfl
    dsimp only [Engine.renameStep] at hn ⊢
    cases event with
    | silent => exact hengine
    | removed slot =>
      exact hengine.removeSlot (.engine b) fun _ => hengine.sameAt (by
        rw [hentry]
        exact hremoved slot he rfl)
    | request req =>
      obtain ⟨entry, hslot, hcall⟩ := hrequest req he rfl
      exact hengine.serve hf' hl ((hentry _).trans hslot) hcall hn
    | finished r => exact hengine.takeFinished r

end Alike

end Session

end ScriptBridge
