/-
# Properties of host entries

Script assigns a property of a host entry by sending the value as a record, and reads one by asking
for it; the host's answer then becomes the value that is read.
-/
import ScriptBridge.Proofs.Engine.Departure
import ScriptBridge.Proofs.Engine.Rest

namespace ScriptBridge.Engine

open ScriptBridge.Script ScriptBridge.Table ScriptBridge.Wire

variable {e e' : Engine} {h : Heap} {t : Handles Ref} {r : Record} {v w : Value} {c : Content}
  {p n : Ref} {o : Object} {slot : Slot} {token : Ref} {key : Key} {name : String}
  {base : List Frame}

/-- What is about to be done gives way to something else, and a frame keeps what it referred to. -/
lemma Clean.pushed (hc : e.Clean) {f : Frame} {k : Control} (hrefs : e.control.refs ⊆ f.refs) :
    ((e.push f).goto k).Clean := by
  refine ⟨hc.released, unreferenced_eq_none_of hc rfl rfl fun q hq => .inr ?_⟩
  rcases hq with hq | ⟨g, hg, hq⟩
  · exact ⟨f, List.mem_cons_self .., hrefs hq⟩
  · exact ⟨g, List.mem_cons_of_mem _ hg, hq⟩

/-! ### Asking and sending -/

/-- What keeps a stand-in alive while the host is asked about its entry. -/
def receivers (p : Ref) : List Value := [.object p, .object p]

lemma find_standIn (hp : h.get? p = some o) (hk : o.kind = .proxy slot token) :
    h.find p key = .standIn p slot := by
  rw [Heap.find, Heap.search, hp]
  dsimp only
  rw [hk]

lemma readStep_standIn (hp : e.heap.get? p = some o) (hk : o.kind = .proxy slot token)
    (hkey : key.text? = some name) (hfull : e.isFull = false) (hconnected : e.connected = true) :
    e.readStep (.object p) key =
      (e.push (.awaiting none (receivers p))).goto (.ask (.get slot name)) := by
  rw [readStep, find_standIn hp hk, giveFound, hkey]
  dsimp only
  rw [askEntry, hfull, if_neg Bool.false_ne_true, if_pos hconnected]
  rfl

lemma writeStep_standIn (hp : e.heap.get? p = some o) (hk : o.kind = .proxy slot token)
    (hkey : key.text? = some name) (hconnected : e.connected = true) :
    e.writeStep (.object p) key w =
      (e.push (.sending (.set slot name) (some w) (receivers p))).goto (.encode w 0) := by
  rw [writeStep, writeObject, hp]
  dsimp only
  rw [takerOf, hk]
  dsimp only
  rw [writeFound, hkey]
  dsimp only
  rw [assignEntry, if_pos hconnected]
  rfl

/-- A property of a host entry is read by asking the host for it. -/
lemma exists_asked (hc : e.control = .read (.object p) key) (hs : e.heap.Sound)
    (hconnected : e.connected = true) (hfull : e.isFull = false) (hp : e.heap.get? p = some o)
    (hk : o.kind = .proxy slot token) (hkey : key.text? = some name) :
    ∃ h, e.Spares h ∧ Runs e { e with
        heap := h, stack := .awaiting none (receivers p) :: e.stack
        control := .ask (.get slot name), released := [] } ∧
      ({ e with
        heap := h, stack := .awaiting none (receivers p) :: e.stack
        control := .ask (.get slot name), released := [] } : Engine).Clean := by
  obtain ⟨h, hruns, hspares, hclean⟩ := exists_cleared e hs
  have hp' : h.get? p = some o :=
    (hspares.get? p (reached_of_control (by rw [hc]; exact List.mem_singleton_self p))).trans hp
  refine ⟨h, hspares, hruns.runs.trans (hclean.runs ?_), hclean.pushed ?_⟩
  · rw [proceed, show ({ e with heap := h, released := [] } : Engine).control = _ from hc]
    exact congrArg (·, Event.silent) (readStep_standIn
      (e := { e with heap := h, control := .read (.object p) key, released := [] }) hp' hk hkey
      hfull hconnected)
  · rw [show ({ e with heap := h, released := [] } : Engine).control = _ from hc]
    exact List.subset_append_left ..

/-- **A value that is assigned to a property of a host entry is sent** as a record that says what it
consists of. -/
theorem exists_sent (hc : e.control = .write (.object p) key w) (hs : e.heap.Sound)
    (hconnected : e.connected = true) (hp : e.heap.get? p = some o)
    (hk : o.kind = .proxy slot token) (hkey : key.text? = some name) (hm : Means e.heap w c)
    (hput : ∀ q ∈ c.objects, e.StaysPut q) (hf : c.Fits e.maxLength e.maxDepth)
    (ht : e.handles.IsIndexed) (hpins : e.handles.enterAll c.objects = some t) :
    ∃ h r, Spells t c r ∧ Runs e { e with
        heap := h, handles := t
        stack := .sending (.set slot name) (some w) (receivers p) :: e.stack
        control := .encoded r, released := [] } ∧
      ({ e with
        heap := h, handles := t
        stack := .sending (.set slot name) (some w) (receivers p) :: e.stack
        control := .encoded r, released := [] } : Engine).Clean := by
  obtain ⟨h, hruns, hspares, hclean⟩ := exists_cleared e hs
  have hrefs : ∀ q ∈ e.control.refs, q = p ∨ q ∈ w.refs := by
    rw [hc]
    intro q hq
    rcases List.mem_append.1 hq with hq | hq
    · exact .inl (List.mem_singleton.1 hq)
    · exact .inr hq
  have hreached : ∀ q ∈ Value.refs (.object p) ++ w.refs, e.Reached q := fun q hq =>
    reached_of_control (by rw [hc]; exact hq)
  have hp' : h.get? p = some o := (hspares.get? p (hreached p (List.mem_cons_self ..))).trans hp
  -- Once the value is to become a record, a frame keeps all that was referred to.
  let f : Frame := .sending (.set slot name) (some w) (receivers p)
  let e₁ : Engine := { e with heap := h, released := [] }
  have hstart : e₁.proceed = ((e₁.push f).goto (.encode w 0), .silent) := by
    rw [proceed, show e₁.control = _ from hc]
    exact congrArg (·, Event.silent) (writeStep_standIn hp' hk hkey hconnected)
  have hlasting : Lasting h e.handles (f :: e.stack) := by
    refine Clean.lasting (e := (e₁.push f).goto .idle) (hclean.pushed fun q hq => ?_) rfl
    rcases hrefs q hq with rfl | hq
    · exact List.mem_append_right _ (List.mem_cons_self ..)
    · exact List.mem_append_left _ (List.mem_append_left _ hq)
  have hmeans : Means e₁.heap w c := hspares.means hm fun q hq =>
    hreached q (List.mem_append_right _ hq)
  obtain ⟨r, hspells, hencode⟩ := hmeans.encodes rfl (fun q hq => hspares.staysPut (hput q hq))
    e.maxDepth 0 (Nat.le_of_eq (Nat.zero_add _)) hf hlasting ht hpins
  have hgrows := Handles.grows_enterAll ht hpins
  exact ⟨h, r, hspells, (hruns.runs.trans (hclean.runs hstart)).trans (hencode []),
    (hlasting.mono hgrows.values).clean (l := []) rfl rfl⟩

/-! ### The answer -/

/-- **The host's answer becomes the value that is read.** -/
theorem exists_accepted {held : List Value} (hc : e.control = .reply r)
    (hstack : e.stack = .awaiting none held :: base) (hs : e.heap.Sound)
    (herror : r.isError = false) (ha : e.Admits r) (hread : r.IsReadable) (hcalm : r.IsCalm)
    (hpins : ∀ g ∈ r.handles, (e.handles.get? g).isSome) (hn : n ≤ e.heap.next) :
    ∃ h w, Mirrors n h e.handles r w ∧
      Runs e { e with heap := h, stack := base, control := .ret w, released := [] } := by
  obtain ⟨h₁, hspares₁, hruns₁⟩ := exists_runs e hs
  -- The record is turned into a value.
  let e₁ : Engine :=
    { e with
      heap := h₁, stack := .accepting false none held :: base, control := .convert r
      released := [] }
  have hruns₁ := (hruns₁ e₁ (by
    simp only [proceed, hc, popWith, hstack, replyStep, herror]
    rfl)).runs
  have ha₁ := hspares₁.retains.admits ha
  obtain ⟨e₂, hruns₂, ⟨w, heq, hm⟩, hs₂, -⟩ := exists_lands r e₁ n rfl hspares₁.sound
    ⟨ha₁.proxy, ha₁.elements⟩ (hspares₁.next ▸ hn) hread hcalm hpins
  -- The value is passed on.
  obtain ⟨h₃, hspares₃, hruns₃⟩ := exists_runs e₂ hs₂
  rw [heq] at hruns₃
  refine ⟨h₃, w, hspares₃.retains.mirrors hm fun q hq => reached_of_control ?_,
    (hruns₁.trans hruns₂).trans (heq ▸ (hruns₃ _ rfl).runs)⟩
  rw [heq]
  exact hq

end ScriptBridge.Engine
