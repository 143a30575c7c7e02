/-
# Histories of a session

A host program starts with bridges and nothing else.  Then it is told to do one thing after
the other, and what it was told to do goes on step by step, in scripts and in host code that
call each other to any depth.  A history lists all states that a program went through, the
last one first.
-/
import ScriptBridge.Proofs.Session.Faithful

namespace ScriptBridge.Session

open ScriptBridge.Bridge ScriptBridge.Host ScriptBridge.Table ScriptBridge.Wire

variable {s s' t : Session} {b : Nat} {c : Command} {form : Form} {x y : Side}
  {types : List HostType} {setups : List Setup} {hist older : List Session}

/-! ### What happens next -/

/-- What can happen next to a host program. -/
inductive Goes (s s' : Session) : Prop
  /-- What is to be done goes on. -/
  | steps (h : s.step? = some s')
  /-- When all is done, it is told to do something. -/
  | begins {b : Nat} {c : Command} {form : Form} (hr : s.step? = none) (hs : s.frames = [])
    (hb : c.needsBridge = true → s.hasBridge b = true) (h : s.begin? b c = some (s', form))
  /-- When the outcome has been looked at, it is stored or let go of. -/
  | concludes {rest : List Frame} (save : Option String) (hr : s.step? = none)
    (hs : s.frames = .pausing :: rest) (h : s.conclude save = s')

/-- All states that a host program went through, the last one first. -/
inductive History (types : List HostType) (setups : List Setup) : List Session → Prop
  /-- It has just been made. -/
  | starts {s : Session} (h : create types setups = .ok s) : History types setups [s]
  /-- Something has happened. -/
  | goes {s s' : Session} {older : List Session} (h : History types setups (s :: older))
    (hgo : Goes s s') : History types setups (s' :: s :: older)

/-- Where something goes on, it is what happens next. -/
lemma Goes.eq_of_step? (h : Goes s s') (hs : s.step? = some t) : s' = t := by
  cases h with
  | steps h => exact Option.some.inj (h.symm.trans hs)
  | begins hr => rw [hr] at hs; cases hs
  | concludes save hr => rw [hr] at hs; cases hs

/-- An engine at work goes on. -/
lemma Goes.eq_engineStep (h : Goes s s') (hc : s.control = .engine b) : s' = s.engineStep b :=
  h.eq_of_step? (by rw [step?, hc])

/-- Where nothing is to be let go of before, what is about to be done is done next. -/
lemma Goes.eq_lettingGo (h : Goes s s') (ht : s.tidy? = none) (hc : ∀ b, s.control ≠ .engine b)
    (hp : s.proceed? = some t) : s' = s.lettingGo t := by
  refine h.eq_of_step? ?_
  unfold step?
  split
  · next b hb => exact absurd hb (hc b)
  · rw [ht, hp]
    rfl

/-! ### Following a program -/

/-- The states of a program that has just been made, if there are bridges for it. -/
def made (types : List HostType) (setups : List Setup) : List Session :=
  match create types setups with
  | .ok s => [s]
  | .error _ => []

/-- The states of a program that goes on until nothing is left to do, so many steps at most. -/
def follow : Nat → List Session → List Session
  | fuel + 1, s :: older =>
    match s.step? with
    | some s' => follow fuel (s' :: s :: older)
    | none => s :: older
  | _, hist => hist

/-- The states of a program that is told to do something once all is done. -/
def tell (b : Nat) (c : Command) : List Session → List Session
  | s :: older =>
    if s.step?.isNone && s.frames.isEmpty && (!c.needsBridge || s.hasBridge b) then
      match s.begin? b c with
      | some (s', _) => s' :: s :: older
      | none => s :: older
    else s :: older
  | [] => []

/-- Whether an outcome is to be looked at. -/
def isPausing (s : Session) : Bool :=
  match s.frames with
  | .pausing :: _ => s.step?.isNone
  | _ => false

/-- The states of a program that goes on after the look at an outcome. -/
def settleDown (save : Option String) : List Session → List Session
  | s :: older => if s.isPausing then s.conclude save :: s :: older else s :: older
  | [] => []

/-- The states of a program that does a command, in so many steps at most. -/
def obey (fuel : Nat) (b : Nat) (c : Command) (save : Option String) (hist : List Session) :
    List Session :=
  follow fuel (settleDown save (follow fuel (tell b c hist)))

lemma history_made (h : (made types setups).isEmpty = false) :
    History types setups (made types setups) := by
  unfold made at h ⊢
  split
  · next hcreate => exact .starts hcreate
  · next hcreate =>
    rw [hcreate] at h
    cases h

lemma History.follow (h : History types setups hist) (fuel : Nat) :
    History types setups (follow fuel hist) := by
  induction fuel generalizing hist with
  | zero =>
    rw [Session.follow]
    · exact h
    · simp
  | succ fuel ih =>
    cases hist with
    | nil => cases h
    | cons s older =>
      rw [Session.follow]
      split
      · next hstep => exact ih (h.goes (.steps hstep))
      · exact h

lemma History.tell (h : History types setups hist) (b : Nat) (c : Command) :
    History types setups (tell b c hist) := by
  cases hist with
  | nil => cases h
  | cons s older =>
    rw [Session.tell]
    split
    · next hready =>
      simp only [Bool.and_eq_true, Option.isNone_iff_eq_none, List.isEmpty_iff, Bool.or_eq_true,
        Bool.not_eq_true'] at hready
      obtain ⟨⟨hstep, hframes⟩, hbridge⟩ := hready
      split
      · next hbegin =>
        refine h.goes (.begins hstep hframes (fun hneeds => ?_) hbegin)
        exact hbridge.resolve_left (by rw [hneeds]; simp)
      · exact h
    · exact h

lemma History.settleDown (h : History types setups hist) (save : Option String) :
    History types setups (settleDown save hist) := by
  cases hist with
  | nil => cases h
  | cons s older =>
    rw [Session.settleDown]
    split
    · next hpausing =>
      unfold isPausing at hpausing
      split at hpausing
      · next hframes =>
        exact h.goes (.concludes save (Option.isNone_iff_eq_none.1 hpausing) hframes rfl)
      · cases hpausing
    · exact h

/-- **A program that does commands goes through a history.** -/
theorem History.obey (h : History types setups hist) (fuel b : Nat) (c : Command)
    (save : Option String) : History types setups (obey fuel b c save hist) :=
  (((h.tell b c).follow fuel).settleDown save).follow fuel

/-! ### Commands -/

/-- Where nothing goes on, an outcome is there. -/
lemma control_of_step? (h : s.step? = none) : ∃ r, s.control = .done r := by
  unfold step? at h
  split at h
  · cases h
  · cases htidy : s.tidy? with
    | some u =>
      rw [htidy] at h
      cases h
    | none =>
      rw [htidy] at h
      have hproceed : s.proceed? = none := by simpa using h
      unfold proceed? at hproceed
      split at hproceed
      all_goals first | exact ⟨_, ‹_›⟩ | cases hproceed

/-- A program that does not go on has an outcome that nothing takes. -/
lemma frames_of_step?_eq_none (h : s.step? = none) :
    s.frames = [] ∨ ∃ rest, s.frames = .pausing :: rest := by
  obtain ⟨r, hc⟩ := control_of_step? h
  rw [step?, hc] at h
  cases ht : s.tidy? with
  | some u =>
    rw [ht] at h
    cases h
  | none =>
    rw [ht, proceed?, hc] at h
    dsimp only at h
    split at h
    · exact .inl ‹_›
    · exact .inr ⟨_, ‹_›⟩
    · cases h

/-- What a command starts is work of host code. -/
lemma inner_start (h : s.start b c = some (t, form)) : Inner s t := by
  have hs : Leads s s := .refl s
  cases c with
  | evaluate script => cases h; exact hs.inner _ rfl
  | getVariable name => cases h; exact hs.inner _ rfl
  | setVariable name v => cases h; exact (hs.untouched (untouched_build s v)).inner _ rfl
  | member direct on name access =>
    unfold start startMember at h
    dsimp only at h
    split at h
    · have hbuilt := (hs.untouched (untouched_build s on)).untouched
        (untouched_buildAccess _ access)
      cases h
      split
      · exact (hbuilt.push rfl).inner _ rfl
      · exact (hbuilt.push rfl).gotoMember _ _
    · cases h
  | flush => cases h; exact hs.inner _ rfl
  | dispose => cases h; exact hs.inner _ rfl
  | isDisposed => cases h; exact hs.inner _ rfl
  | resetCrossings =>
    cases h
    exact (hs.updateBridge (f := ({ · with tally := .zero })) (fun _ => rfl) b).inner _ rfl
  | dropBridge => cases h; exact (hs.leaveBridge b).inner _ rfl
  | make v => cases h; exact (hs.untouched (untouched_build s v)).inner _ rfl
  | drop register =>
    cases h
    have herased : Untouched s { s with registers := erase s.registers register } :=
      ⟨rfl, rfl, rfl, rfl, rfl⟩
    exact (hs.untouched herased).inner (.done _) rfl
  | inspect v => cases h; exact (hs.untouched (untouched_build s v)).inner _ rfl
  | same v w =>
    cases h
    exact ((hs.untouched (untouched_build s v)).untouched (untouched_build _ w)).inner _ rfl
  | evaluateHolding script on exclusive =>
    unfold start startHolding at h
    dsimp only at h
    have hbuilt := hs.untouched (untouched_build s on)
    split at h
    · split at h <;> cases h <;> exact (hbuilt.push rfl).inner _ rfl
    · cases h

/-- A command begins with work of host code. -/
lemma inner_begin? (h : s.begin? b c = some (s', form)) :
    ∃ before t, Inner s t ∧ s' = lettingGo before t := by
  unfold begin? at h
  dsimp only at h
  have hfresh : Leads s { s with disposed := [], current := b } :=
    (Leads.refl s).untouched ⟨rfl, rfl, rfl, rfl, rfl⟩
  generalize ({ s with disposed := [], current := b } : Session) = fresh at h hfresh
  have hkept : Leads s (if c.needsBridge = true then fresh.push (.keeping b) else fresh) := by
    split
    · exact hfresh.push rfl
    · exact hfresh
  obtain ⟨⟨started, form'⟩, hstart, heq⟩ := Option.map_eq_some_iff.1 h
  cases heq
  have hstarted := inner_start hstart
  refine ⟨fresh, started.push .pausing, ?_, rfl⟩
  exact { (hkept.trans hstarted.toLeads).push (f := .pausing) rfl with
    control := hstarted.control }

/-- A command ends with work of host code. -/
lemma inner_settle {rest : List Frame} (hs : s.frames = .pausing :: rest) (save : Option String) :
    Inner { s with frames := rest } (s.settle save) := by
  have hresume : s.resume = { s with frames := rest } := by
    rw [resume, hs]
  have hleads : Leads { s with frames := rest } { s with frames := rest } := .refl _
  unfold settle
  rw [hresume]
  split
  · next register v _ =>
    have hkept : Untouched { s with frames := rest }
        (setRegister { s with frames := rest } register v) := ⟨rfl, rfl, rfl, rfl, rfl⟩
    exact (hleads.untouched hkept).inner _ rfl
  · exact hleads.inner _ rfl

/-- **Whatever happens is a step of those listed, after which what nothing refers to any
more may be set out to be let go.** -/
theorem Goes.stride (h : Goes s s') :
    ∃ t, Stride s t ∧ (s' = t ∨ (∀ b, t.control ≠ .engine b) ∧ s'.control.isInner = true ∧
      Stride t s' ∧ Same t s') := by
  cases h with
  | steps h => exact stride_of_step? h
  | begins hr hs hb h =>
    obtain ⟨r, hc⟩ := control_of_step? hr
    obtain ⟨before, t, ht, rfl⟩ := inner_begin? h
    exact ⟨t, ht.stride (by rw [hc]; rfl), stride_lettingGo before t⟩
  | concludes save hr hs h =>
    obtain ⟨r, hc⟩ := control_of_step? hr
    subst h
    exact ⟨_, (inner_settle hs save).stride_of_cons (by rw [hc]; rfl) hs rfl rfl,
      stride_lettingGo s _⟩

/-! ### One bridge of a history -/

/-- What happens means a step for each bridge whose engine is there afterwards, after which
the bridge may be left alone once more. -/
lemma Goes.moves (h : Goes s s') (hy : s'.side? b = some y) :
    ∃ k x z, s.side? b = some x ∧ Moves (s.kept b) k x z ∧ (y = z ∧ s'.kept b = k ∨
      (z.trail.head? ≠ some .engine ∧ y.trail.head? ≠ some .engine) ∧
        Moves k (s'.kept b) z y ∧ y.engine = z.engine ∧ y.arena = z.arena) := by
  obtain ⟨t, hs, heq | ⟨hc, hc', ht, hsame⟩⟩ := h.stride
  · subst heq
    obtain ⟨x, hx, hmove⟩ := moves_of_stride hs hy
    exact ⟨_, x, y, hx, hmove, .inl ⟨rfl, rfl⟩⟩
  · obtain ⟨z, hz, hmove'⟩ := moves_of_stride ht hy
    obtain ⟨x, hx, hmove⟩ := moves_of_stride hs hz
    have hcore := (side?_eq_some.1 hy).1
    rw [hsame.core, (side?_eq_some.1 hz).1] at hcore
    simp only [Option.some.injEq, Core.mk.injEq] at hcore
    refine ⟨_, x, z, hx, hmove, .inr ⟨⟨fun hhead => ?_, fun hhead => ?_⟩, hmove', hcore.1.symm,
      hcore.2.1.symm⟩⟩
    · rw [← (side?_eq_some.1 hz).2] at hhead
      exact mark_ne_engine hc b (Option.some.inj hhead)
    · rw [← (side?_eq_some.1 hy).2, trail, Control.mark_of_isInner hc'] at hhead
      cases hhead

/-! ### The start -/

/-- What a bridge starts with. -/
def Side.initial (maxDepth maxLength : Nat) (maxCalls : Option Nat) (policy : SlotPolicy) : Side :=
  ⟨.start maxDepth maxLength maxCalls, .empty policy, [], [.other]⟩

lemma exists_of_mapM_create {bridges : List Bridge} (h : setups.mapM Bridge.create = .ok bridges)
    {br : Bridge} (hbr : br ∈ bridges) : ∃ setup ∈ setups, Bridge.create setup = .ok br := by
  induction setups generalizing bridges with
  | nil =>
    cases h
    cases hbr
  | cons first setups ih =>
    rw [List.mapM_cons] at h
    cases hcreate : Bridge.create first with
    | error err =>
      rw [hcreate] at h
      cases h
    | ok bridge =>
      rw [hcreate] at h
      cases hmap : setups.mapM Bridge.create with
      | error err =>
        rw [hmap] at h
        cases h
      | ok rest =>
        rw [hmap] at h
        cases h
        rcases List.mem_cons.1 hbr with rfl | hbr
        · exact ⟨first, List.mem_cons_self .., hcreate⟩
        · obtain ⟨setup, hm, heq⟩ := ih hmap hbr
          exact ⟨setup, List.mem_cons_of_mem _ hm, heq⟩

lemma side?_of_create (h : create types setups = .ok s) (hx : s.side? b = some x) :
    ∃ maxDepth maxLength maxCalls policy, x = .initial maxDepth maxLength maxCalls policy := by
  unfold create at h
  cases hmap : setups.mapM Bridge.create with
  | error err =>
    rw [hmap] at h
    cases h
  | ok bridges =>
    rw [hmap] at h
    cases h
    obtain ⟨hcore, htrail⟩ := side?_eq_some.1 hx
    obtain ⟨br, hbr, heq⟩ := bridge?_of_core? hcore
    obtain ⟨setup, -, hcreate⟩ := exists_of_mapM_create hmap (List.mem_of_getElem? hbr)
    obtain ⟨maxDepth, maxLength, maxCalls, policy, hbr'⟩ : ∃ maxDepth maxLength maxCalls policy,
        br.core = ⟨some (.start maxDepth maxLength maxCalls), .empty policy, []⟩ := by
      unfold Bridge.create at hcreate
      dsimp only at hcreate
      split at hcreate
      · cases hcreate
        exact ⟨_, _, _, _, rfl⟩
      · cases hcreate
    rw [hbr'] at heq
    obtain ⟨e, a, q, T⟩ := x
    simp only [Core.mk.injEq, Option.some.injEq] at heq
    obtain ⟨rfl, rfl, rfl⟩ := heq
    exact ⟨maxDepth, maxLength, maxCalls, policy, congrArg _ htrail.symm⟩

lemma holders_initial (maxDepth maxLength : Nat) (maxCalls : Option Nat) (policy : SlotPolicy) :
    (Side.initial maxDepth maxLength maxCalls policy).holders = [] := by
  have hheld : Engine.slotsOf Script.Heap.initial.objects = [] := by decide +kernel
  exact congrArg (· ++ [] ++ [] ++ [] ++ [] ++ []) hheld

lemma accounted_initial (maxDepth maxLength : Nat) (maxCalls : Option Nat) (policy : SlotPolicy) :
    (Side.initial maxDepth maxLength maxCalls policy).Accounted where
  shaped := Engine.shaped_start ..
  sound := Engine.sound_initial
  connected := rfl
  nested := .rests (.other .nil)
  clean := fun _ => Engine.clean_start ..
  nodup := by
    rw [holders_initial]
    exact List.nodup_nil
  occupied := fun s => by
    rw [holders_initial]
    exact iff_of_false (by simp) (by simp [Side.initial])
  regular := Arena.isRegular_empty policy
  deferred := fun h => absurd rfl h

lemma faithful_initial (maxDepth maxLength : Nat) (maxCalls : Option Nat) (policy : SlotPolicy) :
    (Side.initial maxDepth maxLength maxCalls policy).Faithful where
  toAccounted := accounted_initial maxDepth maxLength maxCalls policy
  honest := Engine.honest_start ..
  held := fun s hs => by cases hs

/-! ### Every state -/

/-- What came before is a history too. -/
lemma History.earlier {newer : List Session} (h : History types setups (newer ++ s :: older)) :
    History types setups (s :: older) := by
  induction newer with
  | nil => exact h
  | cons t newer ih =>
    cases hrest : newer ++ s :: older with
    | nil => simp at hrest
    | cons u l =>
      rw [List.cons_append, hrest] at h
      cases h with
      | goes h _ => exact ih (hrest ▸ h)

/-- What holds of a state and is kept by all that can happen holds from then on. -/
lemma History.later {newer : List Session} {p : Session → Prop}
    (h : History types setups (newer ++ s :: older)) (hs : p s)
    (hkept : ∀ t t', Goes t t' → p t → p t') : ∀ t ∈ newer ++ [s], p t := by
  induction newer with
  | nil => exact List.forall_mem_singleton.2 hs
  | cons t newer ih =>
    obtain ⟨u, l, hl⟩ : ∃ u l, newer ++ [s] = u :: l :=
      List.exists_cons_of_ne_nil (List.append_ne_nil_of_right_ne_nil _ (List.cons_ne_nil s []))
    have hrest : newer ++ s :: older = u :: (l ++ older) := by
      rw [← List.cons_append, ← hl, List.append_assoc, List.singleton_append]
    rw [List.cons_append, hrest] at h
    cases h with
    | goes h hgo =>
      have hnewer := ih (hrest ▸ h)
      refine List.forall_mem_cons.2 ⟨hkept u t hgo (hnewer u ?_), hnewer⟩
      rw [hl]
      exact List.mem_cons_self ..

/-- **The slots of a bridge are accounted for at all times.** -/
theorem History.accounted (h : History types setups hist) (hs : s ∈ hist)
    (hx : s.side? b = some x) : x.Accounted := by
  induction h generalizing s x with
  | starts hcreate =>
    obtain rfl := List.mem_singleton.1 hs
    obtain ⟨maxDepth, maxLength, maxCalls, policy, rfl⟩ := side?_of_create hcreate hx
    exact accounted_initial maxDepth maxLength maxCalls policy
  | @goes u s' older h hgo ih =>
    rcases List.mem_cons.1 hs with rfl | hs
    · obtain ⟨k, w, z, hw, hmove, ⟨heq, -⟩ | ⟨-, hmove', -⟩⟩ := hgo.moves hx
      · exact heq ▸ hmove.accounted (ih (List.mem_cons_self ..) hw)
      · exact hmove'.accounted (hmove.accounted (ih (List.mem_cons_self ..) hw))
    · exact ih hs hx

/-- In no state of a history has script put something in the place of the class of stand-ins
of a bridge. -/
def Intact (b : Nat) (hist : List Session) : Prop :=
  ∀ s ∈ hist, ∀ e, s.engine? b = some e → e.isIntact .proxy = true

/-- Whether script has put something in the place of the class of stand-ins is decided state
by state. -/
lemma intact_of_all (h : hist.all (fun s => (s.engine? b).all (·.isIntact .proxy)) = true) :
    Intact b hist := fun s hs e he => by
  have hall := List.all_eq_true.1 h s hs
  rwa [he] at hall

lemma Intact.tail (h : Intact b (s :: hist)) : Intact b hist :=
  fun t ht => h t (List.mem_cons_of_mem _ ht)

/-- **Stand-ins and slots on their way to the host have their entries at all times**, where
script does not put anything in the place of the class of stand-ins. -/
theorem History.faithful (h : History types setups hist) (hi : Intact b hist) (hs : s ∈ hist)
    (hx : s.side? b = some x) : x.Faithful := by
  induction h generalizing s x with
  | starts hcreate =>
    obtain rfl := List.mem_singleton.1 hs
    obtain ⟨maxDepth, maxLength, maxCalls, policy, rfl⟩ := side?_of_create hcreate hx
    exact faithful_initial maxDepth maxLength maxCalls policy
  | @goes u s' older h hgo ih =>
    rcases List.mem_cons.1 hs with rfl | hs
    · obtain ⟨k, w, z, hw, hmove, hrest⟩ := hgo.moves hx
      have hintact := hi u (List.mem_cons_of_mem _ (List.mem_cons_self ..)) _ (engine?_of_side? hw)
      have hz := hmove.faithful (ih hi.tail (List.mem_cons_self ..) hw) hintact
      rcases hrest with ⟨rfl, -⟩ | ⟨-, hmove', hengine, -⟩
      · exact hz
      · refine hmove'.faithful hz ?_
        rw [← hengine]
        exact hi _ (List.mem_cons_self ..) _ (engine?_of_side? hx)
    · exact ih hi.tail hs hx

end ScriptBridge.Session
