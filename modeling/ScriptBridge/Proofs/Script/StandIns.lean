/-
# Stand-ins and their tokens

Where script has not put anything in the place of the class of stand-ins, an object stands
for a host entry exactly if it is a stand-in, each stand-in has a token that keeps its slot,
and no two stand-ins share one.
-/
import ScriptBridge.Proofs.Script.Growth

namespace ScriptBridge.Script.Heap

open ScriptBridge.Engine ScriptBridge.Wire

variable {P : Prop} {h h' : Heap} {r : Ref} {o : Object} {s : Slot} {t : Ref}

/-- Stand-ins alone stand for host entries, each with a token of its own. -/
structure StandIns (P : Prop) (h : Heap) : Prop where
  entry : P → ∀ r o s, h.get? r = some o → o.entry = some s → ∃ t, o.kind = .proxy s t
  slot : P → ∀ r o s t, h.get? r = some o → o.kind = .proxy s t → o.entry = some s
  token : P → ∀ r o s t, h.get? r = some o → o.kind = .proxy s t →
    ∃ p, h.get? t = some p ∧ p.slot? = some s
  single : P → ∀ r r' o o' s s' t, h.get? r = some o → o.kind = .proxy s t →
    h.get? r' = some o' → o'.kind = .proxy s' t → r = r'

/-- A place holds a token for a slot that no stand-in uses yet. -/
def Spare (P : Prop) (h : Heap) (s : Slot) (t : Ref) : Prop :=
  P → (∃ p, h.get? t = some p ∧ p.slot? = some s) ∧
    ∀ r o s', h.get? r = some o → o.kind ≠ .proxy s' t

lemma Keeps.proxy (hk : Keeps h h') (hlt : r < h.next) (hr : h'.get? r = some o)
    (hkind : o.kind = .proxy s t) : ∃ p, h.get? r = some p ∧ p.sort = o.sort ∧
      p.kind = .proxy s t := by
  obtain ⟨p, hp, hsort⟩ := hk.get?_of_lt hlt hr
  exact ⟨p, hp, hsort, (Object.kind_proxy_congr hsort).2 hkind⟩

lemma Keeps.slot? (hk : Keeps h h') (hs : h.Sound) (hr : h.get? r = some o)
    (hslot : o.slot? = some s) : ∃ p, h'.get? r = some p ∧ p.slot? = some s := by
  obtain ⟨p, hp, hsort⟩ := hk.get?_sort hs hr
  exact ⟨p, hp, (Object.slot?_congr hsort).trans hslot⟩

/-! ### Growing -/

lemma Grows.lt_of_proxy (hg : Grows h h') (hs : h.Sound) (hr : h'.get? r = some o)
    (hkind : o.kind = .proxy s t) : r < h.next := by
  by_contra hle
  exact (hg.fresh r o (Nat.not_lt.1 hle) hs hr).kind s t hkind

lemma Grows.lt_of_entry (hg : Grows h h') (hs : h.Sound) (hr : h'.get? r = some o)
    (hentry : o.entry = some s) : r < h.next := by
  by_contra hle
  have hnone := (hg.fresh r o (Nat.not_lt.1 hle) hs hr).entry
  rw [hentry] at hnone
  cases hnone

lemma StandIns.grows (hi : h.StandIns P) (hs : h.Sound) (hg : Grows h h') :
    h'.StandIns P where
  entry := fun hP r o s hr hentry => by
    obtain ⟨p, hp, hsort⟩ := hg.get?_of_lt (hg.lt_of_entry hs hr hentry) hr
    obtain ⟨t, ht⟩ := hi.entry hP r p s hp ((congrArg Prod.snd hsort).trans hentry)
    exact ⟨t, (Object.kind_proxy_congr hsort).1 ht⟩
  slot := fun hP r o s t hr hkind => by
    obtain ⟨p, hp, hsort, hk⟩ := hg.proxy (hg.lt_of_proxy hs hr hkind) hr hkind
    exact (congrArg Prod.snd hsort).symm.trans (hi.slot hP r p s t hp hk)
  token := fun hP r o s t hr hkind => by
    obtain ⟨p, hp, -, hk⟩ := hg.proxy (hg.lt_of_proxy hs hr hkind) hr hkind
    obtain ⟨q, hq, hslot⟩ := hi.token hP r p s t hp hk
    exact hg.slot? hs hq hslot
  single := fun hP r r' o o' s s' t hr hkind hr' hkind' => by
    obtain ⟨p, hp, -, hk⟩ := hg.proxy (hg.lt_of_proxy hs hr hkind) hr hkind
    obtain ⟨p', hp', -, hk'⟩ := hg.proxy (hg.lt_of_proxy hs hr' hkind') hr' hkind'
    exact hi.single hP r r' p p' s s' t hp hk hp' hk'

/-! ### New tokens and stand-ins -/

lemma StandIns.allocToken (hi : h.StandIns P) (hs : h.Sound) (ho : o.entry = none)
    (hk : ∀ s t, o.kind ≠ .proxy s t) : (h.alloc o).2.StandIns P where
  entry := fun hP r p s hr hentry => by
    rw [get?_alloc] at hr
    split at hr
    · cases hr
      rw [ho] at hentry
      cases hentry
    · exact hi.entry hP r p s hr hentry
  slot := fun hP r p s t hr hkind => by
    rw [get?_alloc] at hr
    split at hr
    · cases hr
      exact absurd hkind (hk s t)
    · exact hi.slot hP r p s t hr hkind
  token := fun hP r p s t hr hkind => by
    rw [get?_alloc] at hr
    split at hr
    · cases hr
      exact absurd hkind (hk s t)
    · obtain ⟨q, hq, hslot⟩ := hi.token hP r p s t hr hkind
      exact (Keeps.alloc h o).slot? hs hq hslot
  single := fun hP r r' p p' s s' t hr hkind hr' hkind' => by
    rw [get?_alloc] at hr hr'
    split at hr
    · cases hr
      exact absurd hkind (hk s t)
    · split at hr'
      · cases hr'
        exact absurd hkind' (hk s' t)
      · exact hi.single hP r r' p p' s s' t hr hkind hr' hkind'

/-- The place of a new token holds a spare one. -/
lemma spare_alloc (hi : h.StandIns P) (hs : h.Sound) (ho : o.slot? = some s)
    (hk : ∀ s t, o.kind ≠ .proxy s t) : (h.alloc o).2.Spare P s h.next := fun hP => by
  refine ⟨⟨o, by rw [get?_alloc, if_pos rfl], ho⟩, fun r p s' hr hkind => ?_⟩
  rw [get?_alloc] at hr
  split at hr
  · cases hr
    exact hk s' _ hkind
  · obtain ⟨q, hq, -⟩ := hi.token hP r p s' _ hr hkind
    exact Nat.lt_irrefl _ (hs.lt_of_get? hq)

lemma StandIns.allocStandIn (hi : h.StandIns P) (hs : h.Sound) (ht : h.Spare P s t)
    (hkind : o.kind = .proxy s t) (hentry : o.entry = some s) :
    (h.alloc o).2.StandIns P where
  entry := fun hP r p s' hr he => by
    rw [get?_alloc] at hr
    split at hr
    · cases hr
      rw [hentry] at he
      cases he
      exact ⟨t, hkind⟩
    · exact hi.entry hP r p s' hr he
  slot := fun hP r p s' t' hr hk => by
    rw [get?_alloc] at hr
    split at hr
    · cases hr
      rw [hkind] at hk
      cases hk
      exact hentry
    · exact hi.slot hP r p s' t' hr hk
  token := fun hP r p s' t' hr hk => by
    rw [get?_alloc] at hr
    split at hr
    · cases hr
      rw [hkind] at hk
      cases hk
      obtain ⟨q, hq, hslot⟩ := (ht hP).1
      exact (Keeps.alloc h o).slot? hs hq hslot
    · obtain ⟨q, hq, hslot⟩ := hi.token hP r p s' t' hr hk
      exact (Keeps.alloc h o).slot? hs hq hslot
  single := fun hP r r' p p' s₁ s₂ t' hr hk hr' hk' => by
    rw [get?_alloc] at hr hr'
    split at hr
    · next heq =>
      cases hr
      rw [hkind] at hk
      cases hk
      split at hr'
      · next heq' => exact heq.trans heq'.symm
      · exact absurd hk' ((ht hP).2 r' p' s₂ hr')
    · split at hr'
      · cases hr'
        rw [hkind] at hk'
        cases hk'
        exact absurd hk ((ht hP).2 r p s₁ hr)
      · exact hi.single hP r r' p p' s₁ s₂ t' hr hk hr' hk'

/-- A spare token stays one as long as no stand-in with an older token comes. -/
lemma Spare.keeps (ht : h.Spare P s t) (hs : h.Sound) (hk : Keeps h h')
    (hnew : ∀ r o s t, h.next ≤ r → h'.get? r = some o → o.kind = .proxy s t → h.next ≤ t) :
    h'.Spare P s t := fun hP => by
  obtain ⟨⟨p, hp, hslot⟩, hfree⟩ := ht hP
  refine ⟨hk.slot? hs hp hslot, fun r o s' hr hkind => ?_⟩
  by_cases hlt : r < h.next
  · obtain ⟨q, hq, -, hkq⟩ := hk.proxy hlt hr hkind
    exact hfree r q s' hq hkq
  · have hle := hnew r o s' t (Nat.not_lt.1 hlt) hr hkind
    exact absurd (hs.lt_of_get? hp) (Nat.not_lt.2 hle)

/-! ### Collections -/

variable {p : Ref → Bool}

lemma get?_of_restrict (hr : (h.restrict p).get? r = some o) :
    p r = true ∧ h.get? r = some o := by
  rw [get?_restrict] at hr
  split at hr
  · next hp => exact ⟨hp, hr⟩
  · cases hr

lemma get?_restrict_of (hp : p r = true) (hr : h.get? r = some o) :
    (h.restrict p).get? r = some o := by
  rw [get?_restrict, if_pos hp, hr]

lemma Shows.restrict (hr : h.Shows P r) : (h.restrict p).Shows P r := fun hP => by
  refine ⟨(hr hP).1, ?_⟩
  rw [get?_restrict]
  split
  · exact (hr hP).2
  · rfl

lemma Linked.restrict (hl : h.Linked P) : (h.restrict p).Linked P :=
  fun r o hr l hm => (hl r o (get?_of_restrict hr).2 l hm).restrict

/-- Stand-ins survive a collection that keeps their tokens. -/
lemma StandIns.restrict (hi : h.StandIns P)
    (hp : ∀ r o s t, p r = true → h.get? r = some o → o.kind = .proxy s t → p t = true) :
    (h.restrict p).StandIns P where
  entry := fun hP r o s hr he => hi.entry hP r o s (get?_of_restrict hr).2 he
  slot := fun hP r o s t hr hk => hi.slot hP r o s t (get?_of_restrict hr).2 hk
  token := fun hP r o s t hr hk => by
    obtain ⟨hpr, hr⟩ := get?_of_restrict hr
    obtain ⟨q, hq, hslot⟩ := hi.token hP r o s t hr hk
    exact ⟨q, get?_restrict_of (hp r o s t hpr hr hk) hq, hslot⟩
  single := fun hP r r' o o' s s' t hr hk hr' hk' =>
    hi.single hP r r' o o' s s' t (get?_of_restrict hr).2 hk (get?_of_restrict hr').2 hk'

lemma Spare.restrict (ht : h.Spare P s t) (hp : p t = true) : (h.restrict p).Spare P s t :=
  fun hP => by
    obtain ⟨⟨q, hq, hslot⟩, hfree⟩ := ht hP
    exact ⟨⟨q, get?_restrict_of hp hq, hslot⟩, fun r o s' hr =>
      hfree r o s' (get?_of_restrict hr).2⟩

end ScriptBridge.Script.Heap
