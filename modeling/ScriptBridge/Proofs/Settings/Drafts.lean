/-
# Settings written in part

A draft says some of the fields of a group of settings.  A text says a draft if it is an object with
an entry for each of these fields, in any order, and among them any entries of other names with any
values.  Reading such a text gives the settings with the fields that the draft says, and with the
defaults for the others.  Settings are printed as a draft that says all of them, so they survive.
-/
import Mathlib.Logic.Function.Basic
import ScriptBridge.Proofs.Settings.Scanning
import ScriptBridge.Settings.Printer
import ScriptBridge.Settings.Reader

namespace ScriptBridge.Settings

open Json Scan
open ScriptBridge.Table (SlotPolicy)

variable {cs cs' rest : List Char} {first : Bool}

/-! ### Forms and drafts -/

/-- What the fields of a group are called, and how their values are written. -/
structure Form (κ : Type) where
  /-- The name of a field. -/
  name : κ → String
  /-- What a field can say. -/
  Value : κ → Type
  /-- A text starts with a value of a field, after which something is left. -/
  Writes : (k : κ) → Value k → List Char → List Char → Prop

/-- What some fields of a group say. -/
abbrev Form.Draft {κ : Type} (F : Form κ) : Type := (k : κ) → Option (F.Value k)

/-- The key of an entry, whose name may be spelled in any way, up to its colon. -/
inductive Json.Key : Bool → List Char → String → List Char → Prop
  | mk {first : Bool} {name : String} {cs cs₁ cs₂ rest : List Char}
    (hs : Separator first cs ('"' :: cs₁)) (hk : Spells cs₁ name.toList cs₂)
    (hc : Blanks cs₂ (':' :: rest)) : Key first cs name rest

/-- The entries of an object that says a draft, from the first one or a later one on. -/
inductive Form.Entries {κ : Type} [DecidableEq κ] (F : Form κ) :
    Bool → F.Draft → List Char → List Char → Prop
  | close {first : Bool} {cs rest : List Char} (h : Blanks cs ('\x7d' :: rest)) :
    Entries F first (fun _ => none) cs rest
  | field {first : Bool} {k : κ} {v : F.Value k} {d : F.Draft} {cs cs₁ cs₂ cs₃ rest : List Char}
    (hkey : Key first cs (F.name k) cs₁) (hb : Blanks cs₁ cs₂) (hv : F.Writes k v cs₂ cs₃)
    (hfresh : d k = none) (h : Entries F false d cs₃ rest) :
    Entries F first (Function.update d k (some v)) cs rest
  | unknown {first : Bool} {name : String} {d : F.Draft} {cs cs₁ cs₂ cs₃ rest : List Char}
    (hkey : Key first cs name cs₁) (hname : ∀ k, F.name k ≠ name) (hb : Blanks cs₁ cs₂)
    (hv : Json.Value cs₂ cs₃) (h : Entries F false d cs₃ rest) : Entries F first d cs rest

/-! ### The groups of settings -/

/-- The fields of the limits of an engine. -/
inductive EngineKey where
  | memoryLimit
  | maxStackSize
  | gcThreshold
  | maxArrayDepth
  | maxArrayLength
  deriving DecidableEq

/-- The fields of the settings of an arena. -/
inductive ArenaKey where
  | strategy
  | initialCapacity
  deriving DecidableEq

/-- The fields of the settings of a bridge. -/
inductive BridgeKey where
  | engine
  | arena
  deriving DecidableEq

/-- A size is written in decimal digits. -/
def WritesSize (n : UInt64) (cs rest : List Char) : Prop := cs = Nat.toDigits 10 n.toNat ++ rest

/-- A policy is written by its name, which may be spelled in any way. -/
def WritesPolicy (p : SlotPolicy) (cs rest : List Char) : Prop :=
  ∃ cs', cs = '"' :: cs' ∧ Spells cs' (policyText p).toList rest

/-- A group is written as an object that says a draft. -/
def Form.WritesGroup {κ : Type} [DecidableEq κ] (F : Form κ) (d : F.Draft)
    (cs rest : List Char) : Prop :=
  ∃ cs', cs = '\x7b' :: cs' ∧ F.Entries true d cs' rest

/-- The limits of an engine. -/
def engineForm : Form EngineKey where
  name
    | .memoryLimit => "memory_limit"
    | .maxStackSize => "max_stack_size"
    | .gcThreshold => "gc_threshold"
    | .maxArrayDepth => "max_array_depth"
    | .maxArrayLength => "max_array_length"
  Value _ := UInt64
  Writes _ := WritesSize

/-- The settings of an arena. -/
def arenaForm : Form ArenaKey where
  name
    | .strategy => "strategy"
    | .initialCapacity => "initial_capacity"
  Value
    | .strategy => SlotPolicy
    | .initialCapacity => UInt64
  Writes
    | .strategy => WritesPolicy
    | .initialCapacity => WritesSize

/-- The settings of a bridge. -/
def bridgeForm : Form BridgeKey where
  name
    | .engine => "engine"
    | .arena => "arena"
  Value
    | .engine => engineForm.Draft
    | .arena => arenaForm.Draft
  Writes
    | .engine => engineForm.WritesGroup
    | .arena => arenaForm.WritesGroup

/-- The limits of an engine that a draft says, with defaults for what it does not say. -/
def engineOf (d : engineForm.Draft) : EngineLimits where
  memoryLimit := (d .memoryLimit).getD (0 : UInt64)
  maxStackSize := (d .maxStackSize).getD (0x100000 : UInt64)
  gcThreshold := (d .gcThreshold).getD (0x40000 : UInt64)
  maxArrayDepth := (d .maxArrayDepth).getD (64 : UInt64)
  maxArrayLength := (d .maxArrayLength).getD (0x100000 : UInt64)

/-- The settings of an arena that a draft says, with defaults for what it does not say. -/
def arenaOf (d : arenaForm.Draft) : ArenaSettings where
  policy := (d .strategy).getD SlotPolicy.reuse
  initialCapacity := (d .initialCapacity).getD (64 : UInt64)

/-- The settings of a bridge that a draft says.  The fields of a group that it does not say take
their defaults. -/
def settingsOf (d : bridgeForm.Draft) : Settings where
  engine := engineOf ((d .engine).getD fun _ => none)
  arena := arenaOf ((d .arena).getD fun _ => none)

/-- A text is an object that says a draft, between blanks. -/
def SpellsDraft (text : String) (d : bridgeForm.Draft) : Prop :=
  ∃ cs rest, Blanks text.toList cs ∧ bridgeForm.WritesGroup d cs rest ∧ Blanks rest []

/-! ### Reading a group -/

section

variable {κ σ : Type} [DecidableEq κ] {F : Form κ} {fields : List (Field σ)}
  {fill : F.Draft → σ} {a d : F.Draft}

lemma Form.Entries.stops (h : F.Entries false d cs rest) : Stops cs := by
  cases h with
  | close h => exact h.stops (.inr (.inr rfl))
  | field hkey => cases hkey with | mk hs => exact hs.stops
  | unknown hkey => cases hkey with | mk hs => exact hs.stops

/-- A draft that says what one or another says. -/
def Form.Draft.merge (a d : F.Draft) : F.Draft := fun k => (a k).or (d k)

/-- Fields of a group can be read into what a draft makes, as those of a form. -/
structure Form.Reads (F : Form κ) (fields : List (Field σ)) (fill : F.Draft → σ) : Prop where
  injective : Function.Injective F.name
  known : ∀ k, ∃ f, fields.find? (fun f => f.name == F.name k) = some f ∧
    ∀ d v cs cs' rest, Blanks cs cs' → F.Writes k v cs' rest → Stops rest →
      f.read (fill d) cs = .ok (fill (Function.update d k (some v)), rest)
  named : ∀ f ∈ fields, ∃ k, F.name k = f.name
  length_le : ∀ k v cs rest, F.Writes k v cs rest → rest.length ≤ cs.length

lemma Json.Key.length_lt {name : String} (h : Key first cs name rest) :
    rest.length < cs.length := by
  obtain ⟨hs, hk, hc⟩ := h
  have hsep := hs.length_le
  have hname := hk.length_lt
  have hcolon := hc.length_le
  simp only [List.length_cons] at hsep hcolon
  omega

/-- The entry of a group after its key. -/
def entryAfter (fields : List (Field σ)) (fuel : Nat) (seen : List String) (name : String)
    (group : σ) : Scan σ := fun cs =>
  match fields.find? (fun f => f.name == name) with
  | some field =>
    if name ∈ seen then .error .mismatch
    else do
      let (group, cs) ← field.read group cs
      groupEntries fields fuel (name :: seen) false group cs
  | none => do
    let (_, cs) ← skipValue (2 * cs.length + 2) cs
    groupEntries fields fuel seen false group cs

/-- The key of an entry is read up to its colon. -/
lemma groupEntries_key {name : String} {fuel : Nat} {seen : List String} {group : σ}
    (h : Key first cs name rest) : groupEntries fields (fuel + 1) seen first group cs =
      entryAfter fields fuel seen name group rest := by
  obtain ⟨hs, hk, hc⟩ := h
  rw [groupEntries, nextItem_more hs (by decide) (by decide) (by decide)]
  change (string _ >>= _) = _
  rw [string_eq hk, entryAfter]
  change (match fields.find? (fun f => f.name == name) with | some field => _ | none => _) = _
  cases fields.find? (fun f => f.name == name) with
  | none =>
    dsimp only
    rw [colon_eq hc]
    rfl
  | some field =>
    dsimp only
    rw [colon_eq hc]
    rfl

/-- What one draft says in addition to another may be said by the other one as well. -/
lemma merge_update {k : κ} (v : F.Value k) (ha : a k = none) :
    Form.Draft.merge (Function.update a k (some v)) d = a.merge (Function.update d k (some v)) := by
  funext j
  by_cases hj : j = k
  · subst hj
    rw [Form.Draft.merge, Form.Draft.merge, Function.update_self, Function.update_self, ha]
    rfl
  · rw [Form.Draft.merge, Form.Draft.merge, Function.update_of_ne hj, Function.update_of_ne hj]

/-- **The entries of a group are read** into what the fields make that were read before. -/
lemma Form.Reads.groupEntries_eq (hr : F.Reads fields fill) {fuel : Nat} {seen : List String}
    (h : F.Entries first d cs rest) (hfuel : cs.length < fuel)
    (hdisjoint : ∀ k, a k = none ∨ d k = none) (hseen : ∀ k, F.name k ∈ seen → (a k).isSome) :
    groupEntries fields fuel seen first (fill a) cs = .ok (fill (a.merge d), rest) := by
  induction h generalizing fuel seen a with
  | close h =>
    cases fuel with
    | zero => cases hfuel
    | succ fuel =>
      have hmerge : a.merge (fun _ => none) = a := funext fun k => Option.or_none
      rw [groupEntries, nextItem_close h (by decide), hmerge]
      rfl
  | @field first k v d cs cs₁ cs₂ cs₃ rest hkey hb hv hfresh h ih =>
    cases fuel with
    | zero => cases hfuel
    | succ fuel =>
      have ha : a k = none := (hdisjoint k).resolve_right (by rw [Function.update_self]; nofun)
      have hunseen : F.name k ∉ seen := fun hm => by
        have hsome := hseen k hm
        rw [ha] at hsome
        cases hsome
      obtain ⟨f, hfind, hread⟩ := hr.known k
      have hlength := hkey.length_lt
      have hblanks := hb.length_le
      have hvalue := hr.length_le k v _ _ hv
      -- From here on the key counts as seen, and its value as read.
      let a' : F.Draft := Function.update a k (some v)
      have hdisjoint' : ∀ j, a' j = none ∨ d j = none := fun j => by
        by_cases hj : j = k
        · subst hj
          exact .inr hfresh
        · rw [show a' j = a j from Function.update_of_ne hj ..]
          exact (hdisjoint j).imp_right fun h => by rwa [Function.update_of_ne hj] at h
      have hseen' : ∀ j, F.name j ∈ F.name k :: seen → (a' j).isSome := fun j hj => by
        by_cases hjk : j = k
        · subst hjk
          rw [show a' j = some v from Function.update_self ..]
          rfl
        · rw [show a' j = a j from Function.update_of_ne hjk ..]
          exact hseen j ((List.mem_cons.1 hj).resolve_left fun h => hjk (hr.injective h))
      have hmore : groupEntries fields fuel (F.name k :: seen) false (fill a') cs₃ =
          .ok (fill (a'.merge d), rest) := ih (by omega) hdisjoint' hseen'
      rw [groupEntries_key hkey, entryAfter, hfind]
      dsimp only
      rw [if_neg hunseen, hread a v _ _ _ hb hv h.stops]
      rw [merge_update v ha] at hmore
      exact hmore
  | @unknown first name d cs cs₁ cs₂ cs₃ rest hkey hname hb hv h ih =>
    cases fuel with
    | zero => cases hfuel
    | succ fuel =>
      have hlength := hkey.length_lt
      have hblanks := hb.length_le
      have hvalue := hv.length_lt
      have hmore : groupEntries fields fuel seen false (fill a) cs₃ =
          .ok (fill (a.merge d), rest) := ih (by omega) hdisjoint hseen
      -- No field has the key, so that its value is skipped.
      have hnone : fields.find? (fun f => f.name == name) = none :=
        List.find?_eq_none.2 fun f hf heq => by
          obtain ⟨k, hk⟩ := hr.named f hf
          exact hname k (hk.trans (beq_iff_eq.1 heq))
      rw [groupEntries_key hkey, entryAfter, hnone]
      dsimp only
      rw [(skipValue_eq _).1 hb hv h.stops (by omega)]
      exact hmore

/-- **A group that is written as a draft is read as what the draft makes.** -/
theorem Form.Reads.group_eq (hr : F.Reads fields fill) (hb : Blanks cs cs')
    (h : F.WritesGroup d cs' rest) : group fields (fill fun _ => none) cs = .ok (fill d, rest) := by
  obtain ⟨cs'', rfl, h⟩ := h
  have hmerge : Form.Draft.merge (fun _ => none) d = d := funext fun k => Option.none_or
  have hentries : groupEntries fields (cs''.length + 1) [] true (fill fun _ => none) cs'' =
      .ok (fill (Form.Draft.merge (fun _ => none) d), rest) :=
    hr.groupEntries_eq h (Nat.lt_succ_self _) (fun _ => .inl rfl) (by simp)
  rw [hmerge] at hentries
  rw [group, skipBlanks_eq hb (by decide)]
  exact hentries

lemma Form.Reads.length_le_of_group (hr : F.Reads fields fill) (h : F.WritesGroup d cs rest) :
    rest.length ≤ cs.length := by
  obtain ⟨cs', rfl, h⟩ := h
  have hentries : ∀ {first : Bool} {d : F.Draft} {cs rest : List Char},
      F.Entries first d cs rest → rest.length < cs.length := by
    intro first d cs rest h
    induction h with
    | close h => exact h.length_le
    | field hkey hb hv _ _ ih =>
      exact Nat.lt_trans
        (Nat.lt_of_lt_of_le ih (Nat.le_trans (hr.length_le _ _ _ _ hv) hb.length_le))
        hkey.length_lt
    | unknown hkey _ hb hv _ ih =>
      exact Nat.lt_trans (Nat.lt_of_lt_of_le ih (Nat.le_trans hv.length_lt.le hb.length_le))
        hkey.length_lt
  exact Nat.le_succ_of_le (Nat.le_of_lt (hentries h))

end

/-! ### Sizes and policies -/

lemma le_ofDigitChars (ds : List Char) (n : Nat) : n ≤ Nat.ofDigitChars 10 ds n := by
  rw [Nat.ofDigitChars_eq_ofDigitChars_zero]
  exact Nat.le_trans (Nat.le_mul_of_pos_left n (Nat.pow_pos (by decide))) (Nat.le_add_right ..)

/-- Digits of a number of 64 bits are all significant. -/
lemma significand_eq {ds : List Char} {n : Nat} (h : Nat.ofDigitChars 10 ds n ≤ maxUnsigned) :
    significand n ds = (Nat.ofDigitChars 10 ds n, 0) := by
  induction ds generalizing n with
  | nil => rw [significand, Nat.ofDigitChars_nil]
  | cons d ds ih =>
    rw [Nat.ofDigitChars_cons] at h ⊢
    rw [significand, if_pos (Nat.le_trans (le_ofDigitChars ..) h), ih h]

/-- Only zero starts with a zero. -/
lemma toDigits_eq_zero {n : Nat} {ds : List Char} (h : Nat.toDigits 10 n = '0' :: ds) :
    ds = [] := by
  induction n using Nat.strong_induction_on generalizing ds with
  | _ n ih =>
    rcases Nat.lt_or_ge n 10 with hlt | hge
    · rw [Nat.toDigits_of_lt_base hlt] at h
      exact (List.cons.inj h).2.symm
    · rw [Nat.toDigits_of_base_le (by decide) hge] at h
      obtain ⟨t, ht⟩ : ∃ t, Nat.toDigits 10 (n / 10) = '0' :: t := by
        cases hdigits : Nat.toDigits 10 (n / 10) with
        | nil => exact absurd hdigits Nat.toDigits_ne_nil
        | cons c t =>
          rw [hdigits] at h
          obtain ⟨rfl, -⟩ := List.cons.inj h
          exact ⟨t, rfl⟩
      -- The other digits would be those of zero.
      obtain rfl := ih (n / 10) (by omega) ht
      have hvalue := Nat.ofDigitChars_ten_toDigits (n := n / 10)
      rw [ht] at hvalue
      have hzero : Nat.ofDigitChars 10 ['0'] 0 = 0 := rfl
      omega

/-- **A size is read back.** -/
theorem size_eq {n : UInt64} (hb : Blanks cs cs') (h : WritesSize n cs' rest) (hr : Stops rest) :
    size cs = .ok (n, rest) := by
  obtain rfl := h
  have hdigit : ∀ d ∈ Nat.toDigits 10 n.toNat, d.isDigit = true :=
    fun d hd => Nat.isDigit_of_mem_toDigits (by decide) (by decide) hd
  have hsignificand : significand 0 (Nat.toDigits 10 n.toNat) = (n.toNat, 0) := by
    have hle : Nat.ofDigitChars 10 (Nat.toDigits 10 n.toNat) 0 ≤ maxUnsigned := by
      rw [Nat.ofDigitChars_ten_toDigits, maxUnsigned]
      exact Nat.le_of_lt_succ n.toNat_lt
    rw [significand_eq hle, Nat.ofDigitChars_ten_toDigits]
  have hdigits := digits_append hdigit fun c hc => (hr c hc).1
  have hzero : ∀ ds, Nat.toDigits 10 n.toNat = '0' :: ds → ds = [] := fun _ => toDigits_eq_zero
  cases hds : Nat.toDigits 10 n.toNat with
  | nil => exact absurd hds Nat.toDigits_ne_nil
  | cons d ds =>
    rw [hds] at hdigit hsignificand hdigits hzero hb
    have hd : d.isDigit = true := hdigit d (List.mem_cons_self ..)
    have hnumber : number false (d :: ds ++ rest) = .ok (.natural n.toNat, rest) := by
      rw [number, hdigits]
      split
      · next heq => cases heq
      · next heq => cases heq
      · next heq =>
        cases heq
        cases hzero _ rfl
      · next heq =>
        cases heq
        rw [hsignificand]
        dsimp only
        split
        · exact absurd rfl (hr _ rfl).2.1
        · exact absurd rfl (hr _ rfl).2.2.1
        · exact absurd rfl (hr _ rfl).2.2.2
        · rfl
    have hblank : d ∉ [' ', '\n', '\t', '\r'] := by
      intro hm
      simp only [List.mem_cons, List.not_mem_nil, or_false] at hm
      rcases hm with rfl | rfl | rfl | rfl <;> cases hd
    rw [size, skipBlanks_eq hb hblank]
    split
    · next heq => cases heq
    · next heq =>
      cases heq
      cases hd
    · next heq =>
      cases heq
      simp only [if_pos hd, show number false (d :: ds.append rest) = _ from hnumber,
        UInt64.ofNat_toNat]

lemma length_le_of_size {n : UInt64} (h : WritesSize n cs rest) : rest.length ≤ cs.length := by
  obtain rfl := h
  rw [List.length_append]
  exact Nat.le_add_left ..

/-- **A policy is read back.** -/
theorem policy_eq {p : SlotPolicy} (hb : Blanks cs cs') (h : WritesPolicy p cs' rest) :
    policy cs = .ok (p, rest) := by
  obtain ⟨cs'', rfl, h⟩ := h
  rw [policy, skipBlanks_eq hb (by decide)]
  change policyName cs'' = _
  rw [policyName, string_eq h]
  cases p <;> rfl

lemma length_le_of_policy {p : SlotPolicy} (h : WritesPolicy p cs rest) :
    rest.length ≤ cs.length := by
  obtain ⟨cs', rfl, h⟩ := h
  exact Nat.le_succ_of_le h.length_lt.le

/-! ### Reading settings -/

lemma reads_ofSize {σ : Type} {name : String} {set : σ → UInt64 → σ} {n : UInt64} (group : σ)
    (hb : Blanks cs cs') (h : WritesSize n cs' rest) (hr : Stops rest) :
    (Field.ofSize name set).read group cs = .ok (set group n, rest) := by
  rw [Field.ofSize]
  change (size cs >>= _) = _
  rw [size_eq hb h hr]
  rfl

/-- Fields that are called as keys are. -/
lemma exists_name {κ σ : Type} {F : Form κ} {fields : List (Field σ)} (keys : List κ)
    (h : fields.map Field.name = keys.map F.name) : ∀ f ∈ fields, ∃ k, F.name k = f.name := by
  intro f hf
  have hm : f.name ∈ keys.map F.name := h ▸ List.mem_map_of_mem hf
  obtain ⟨k, -, hk⟩ := List.mem_map.1 hm
  exact ⟨k, hk⟩

/-- The fields of the limits of an engine, in their order. -/
def engineKeys : List EngineKey :=
  [.memoryLimit, .maxStackSize, .gcThreshold, .maxArrayDepth, .maxArrayLength]

/-- The fields of the settings of an arena, in their order. -/
def arenaKeys : List ArenaKey := [.strategy, .initialCapacity]

/-- The fields of the settings of a bridge, in their order. -/
def bridgeKeys : List BridgeKey := [.engine, .arena]

lemma engineForm_reads : engineForm.Reads engineFields engineOf where
  injective j k h := by
    cases j <;> cases k <;> first | rfl | exact absurd h (by decide)
  known k := by
    cases k
    all_goals
      exact ⟨_, rfl, fun d v cs cs' rest hb hv hr => reads_ofSize (engineOf d) hb hv hr⟩
  named := exists_name engineKeys rfl
  length_le k v cs rest h := length_le_of_size h

lemma arenaForm_reads : arenaForm.Reads arenaFields arenaOf where
  injective j k h := by
    cases j <;> cases k <;> first | rfl | exact absurd h (by decide)
  known k := by
    cases k with
    | strategy =>
      refine ⟨_, rfl, fun d v cs cs' rest hb hv hr => ?_⟩
      change (policy cs >>= _) = _
      rw [policy_eq hb hv]
      rfl
    | initialCapacity =>
      exact ⟨_, rfl, fun d v cs cs' rest hb hv hr => reads_ofSize (arenaOf d) hb hv hr⟩
  named := exists_name arenaKeys rfl
  length_le k v cs rest h := by
    cases k with
    | strategy => exact length_le_of_policy h
    | initialCapacity => exact length_le_of_size h

lemma bridgeForm_reads : bridgeForm.Reads bridgeFields settingsOf where
  injective j k h := by
    cases j <;> cases k <;> first | rfl | exact absurd h (by decide)
  known k := by
    cases k with
    | engine =>
      refine ⟨_, rfl, fun d v cs cs' rest hb hv hr => ?_⟩
      change (group engineFields {} cs >>= _) = _
      rw [show ({} : EngineLimits) = engineOf fun _ => none from rfl,
        engineForm_reads.group_eq hb hv]
      rfl
    | arena =>
      refine ⟨_, rfl, fun d v cs cs' rest hb hv hr => ?_⟩
      change (group arenaFields {} cs >>= _) = _
      rw [show ({} : ArenaSettings) = arenaOf fun _ => none from rfl,
        arenaForm_reads.group_eq hb hv]
      rfl
  named := exists_name bridgeKeys rfl
  length_le k v cs rest h := by
    cases k with
    | engine => exact engineForm_reads.length_le_of_group h
    | arena => exact arenaForm_reads.length_le_of_group h

/-- **A text that says a draft is read as the settings that the draft makes.** -/
theorem read_of_spellsDraft {text : String} {d : bridgeForm.Draft} (h : SpellsDraft text d) :
    read text = .ok (settingsOf d) := by
  obtain ⟨cs, rest, hb, hd, hend⟩ := h
  have hblank : (skipBlanks rest).isEmpty = true := by
    rw [skipBlanks_of_blanks hend]
    rfl
  rw [read, readWhole, show ({} : Settings) = settingsOf fun _ => none from rfl,
    bridgeForm_reads.group_eq hb hd]
  exact if_pos hblank

end ScriptBridge.Settings
