/-
# Settings survive

Every draft can be printed, and settings are printed as the draft that says all of their fields.
-/
import Mathlib.Data.List.Basic
import ScriptBridge.Proofs.Settings.Drafts

namespace ScriptBridge.Settings

open Json
open ScriptBridge.Table (SlotPolicy)

variable {cs rest : List Char} {first : Bool} {indent : Nat}

/-! ### Lines -/

/-- The lines of a group, from the first one or a later one on. -/
def listed : Bool → List String → List Char
  | true, [] => ['\n']
  | false, [] => []
  | true, l :: ls => '\n' :: l.toList ++ listed false ls
  | false, l :: ls => ',' :: '\n' :: l.toList ++ listed false ls

lemma toList_intercalate (l : String) (ls : List String) :
    (",\n".intercalate (l :: ls)).toList = l.toList ++ listed false ls := by
  induction ls generalizing l with
  | nil => rw [String.intercalate_singleton, listed, List.append_nil]
  | cons l' ls ih =>
    rw [String.intercalate_cons_cons, String.toList_append, String.toList_append, ih, listed,
      List.append_assoc]
    rfl

lemma toList_block (indent : Nat) (lines : List String) : (block indent lines).toList =
    '\x7b' :: (listed true lines ++ '\n' :: List.replicate indent ' ' ++ ['\x7d']) := by
  simp only [block, String.toList_append, String.toList_ofList]
  cases lines with
  | nil => rfl
  | cons l ls =>
    rw [toList_intercalate, listed]
    simp only [List.append_assoc, List.cons_append]
    rfl

lemma toList_line (indent : Nat) (key value : String) : (line indent key value).toList =
    List.replicate indent ' ' ++ '"' :: (key.toList ++ '"' :: ':' :: ' ' :: value.toList) := by
  simp only [line, String.toList_append, String.toList_ofList, List.append_assoc]
  rfl

lemma blanks_replicate (n : Nat) (cs : List Char) : Blanks (List.replicate n ' ' ++ cs) cs := by
  induction n with
  | zero => exact .none cs
  | succ n ih => exact .blank (by decide) ih

instance : DecidablePred IsPlain := fun c =>
  inferInstanceAs (Decidable (c ≠ '"' ∧ c ≠ '\\' ∧ 0x20 ≤ c.toNat))

/-- A text that stands in a string as it is. -/
def IsPlainText (s : String) : Prop := ∀ c ∈ s.toList, IsPlain c

instance : DecidablePred IsPlainText := fun s => List.decidableBAll IsPlain s.toList

lemma spells_plain {ds : List Char} (h : ∀ d ∈ ds, IsPlain d) (rest : List Char) :
    Spells (ds ++ '"' :: rest) ds rest := by
  induction ds with
  | nil => exact .quote rest
  | cons d ds ih =>
    obtain ⟨hd, hds⟩ := List.forall_mem_cons.1 h
    exact .plain hd (ih hds)

/-- A line starts with the key of an entry. -/
lemma key_listed {name : String} (hname : IsPlainText name) (value : String)
    (lines : List String) (rest : List Char) :
    Key first (listed first (line indent name value :: lines) ++ rest) name
      (' ' :: (value.toList ++ (listed false lines ++ rest))) := by
  have hblanks : ∀ cs, Blanks ('\n' :: (List.replicate indent ' ' ++ cs)) cs :=
    fun cs => .blank (by decide) (blanks_replicate indent cs)
  have hspells := spells_plain hname
    (':' :: ' ' :: (value.toList ++ (listed false lines ++ rest)))
  cases first with
  | true =>
    simp only [listed, toList_line, List.cons_append, List.append_assoc]
    exact .mk (.first (hblanks _)) hspells (.none _)
  | false =>
    simp only [listed, toList_line, List.cons_append, List.append_assoc]
    exact .mk (.comma (.none _) (hblanks _)) hspells (.none _)

/-! ### Printing drafts -/

section

variable {κ : Type} {F : Form κ} {keys : List κ} {value : (k : κ) → F.Value k → String}
  {d : F.Draft}

/-- A draft as it is printed: the fields that it says, one on a line. -/
def Form.print (F : Form κ) (keys : List κ) (value : (k : κ) → F.Value k → String) (indent : Nat)
    (d : F.Draft) : String :=
  block indent
    (keys.filterMap fun k => (d k).map fun v => line (indent + 2) (F.name k) (value k v))

variable [DecidableEq κ]

/-- The lines of a draft are its entries. -/
lemma entries_listed (hvalue : ∀ k v rest, F.Writes k v ((value k v).toList ++ rest) rest)
    (hname : ∀ k, IsPlainText (F.name k)) (hkeys : keys.Nodup)
    (hd : ∀ k, k ∉ keys → d k = none) (hrest : Blanks cs ('\x7d' :: rest)) :
    F.Entries first d (listed first (keys.filterMap fun k =>
      (d k).map fun v => line indent (F.name k) (value k v)) ++ cs) rest := by
  induction keys generalizing first d with
  | nil =>
    obtain rfl : d = fun _ => none := funext fun k => hd k List.not_mem_nil
    cases first with
    | true => exact .close (.blank (by decide) hrest)
    | false => exact .close hrest
  | cons k keys ih =>
    obtain ⟨hk, hkeys⟩ := List.nodup_cons.1 hkeys
    cases hdk : d k with
    | none =>
      rw [List.filterMap_cons_none (by rw [hdk]; rfl)]
      refine ih hkeys fun j hj => ?_
      by_cases hjk : j = k
      · exact hjk ▸ hdk
      · exact hd j fun hm => (List.mem_cons.1 hm).elim hjk hj
    | some v =>
      -- The other lines are those of a draft that says less.
      let d' : F.Draft := Function.update d k none
      have hself : Function.update d' k (some v) = d := by
        rw [Function.update_idem, ← hdk, Function.update_eq_self]
      have hlines :
          (keys.filterMap fun k => (d k).map fun v => line indent (F.name k) (value k v)) =
            keys.filterMap fun k => (d' k).map fun v => line indent (F.name k) (value k v) := by
        refine List.filterMap_congr fun j hj => ?_
        have hjk : j ≠ k := by
          rintro rfl
          exact hk hj
        rw [show d' j = d j from Function.update_of_ne hjk ..]
      rw [List.filterMap_cons_some (by rw [hdk]; rfl), hlines, ← hself]
      refine .field (key_listed (hname k) (value k v) _ _) (.blank (by decide) (.none _))
        (hvalue k v _) (Function.update_self ..) (ih hkeys fun j hj => ?_)
      by_cases hjk : j = k
      · subst hjk
        exact Function.update_self ..
      · rw [show d' j = d j from Function.update_of_ne hjk ..]
        exact hd j fun hm => (List.mem_cons.1 hm).elim hjk hj

/-- **A draft is printed as a text that says it.** -/
theorem writes_print (hvalue : ∀ k v rest, F.Writes k v ((value k v).toList ++ rest) rest)
    (hname : ∀ k, IsPlainText (F.name k)) (hkeys : keys.Nodup)
    (hall : ∀ k, k ∈ keys) (d : F.Draft) (rest : List Char) :
    F.WritesGroup d ((F.print keys value indent d).toList ++ rest) rest := by
  refine ⟨_, by rw [Form.print, toList_block, List.cons_append, List.append_assoc,
    List.append_assoc], ?_⟩
  refine entries_listed hvalue hname hkeys (fun k hk => absurd (hall k) hk) ?_
  exact .blank (by decide) (blanks_replicate indent _)

end

/-! ### The groups of settings -/

/-- A draft of the limits of an engine, printed. -/
def engineText (d : engineForm.Draft) : String :=
  engineForm.print engineKeys (fun _ n => toString (UInt64.toNat n)) 2 d

/-- The value of a field of an arena, printed. -/
def arenaValue : (k : ArenaKey) → arenaForm.Value k → String
  | .strategy, p => "\"" ++ policyText p ++ "\""
  | .initialCapacity, n => toString (UInt64.toNat n)

/-- A draft of the settings of an arena, printed. -/
def arenaText (d : arenaForm.Draft) : String := arenaForm.print arenaKeys arenaValue 2 d

/-- A group of the settings of a bridge, printed. -/
def bridgeValue : (k : BridgeKey) → bridgeForm.Value k → String
  | .engine, d => engineText d
  | .arena, d => arenaText d

/-- A draft of the settings of a bridge, printed. -/
def bridgeText (d : bridgeForm.Draft) : String := bridgeForm.print bridgeKeys bridgeValue 0 d

lemma writes_size (n : UInt64) (rest : List Char) :
    WritesSize n ((toString n.toNat).toList ++ rest) rest := by
  rw [WritesSize, Nat.toString_eq_ofList_toDigits, String.toList_ofList]

lemma writes_policy (p : SlotPolicy) (rest : List Char) :
    WritesPolicy p (("\"" ++ policyText p ++ "\"").toList ++ rest) rest := by
  have hplain : IsPlainText (policyText p) := by cases p <;> decide
  refine ⟨(policyText p).toList ++ '"' :: rest, ?_, spells_plain hplain rest⟩
  simp only [String.toList_append, List.append_assoc]
  rfl

lemma writes_engineText (d : engineForm.Draft) (rest : List Char) :
    engineForm.WritesGroup d ((engineText d).toList ++ rest) rest := by
  refine writes_print (fun _ => writes_size) (fun k => ?_) (by decide) (fun k => ?_) d rest
  · cases k <;> decide
  · cases k <;> decide

lemma writes_arenaText (d : arenaForm.Draft) (rest : List Char) :
    arenaForm.WritesGroup d ((arenaText d).toList ++ rest) rest := by
  refine writes_print (fun k => ?_) (fun k => ?_) (by decide) (fun k => ?_) d rest
  · cases k with
    | strategy => exact writes_policy
    | initialCapacity => exact writes_size
  · cases k <;> decide
  · cases k <;> decide

/-- Every draft is said by the text that is printed for it. -/
lemma spellsDraft_bridgeText (d : bridgeForm.Draft) : SpellsDraft (bridgeText d) d := by
  have hwrites : bridgeForm.WritesGroup d ((bridgeText d).toList ++ []) [] := by
    refine writes_print (fun k => ?_) (fun k => ?_) (by decide) (fun k => ?_) d []
    · cases k with
      | engine => exact writes_engineText
      | arena => exact writes_arenaText
    · cases k <;> decide
    · cases k <;> decide
  rw [List.append_nil] at hwrites
  exact ⟨_, [], .none _, hwrites, .none _⟩

/-! ### Whole settings -/

/-- A draft that says all limits of an engine. -/
def allOfEngine (l : EngineLimits) : engineForm.Draft
  | .memoryLimit => some l.memoryLimit
  | .maxStackSize => some l.maxStackSize
  | .gcThreshold => some l.gcThreshold
  | .maxArrayDepth => some l.maxArrayDepth
  | .maxArrayLength => some l.maxArrayLength

/-- A draft that says all settings of an arena. -/
def allOfArena (a : ArenaSettings) : arenaForm.Draft
  | .strategy => some a.policy
  | .initialCapacity => some a.initialCapacity

/-- A draft that says all settings of a bridge. -/
def allOf (s : Settings) : bridgeForm.Draft
  | .engine => some (allOfEngine s.engine)
  | .arena => some (allOfArena s.arena)

/-- Settings are printed as the draft that says them all. -/
lemma print_eq (s : Settings) : print s = bridgeText (allOf s) := rfl

lemma settingsOf_allOf (s : Settings) : settingsOf (allOf s) = s := rfl

/-- **Settings survive their text, whole or in part.**  Any settings are read back as they were
printed.  A text that says some of the fields, with the entries in any order and among any others of
unknown names, is read as the settings with these fields and with the defaults for the others.  And
there is such a text for any choice of fields. -/
theorem settings_survive :
    (∀ s : Settings, read (print s) = .ok s) ∧
    (∀ (d : bridgeForm.Draft) (text : String), SpellsDraft text d →
    read text = .ok (settingsOf d)) ∧
    ∀ d : bridgeForm.Draft, ∃ text, SpellsDraft text d := by
  refine ⟨fun s => ?_, fun d text => read_of_spellsDraft, fun d => ⟨_, spellsDraft_bridgeText d⟩⟩
  rw [print_eq, read_of_spellsDraft (spellsDraft_bridgeText _), settingsOf_allOf]

example : read "\x7b\"z\": [1.5e3, \x7b\x7d], \"arena\": \x7b\"strategy\": \"monotonic\"\x7d\x7d" =
    .ok { arena := { policy := .monotonic } } := by decide +kernel

end ScriptBridge.Settings
