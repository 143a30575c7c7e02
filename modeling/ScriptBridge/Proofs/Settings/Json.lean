/-
# The grammar of JSON

What a JSON text is, apart from any reader.  Each relation holds of a text and of what is left of it
when a blank, a number, a string or a value has been taken off its front.
-/
import Mathlib.Tactic.Common

namespace ScriptBridge.Settings.Json

variable {cs cs' rest : List Char} {first : Bool}

/-! ### Blanks -/

/-- Any number of blanks. -/
inductive Blanks : List Char → List Char → Prop
  | none (cs : List Char) : Blanks cs cs
  | blank {c : Char} {cs rest : List Char} (hc : c ∈ [' ', '\n', '\t', '\r'])
    (h : Blanks cs rest) : Blanks (c :: cs) rest

/-- What comes before an element or an entry: a comma, unless it is the first one. -/
inductive Separator : Bool → List Char → List Char → Prop
  | first {cs rest : List Char} (h : Blanks cs rest) : Separator true cs rest
  | comma {cs cs' rest : List Char} (h : Blanks cs (',' :: cs')) (h' : Blanks cs' rest) :
    Separator false cs rest

/-! ### Numbers -/

/-- One digit or more. -/
inductive Digits : List Char → List Char → Prop
  | last {c : Char} (hc : c.isDigit = true) (rest : List Char) : Digits (c :: rest) rest
  | digit {c : Char} {cs rest : List Char} (hc : c.isDigit = true) (h : Digits cs rest) :
    Digits (c :: cs) rest

/-- The whole part of a number: zero, or digits of which the first is not zero. -/
inductive Whole : List Char → List Char → Prop
  | zero (rest : List Char) : Whole ('0' :: rest) rest
  | digits {c : Char} {cs rest : List Char} (hc : c ≠ '0') (h : Digits (c :: cs) rest) :
    Whole (c :: cs) rest

/-- A fraction, or none. -/
inductive Fraction : List Char → List Char → Prop
  | none (cs : List Char) : Fraction cs cs
  | point {cs rest : List Char} (h : Digits cs rest) : Fraction ('.' :: cs) rest

/-- A sign, or none. -/
inductive Sign : List Char → List Char → Prop
  | none (cs : List Char) : Sign cs cs
  | sign {c : Char} (hc : c = '+' ∨ c = '-') (cs : List Char) : Sign (c :: cs) cs

/-- An exponent, or none. -/
inductive Exponent : List Char → List Char → Prop
  | none (cs : List Char) : Exponent cs cs
  | mark {c : Char} {cs cs' rest : List Char} (hc : c = 'e' ∨ c = 'E') (hs : Sign cs cs')
    (h : Digits cs' rest) : Exponent (c :: cs) rest

/-- A number without a sign. -/
inductive Unsigned : List Char → List Char → Prop
  | mk {cs cs' cs'' rest : List Char} (hw : Whole cs cs') (hf : Fraction cs' cs'')
    (he : Exponent cs'' rest) : Unsigned cs rest

/-! ### Strings -/

/-- A hexadecimal digit of a value. -/
def HexDigit (c : Char) (n : Nat) : Prop :=
  "0123456789abcdef".toList[n]? = some c ∨ "0123456789ABCDEF".toList[n]? = some c

/-- Four hexadecimal digits and the number they stand for. -/
inductive Hex4 : List Char → Nat → List Char → Prop
  | mk {a b c d : Char} {i j k l : Nat} (ha : HexDigit a i) (hb : HexDigit b j)
    (hc : HexDigit c k) (hd : HexDigit d l) (rest : List Char) :
    Hex4 (a :: b :: c :: d :: rest) (((i * 16 + j) * 16 + k) * 16 + l) rest

/-- The escapes of one letter, with the characters they stand for. -/
def escapes : List (Char × Char) :=
  [('"', '"'), ('\\', '\\'), ('/', '/'), ('b', '\x08'), ('f', '\x0c'), ('n', '\n'), ('r', '\r'),
   ('t', '\t')]

/-- A character that may stand in a string as it is. -/
def IsPlain (c : Char) : Prop := c ≠ '"' ∧ c ≠ '\\' ∧ 0x20 ≤ c.toNat

/-- A string after its opening quote: the characters that it spells.  Any of them may be escaped,
those past `2 ^ 16` as the two halves of a pair. -/
inductive Spells : List Char → List Char → List Char → Prop
  | quote (rest : List Char) : Spells ('"' :: rest) [] rest
  | plain {c : Char} {cs ds rest : List Char} (hc : IsPlain c) (h : Spells cs ds rest) :
    Spells (c :: cs) (c :: ds) rest
  | escape {e d : Char} {cs ds rest : List Char} (he : (e, d) ∈ escapes) (h : Spells cs ds rest) :
    Spells ('\\' :: e :: cs) (d :: ds) rest
  | unicode {d : Char} {cs cs' ds rest : List Char} (hd : Hex4 cs d.toNat cs')
    (h : Spells cs' ds rest) : Spells ('\\' :: 'u' :: cs) (d :: ds) rest
  | pair {d : Char} {n : Nat} {cs cs' cs'' ds rest : List Char} (hn : d.toNat = 0x10000 + n)
    (hhigh : Hex4 cs (0xD800 + n / 0x400) ('\\' :: 'u' :: cs'))
    (hlow : Hex4 cs' (0xDC00 + n % 0x400) cs'') (h : Spells cs'' ds rest) :
    Spells ('\\' :: 'u' :: cs) (d :: ds) rest

/-- A string after its opening quote, whether it spells characters or halves of pairs by
themselves. -/
inductive Literal : List Char → List Char → Prop
  | quote (rest : List Char) : Literal ('"' :: rest) rest
  | plain {c : Char} {cs rest : List Char} (hc : IsPlain c) (h : Literal cs rest) :
    Literal (c :: cs) rest
  | escape {e d : Char} {cs rest : List Char} (he : (e, d) ∈ escapes) (h : Literal cs rest) :
    Literal ('\\' :: e :: cs) rest
  | unicode {n : Nat} {cs cs' rest : List Char} (hn : Hex4 cs n cs') (h : Literal cs' rest) :
    Literal ('\\' :: 'u' :: cs) rest

/-! ### Values -/

mutual
/-- A value. -/
inductive Value : List Char → List Char → Prop
  | null (rest : List Char) : Value ('n' :: 'u' :: 'l' :: 'l' :: rest) rest
  | true (rest : List Char) : Value ('t' :: 'r' :: 'u' :: 'e' :: rest) rest
  | false (rest : List Char) : Value ('f' :: 'a' :: 'l' :: 's' :: 'e' :: rest) rest
  | unsigned {cs rest : List Char} (h : Unsigned cs rest) : Value cs rest
  | negative {cs rest : List Char} (h : Unsigned cs rest) : Value ('-' :: cs) rest
  | string {cs rest : List Char} (h : Literal cs rest) : Value ('"' :: cs) rest
  | array {cs rest : List Char} (h : Elements Bool.true cs rest) : Value ('[' :: cs) rest
  | object {cs rest : List Char} (h : Members Bool.true cs rest) : Value ('\x7b' :: cs) rest

/-- The elements of an array, from the first one or a later one on. -/
inductive Elements : Bool → List Char → List Char → Prop
  | close {first : Bool} {cs rest : List Char} (h : Blanks cs (']' :: rest)) :
    Elements first cs rest
  | element {first : Bool} {cs cs₁ cs₂ rest : List Char} (hs : Separator first cs cs₁)
    (hv : Value cs₁ cs₂) (h : Elements Bool.false cs₂ rest) : Elements first cs rest

/-- The entries of an object, from the first one or a later one on. -/
inductive Members : Bool → List Char → List Char → Prop
  | close {first : Bool} {cs rest : List Char} (h : Blanks cs ('\x7d' :: rest)) :
    Members first cs rest
  | member {first : Bool} {cs cs₁ cs₂ cs₃ cs₄ cs₅ rest : List Char}
    (hs : Separator first cs ('"' :: cs₁)) (hk : Literal cs₁ cs₂) (hc : Blanks cs₂ (':' :: cs₃))
    (hb : Blanks cs₃ cs₄) (hv : Value cs₄ cs₅) (h : Members Bool.false cs₅ rest) :
    Members first cs rest
end

/-! ### What is left -/

/-- A number does not go on: there is no digit, point or exponent. -/
def Stops (rest : List Char) : Prop :=
  ∀ c ∈ rest.head?, c.isDigit = false ∧ c ≠ '.' ∧ c ≠ 'e' ∧ c ≠ 'E'

lemma Blanks.length_le (h : Blanks cs rest) : rest.length ≤ cs.length := by
  induction h with
  | none cs => exact Nat.le_refl _
  | blank hc _ ih => exact Nat.le_succ_of_le ih

lemma Separator.length_le (h : Separator first cs rest) : rest.length ≤ cs.length := by
  cases h with
  | first h => exact h.length_le
  | comma h h' =>
    have hle := h.length_le
    have hle' := h'.length_le
    rw [List.length_cons] at hle
    omega

lemma Digits.length_lt (h : Digits cs rest) : rest.length < cs.length := by
  induction h with
  | last hc rest => exact Nat.lt_succ_self _
  | digit hc _ ih => exact Nat.lt_succ_of_lt ih

lemma Unsigned.length_lt (h : Unsigned cs rest) : rest.length < cs.length := by
  obtain ⟨hw, hf, he⟩ := h
  have hwhole : ∀ {cs rest : List Char}, Whole cs rest → rest.length < cs.length := by
    rintro _ _ (_ | ⟨-, h⟩)
    · exact Nat.lt_succ_self _
    · exact h.length_lt
  have hfraction : ∀ {cs rest : List Char}, Fraction cs rest → rest.length ≤ cs.length := by
    rintro _ _ (_ | h)
    · exact Nat.le_refl _
    · exact Nat.le_of_lt (Nat.lt_succ_of_lt h.length_lt)
  have hexponent : ∀ {cs rest : List Char}, Exponent cs rest → rest.length ≤ cs.length := by
    rintro _ _ (_ | ⟨-, _ | -, h⟩)
    · exact Nat.le_refl _
    · exact Nat.le_of_lt (Nat.lt_succ_of_lt h.length_lt)
    · exact Nat.le_of_lt (Nat.lt_succ_of_lt (Nat.lt_succ_of_lt h.length_lt))
  exact Nat.lt_of_le_of_lt (hexponent he) (Nat.lt_of_le_of_lt (hfraction hf) (hwhole hw))

lemma Hex4.length_lt {n : Nat} (h : Hex4 cs n rest) : rest.length < cs.length := by
  obtain ⟨ha, hb, hc, hd, rest⟩ := h
  simp only [List.length_cons]
  omega

lemma Literal.length_lt (h : Literal cs rest) : rest.length < cs.length := by
  induction h with
  | quote rest => exact Nat.lt_succ_self _
  | plain hc _ ih => exact Nat.lt_succ_of_lt ih
  | escape he _ ih => exact Nat.lt_succ_of_lt (Nat.lt_succ_of_lt ih)
  | unicode hn _ ih =>
    have hlength := hn.length_lt
    simp only [List.length_cons]
    omega

lemma Spells.length_lt {ds : List Char} (h : Spells cs ds rest) : rest.length < cs.length := by
  induction h with
  | quote rest => exact Nat.lt_succ_self _
  | plain hc _ ih => exact Nat.lt_succ_of_lt ih
  | escape he _ ih => exact Nat.lt_succ_of_lt (Nat.lt_succ_of_lt ih)
  | unicode hd _ ih =>
    have hlength := hd.length_lt
    simp only [List.length_cons]
    omega
  | pair hn hhigh hlow _ ih =>
    have hlength := hhigh.length_lt
    have hlength' := hlow.length_lt
    simp only [List.length_cons] at hlength ⊢
    omega

mutual
lemma Value.length_lt : ∀ {cs rest : List Char}, Value cs rest → rest.length < cs.length
  | _, _, .null rest | _, _, .true rest | _, _, .false rest => by
    simp only [List.length_cons]
    omega
  | _, _, .unsigned h => h.length_lt
  | _, _, .negative h => Nat.lt_succ_of_lt h.length_lt
  | _, _, .string h => Nat.lt_succ_of_lt h.length_lt
  | _, _, .array h => Nat.lt_succ_of_lt h.length_lt
  | _, _, .object h => Nat.lt_succ_of_lt h.length_lt

lemma Elements.length_lt : ∀ {first : Bool} {cs rest : List Char}, Elements first cs rest →
    rest.length < cs.length
  | _, _, _, .close h => h.length_le
  | _, _, _, .element hs hv h =>
    Nat.lt_of_lt_of_le (Nat.lt_trans h.length_lt hv.length_lt) hs.length_le

lemma Members.length_lt : ∀ {first : Bool} {cs rest : List Char}, Members first cs rest →
    rest.length < cs.length
  | _, _, _, .close h => h.length_le
  | _, _, _, .member hs hk hc hb hv h => by
    have hsep := hs.length_le
    have hkey := hk.length_lt
    have hcolon := hc.length_le
    have hblanks := hb.length_le
    have hvalue := hv.length_lt
    have hmore := h.length_lt
    simp only [List.length_cons] at hsep hcolon
    omega
end

/-- After a blank or a punctuation mark a number does not go on. -/
lemma Blanks.stops {c : Char} (h : Blanks cs (c :: rest)) (hc : c = ',' ∨ c = ']' ∨ c = '\x7d') :
    Stops cs := by
  generalize hrest : c :: rest = cs' at h
  intro d hd
  cases h with
  | none =>
    subst hrest
    cases hd
    rcases hc with rfl | rfl | rfl <;> decide
  | blank hb _ =>
    cases hd
    simp only [List.mem_cons, List.not_mem_nil, or_false] at hb
    rcases hb with rfl | rfl | rfl | rfl <;> decide

lemma Separator.stops (h : Separator false cs rest) : Stops cs := by
  cases h with
  | comma h _ => exact h.stops (.inl rfl)

lemma Elements.stops (h : Elements false cs rest) : Stops cs := by
  cases h with
  | close h => exact h.stops (.inr (.inl rfl))
  | element hs _ _ => exact hs.stops

lemma Members.stops (h : Members false cs rest) : Stops cs := by
  cases h with
  | close h => exact h.stops (.inr (.inr rfl))
  | member hs _ _ _ _ _ => exact hs.stops

/-- A value does not start with a blank, nor with a bracket that closes an array. -/
lemma Value.exists_head (h : Value cs rest) :
    ∃ c cs', cs = c :: cs' ∧ c ∉ [' ', '\n', '\t', '\r'] ∧ c ≠ ']' := by
  have hdigit : ∀ {c : Char}, c.isDigit → c ∉ [' ', '\n', '\t', '\r'] ∧ c ≠ ']' := by
    intro c hc
    constructor
    · intro hm
      simp only [List.mem_cons, List.not_mem_nil, or_false] at hm
      rcases hm with rfl | rfl | rfl | rfl <;> cases hc
    · rintro rfl
      cases hc
  cases h with
  | unsigned h =>
    obtain ⟨hw, -, -⟩ := h
    rcases hw with _ | ⟨-, _ | ⟨hc, -⟩⟩
    · exact ⟨_, _, rfl, by decide⟩
    · exact ⟨_, _, rfl, hdigit ‹_›⟩
    · exact ⟨_, _, rfl, hdigit hc⟩
  | _ => exact ⟨_, _, rfl, by decide⟩

end ScriptBridge.Settings.Json
