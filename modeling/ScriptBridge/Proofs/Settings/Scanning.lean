/-
# Scanning JSON

The scanner takes off the front of a text what the grammar says: blanks, separators, strings with
the characters that they spell, numbers, and values of no interest as they are.  A number ends where
it cannot go on.  The fuel that the scanner starts with is enough for any text.
-/
import Mathlib.Data.List.TakeDrop
import Mathlib.Tactic.IntervalCases
import ScriptBridge.Proofs.Settings.Json
import ScriptBridge.Settings.Scan

namespace ScriptBridge.Settings.Scan

open Json

variable {cs cs' rest ds : List Char} {c closing : Char} {first : Bool} {n fuel : Nat}

/-! ### Blanks and separators -/

lemma isBlank_iff : isBlank c = true ↔ c ∈ [' ', '\n', '\t', '\r'] := by
  simp only [isBlank, Bool.or_eq_true, decide_eq_true_eq, List.mem_cons, List.not_mem_nil, or_false,
    or_assoc]

lemma skipBlanks_of_not_mem (hc : c ∉ [' ', '\n', '\t', '\r']) :
    skipBlanks (c :: cs) = c :: cs := by
  rw [skipBlanks, List.dropWhile_cons, if_neg (mt isBlank_iff.1 hc)]

lemma skipBlanks_of_blanks (h : Blanks cs rest) : skipBlanks cs = skipBlanks rest := by
  induction h with
  | none cs => rfl
  | blank hc _ ih =>
    rw [← ih, skipBlanks, List.dropWhile_cons, if_pos (isBlank_iff.2 hc)]
    rfl

/-- Blanks are skipped up to what is none. -/
lemma skipBlanks_eq (h : Blanks cs (c :: rest)) (hc : c ∉ [' ', '\n', '\t', '\r']) :
    skipBlanks cs = c :: rest :=
  (skipBlanks_of_blanks h).trans (skipBlanks_of_not_mem hc)

lemma nextItem_close (h : Blanks cs (closing :: rest)) (hc : closing ∉ [' ', '\n', '\t', '\r']) :
    nextItem closing first cs = .ok (none, rest) := by
  simp only [nextItem, skipBlanks_eq h hc, if_true]

lemma nextItem_more (h : Separator first cs (c :: rest)) (hc : c ∉ [' ', '\n', '\t', '\r'])
    (hclosing : c ≠ closing) (hcomma : ',' ≠ closing) :
    nextItem closing first cs = .ok (some (), c :: rest) := by
  cases h with
  | first h => simp only [nextItem, skipBlanks_eq h hc, if_neg hclosing, if_true]
  | comma h h' =>
    simp only [nextItem, skipBlanks_eq h (by decide), skipBlanks_eq h' hc, if_neg hclosing,
      if_neg hcomma, Bool.false_eq_true, if_false, if_true]

lemma colon_eq (h : Blanks cs (':' :: rest)) : colon cs = .ok ((), rest) := by
  simp only [colon, skipBlanks_eq h (by decide)]

/-! ### Strings -/

lemma hexDigit?_eq (h : HexDigit c n) : hexDigit? c = some n := by
  have hlt : n < 16 := by
    rcases h with h | h
    all_goals exact (List.getElem?_eq_some_iff.1 h).1
  rcases h with h | h
  all_goals
    interval_cases n <;> cases h <;> decide

lemma hex4_eq (h : Hex4 cs n rest) : hex4 cs = .ok (n, rest) := by
  obtain @⟨a, b, c, d, _, _, _, _, ha, hb, hc, hd, rest⟩ := h
  rw [hex4, if_neg]
  · simp only [hexDigit?_eq ha, hexDigit?_eq hb, hexDigit?_eq hc, hexDigit?_eq hd]
  · -- Four characters take at least four bytes.
    simp only [List.take_succ_cons, List.take_zero, byteCount, List.foldr_cons, List.foldr_nil]
    have hposa := a.utf8Size_pos
    have hposb := b.utf8Size_pos
    have hposc := c.utf8Size_pos
    have hposd := d.utf8Size_pos
    omega

lemma simpleEscape?_eq {e d : Char} (h : (e, d) ∈ escapes) : simpleEscape? e = some d := by
  simp only [escapes, List.mem_cons, Prod.mk.injEq, List.not_mem_nil, or_false] at h
  rcases h with ⟨rfl, rfl⟩ | ⟨rfl, rfl⟩ | ⟨rfl, rfl⟩ | ⟨rfl, rfl⟩ | ⟨rfl, rfl⟩ | ⟨rfl, rfl⟩ |
    ⟨rfl, rfl⟩ | ⟨rfl, rfl⟩ <;> rfl

lemma not_lt_of_isPlain (h : IsPlain c) : ¬ c.toNat < 0x20 := Nat.not_lt.2 h.2.2

lemma ne_u_of_mem_escapes {e d : Char} (h : (e, d) ∈ escapes) : e ≠ 'u' := by
  rintro rfl
  cases simpleEscape?_eq h

lemma skipString_plain (hc : IsPlain c) : skipString (fuel + 1) (c :: cs) = skipString fuel cs := by
  rw [skipString.eq_def]
  dsimp only
  rw [if_neg hc.1, if_neg hc.2.1, if_neg (not_lt_of_isPlain hc)]

lemma skipString_escape {e d : Char} (he : (e, d) ∈ escapes) :
    skipString (fuel + 1) ('\\' :: e :: cs) = skipString fuel cs := by
  rw [skipString.eq_def]
  dsimp only
  rw [if_neg (by decide), if_pos rfl]
  split
  · next heq => cases heq
  · next heq =>
    cases heq
    exact absurd rfl (ne_u_of_mem_escapes he)
  · next heq =>
    cases heq
    rw [simpleEscape?_eq he]
    rfl

lemma skipString_unicode (hn : Hex4 cs n rest) :
    skipString (fuel + 1) ('\\' :: 'u' :: cs) = skipString fuel rest := by
  rw [skipString.eq_def]
  dsimp only
  rw [if_neg (by decide), if_pos rfl]
  change (hex4 cs >>= fun x => skipString fuel x.2) = _
  rw [hex4_eq hn]
  rfl

/-- **A string of no interest is skipped.** -/
theorem skipString_eq (h : Literal cs rest) (hfuel : cs.length < fuel) :
    skipString fuel cs = .ok ((), rest) := by
  induction fuel generalizing cs with
  | zero => cases hfuel
  | succ fuel ih =>
    cases h with
    | quote rest => exact (skipString.eq_def ..).trans (if_pos rfl)
    | plain hc h =>
      rw [skipString_plain hc]
      exact ih h (Nat.lt_of_succ_lt_succ hfuel)
    | escape he h =>
      rw [skipString_escape he]
      simp only [List.length_cons] at hfuel
      exact ih h (by omega)
    | unicode hn h =>
      have hlength := hn.length_lt
      rw [skipString_unicode hn]
      simp only [List.length_cons] at hfuel
      exact ih h (by omega)

/-! ### Strings and what they spell -/

/-- The escape of a character, which is no half of a pair. -/
lemma unicodeEscape_eq (h : Hex4 cs c.toNat rest) : unicodeEscape cs = .ok (c, rest) := by
  have hvalid : c.toNat < 0xD800 ∨ 0xDFFF < c.toNat := by
    rcases c.valid with h | ⟨h, -⟩
    · exact .inl h
    · exact .inr h
  rw [unicodeEscape, hex4_eq h]
  change (if c.toNat < 0xD800 ∨ 0xDFFF < c.toNat then _ else _) = _
  rw [if_pos hvalid, Char.ofNat_toNat]

/-- The escapes of the two halves of a pair. -/
lemma unicodeEscape_pair (hc : c.toNat = 0x10000 + n)
    (hhigh : Hex4 cs (0xD800 + n / 0x400) ('\\' :: 'u' :: cs'))
    (hlow : Hex4 cs' (0xDC00 + n % 0x400) rest) : unicodeEscape cs = .ok (c, rest) := by
  have hlt : n < 0x100000 := by
    rcases c.valid with h | ⟨-, h⟩
    · change c.toNat < 0xD800 at h
      omega
    · change c.toNat < 0x110000 at h
      omega
  have hhalf : lowHalf ('\\' :: 'u' :: cs') = .ok (0xDC00 + n % 0x400, rest) := by
    rw [lowHalf, hex4_eq hlow]
    exact if_pos (by omega)
  rw [unicodeEscape, hex4_eq hhigh]
  change (if _ then _ else if _ then _ else _) = _
  rw [if_neg (by omega), if_neg (by omega), hhalf]
  change Except.ok (Char.ofNat _, rest) = _
  rw [show 0x10000 + (0xD800 + n / 0x400 - 0xD800) * 0x400 + (0xDC00 + n % 0x400 - 0xDC00) = c.toNat
    by omega, Char.ofNat_toNat]

lemma stringTail_plain (hc : IsPlain c) (h : stringTail fuel cs = .ok (ds, rest)) :
    stringTail (fuel + 1) (c :: cs) = .ok (c :: ds, rest) := by
  rw [stringTail.eq_def]
  dsimp only
  rw [if_neg hc.1, if_neg hc.2.1, if_neg (not_lt_of_isPlain hc), h]
  rfl

lemma stringTail_escape {e d : Char} (he : (e, d) ∈ escapes)
    (h : stringTail fuel cs = .ok (ds, rest)) :
    stringTail (fuel + 1) ('\\' :: e :: cs) = .ok (d :: ds, rest) := by
  rw [stringTail.eq_def]
  dsimp only
  rw [if_neg (by decide), if_pos rfl]
  split
  · next heq => cases heq
  · next heq =>
    cases heq
    exact absurd rfl (ne_u_of_mem_escapes he)
  · next heq =>
    cases heq
    rw [simpleEscape?_eq he]
    dsimp only
    rw [h]
    rfl

lemma stringTail_unicode (hd : unicodeEscape cs = .ok (c, cs'))
    (h : stringTail fuel cs' = .ok (ds, rest)) :
    stringTail (fuel + 1) ('\\' :: 'u' :: cs) = .ok (c :: ds, rest) := by
  rw [stringTail.eq_def]
  dsimp only
  rw [if_neg (by decide), if_pos rfl]
  change (unicodeEscape cs >>= fun x => stringTail fuel x.2 >>= _) = _
  rw [hd]
  change (stringTail fuel cs' >>= _) = _
  rw [h]
  rfl

lemma stringTail_eq (h : Spells cs ds rest) (hfuel : cs.length < fuel) :
    stringTail fuel cs = .ok (ds, rest) := by
  induction fuel generalizing cs ds with
  | zero => cases hfuel
  | succ fuel ih =>
    cases h with
    | quote rest => exact (stringTail.eq_def ..).trans (if_pos rfl)
    | plain hc h => exact stringTail_plain hc (ih h (Nat.lt_of_succ_lt_succ hfuel))
    | escape he h =>
      simp only [List.length_cons] at hfuel
      exact stringTail_escape he (ih h (by omega))
    | unicode hd h =>
      have hlength := hd.length_lt
      simp only [List.length_cons] at hfuel
      exact stringTail_unicode (unicodeEscape_eq hd) (ih h (by omega))
    | pair hn hhigh hlow h =>
      have hlength := hhigh.length_lt
      have hlength' := hlow.length_lt
      simp only [List.length_cons] at hfuel hlength
      exact stringTail_unicode (unicodeEscape_pair hn hhigh hlow) (ih h (by omega))

/-- **A string is read as the characters that it spells.** -/
theorem string_eq {name : String} (h : Spells cs name.toList rest) :
    string cs = .ok (name, rest) := by
  rw [string, stringTail_eq h (Nat.lt_succ_self _)]
  exact congrArg (fun s => Except.ok (s, rest)) (String.ofList_toList ..)

/-! ### Numbers -/

/-- Digits are taken up to what is none. -/
lemma digits_append (hds : ∀ d ∈ ds, d.isDigit = true) (hr : ∀ c ∈ rest.head?, c.isDigit = false) :
    digits (ds ++ rest) = (ds, rest) := by
  have hnone : rest.takeWhile Char.isDigit = [] ∧ rest.dropWhile Char.isDigit = rest := by
    cases rest with
    | nil => exact ⟨rfl, rfl⟩
    | cons c rest =>
      have hc : ¬ c.isDigit = true := by rw [hr c rfl]; exact Bool.false_ne_true
      exact ⟨List.takeWhile_cons_of_neg hc, List.dropWhile_cons_of_neg hc⟩
  rw [digits, List.span_eq_takeWhile_dropWhile, List.takeWhile_append_of_pos hds,
    List.dropWhile_append_of_pos hds, hnone.1, hnone.2, List.append_nil]

lemma exists_of_digits (h : Digits cs rest) :
    ∃ d ds, cs = d :: ds ++ rest ∧ ∀ x ∈ d :: ds, x.isDigit = true := by
  induction h with
  | last hc rest => exact ⟨_, [], rfl, by simpa using hc⟩
  | digit hc _ ih =>
    obtain ⟨d, ds, rfl, hds⟩ := ih
    exact ⟨_, d :: ds, rfl, List.forall_mem_cons.2 ⟨hc, hds⟩⟩

lemma skipExponent_eq (hs : Sign cs cs') (h : Digits cs' rest) (hr : Stops rest) :
    skipExponent cs = .ok ((), rest) := by
  obtain ⟨d, ds, rfl, hds⟩ := exists_of_digits h
  have hdigits := digits_append hds fun c hc => (hr c hc).1
  cases hs with
  | none =>
    have hd : d.isDigit = true := hds d (List.mem_cons_self ..)
    have hplus : d ≠ '+' := by
      rintro rfl
      cases hd
    have hminus : d ≠ '-' := by
      rintro rfl
      cases hd
    rw [List.cons_append] at hdigits
    simp only [skipExponent, List.cons_append, List.cons.injEq, hplus, hminus, hdigits,
      false_and, imp_false, not_false_eq_true, implies_true]
  | sign hc =>
    rcases hc with rfl | rfl <;> simp only [skipExponent, hdigits]

lemma skipFraction_eq (hf : Fraction cs cs') (he : Exponent cs' rest) (hr : Stops rest) :
    skipFraction cs = .ok ((), rest) := by
  cases hf with
  | none =>
    cases he with
    | none =>
      unfold skipFraction
      split <;> first | rfl | exact absurd rfl (hr _ rfl).2.1 | exact absurd rfl (hr _ rfl).2.2.1 |
        exact absurd rfl (hr _ rfl).2.2.2
    | mark hc hs h =>
      rcases hc with rfl | rfl <;> exact skipExponent_eq hs h hr
  | point h =>
    obtain ⟨d, ds, rfl, hds⟩ := exists_of_digits h
    cases he with
    | none =>
      rw [skipFraction, digits_append hds fun c hc => (hr c hc).1]
      split
      · next heq => cases heq
      · next heq =>
        cases heq
        exact absurd rfl (hr _ rfl).2.2.1
      · next heq =>
        cases heq
        exact absurd rfl (hr _ rfl).2.2.2
      · next heq =>
        cases heq
        rfl
    | mark hc hs h =>
      rcases hc with rfl | rfl
      all_goals
        rw [skipFraction, digits_append hds (by rintro c ⟨⟩; decide)]
        exact skipExponent_eq hs ‹_› hr

/-- What follows the whole part of a number is no digit. -/
lemma not_isDigit_of_fraction (hf : Fraction cs cs') (he : Exponent cs' rest) (hr : Stops rest) :
    ∀ c ∈ cs.head?, c.isDigit = false := by
  intro c hc
  cases hf with
  | point => cases hc; rfl
  | none =>
    cases he with
    | none => exact (hr c hc).1
    | mark h =>
      cases hc
      rcases h with rfl | rfl <;> rfl

/-- The digits of the whole part of a number: a zero by itself, or others that do not start with
one. -/
lemma digits_whole (hw : Whole cs cs') (hr : ∀ c ∈ cs'.head?, c.isDigit = false) :
    ∃ d ds, digits cs = (d :: ds, cs') ∧ (d = '0' → ds = []) := by
  cases hw with
  | zero =>
    have hzero : ∀ d ∈ ['0'], d.isDigit = true := by simp
    exact ⟨'0', [], digits_append hzero hr, fun _ => rfl⟩
  | digits hc h =>
    obtain ⟨d, ds, heq, hds⟩ := exists_of_digits h
    cases heq
    exact ⟨_, _, digits_append hds hr, fun h => absurd h hc⟩

/-- **A number of no interest is skipped.** -/
theorem skipNumber_eq (h : Unsigned cs rest) (hr : Stops rest) :
    skipNumber cs = .ok ((), rest) := by
  obtain ⟨hw, hf, he⟩ := h
  obtain ⟨d, ds, hdigits, hzero⟩ := digits_whole hw (not_isDigit_of_fraction hf he hr)
  rw [skipNumber, hdigits]
  split
  · next heq => cases heq
  · next heq =>
    cases heq
    cases hzero rfl
  · next heq =>
    cases heq
    exact skipFraction_eq hf he hr

/-! ### Values -/

lemma exists_digit (h : Unsigned cs rest) : ∃ c cs', cs = c :: cs' ∧ c.isDigit = true := by
  obtain ⟨hw, -, -⟩ := h
  rcases hw with _ | ⟨-, _ | ⟨hc, -⟩⟩
  · exact ⟨_, _, rfl, rfl⟩
  · exact ⟨_, _, rfl, ‹_›⟩
  · exact ⟨_, _, rfl, hc⟩

lemma skipValue_of_blanks (h : Blanks cs cs') : skipValue fuel cs = skipValue fuel cs' := by
  cases fuel with
  | zero => rw [skipValue, skipValue]
  | succ fuel => rw [skipValue, skipValue, skipBlanks_of_blanks h]

/-- A text that starts with a digit is a number. -/
lemma skipValue_digit (hc : c.isDigit = true) :
    skipValue (fuel + 1) (c :: cs) = skipNumber (c :: cs) := by
  have hblank : c ∉ [' ', '\n', '\t', '\r'] := by
    intro hm
    simp only [List.mem_cons, List.not_mem_nil, or_false] at hm
    rcases hm with rfl | rfl | rfl | rfl <;> cases hc
  rw [skipValue, skipBlanks_of_not_mem hblank]
  split <;> next heq => cases heq <;> first | cases hc | exact if_pos hc

/-- **A value of no interest is skipped**, and so are the elements of an array and the entries of an
object. -/
theorem skipValue_eq : ∀ fuel : Nat,
    (∀ {cs cs' rest : List Char}, Blanks cs' cs → Value cs rest → Stops rest →
      2 * cs.length ≤ fuel → skipValue fuel cs' = .ok ((), rest)) ∧
    (∀ {first : Bool} {cs rest : List Char}, Elements first cs rest → 2 * cs.length < fuel →
      skipElements fuel first cs = .ok ((), rest)) ∧
    (∀ {first : Bool} {cs rest : List Char}, Members first cs rest → 2 * cs.length < fuel →
      skipEntries fuel first cs = .ok ((), rest))
  | 0 => by
    refine ⟨fun _ hv _ hfuel => ?_, fun _ hfuel => absurd hfuel (Nat.not_lt_zero _),
      fun _ hfuel => absurd hfuel (Nat.not_lt_zero _)⟩
    have hlength := hv.length_lt
    omega
  | fuel + 1 => by
    -- Each of the three calls the others with less fuel, for a shorter text.
    obtain ⟨ihv, ihe, ihm⟩ := skipValue_eq fuel
    refine ⟨fun hb hv hr hfuel => ?_, fun he hfuel => ?_, fun hm hfuel => ?_⟩
    · rw [skipValue_of_blanks hb]
      cases hv with
      | null => rfl
      | true => rfl
      | false => rfl
      | unsigned h =>
        obtain ⟨c, t, rfl, hc⟩ := exists_digit h
        rw [skipValue_digit hc]
        exact skipNumber_eq h hr
      | negative h => exact skipNumber_eq h hr
      | string h => exact skipString_eq h (Nat.lt_succ_self _)
      | array h =>
        rw [List.length_cons] at hfuel
        exact ihe h (by omega)
      | object h =>
        rw [List.length_cons] at hfuel
        exact ihm h (by omega)
    · cases he with
      | close h =>
        rw [skipElements, nextItem_close h (by decide)]
        rfl
      | element hs hv h =>
        obtain ⟨c, t, rfl, hc, hclose⟩ := hv.exists_head
        have hsep := hs.length_le
        have hvalue := hv.length_lt
        rw [skipElements, nextItem_more hs hc hclose (by decide)]
        change (skipValue fuel (c :: t) >>= fun x => skipElements fuel false x.2) = _
        have hmore := ihe h (by omega)
        rw [ihv (.none _) hv h.stops (by omega)]
        exact hmore
    · cases hm with
      | close h =>
        rw [skipEntries, nextItem_close h (by decide)]
        rfl
      | member hs hk hc hb hv h =>
        have hsep := hs.length_le
        have hkey := hk.length_lt
        have hcolon := hc.length_le
        have hblanks := hb.length_le
        have hvalue := hv.length_lt
        simp only [List.length_cons] at hsep hcolon
        rw [skipEntries, nextItem_more hs (by decide) (by decide) (by decide)]
        change (skipString _ _ >>= fun x => colon x.2 >>= fun x => skipValue fuel x.2 >>= fun x =>
          skipEntries fuel false x.2) = _
        rw [skipString_eq hk (Nat.lt_succ_self _)]
        change (colon _ >>= fun x => skipValue fuel x.2 >>= fun x => skipEntries fuel false x.2) = _
        rw [colon_eq hc]
        change (skipValue fuel _ >>= fun x => skipEntries fuel false x.2) = _
        have hmore := ihm h (by omega)
        rw [ihv hb hv h.stops (by omega)]
        exact hmore

end ScriptBridge.Settings.Scan
