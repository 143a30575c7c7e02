/-
# Overloads

A call binds to one of the overloads of its name.  An overload takes arguments if there is one for
each of its parameters and each fits; how well they fit in sum decides between overloads that take
them, and of several best ones the call binds to the one that was registered first.  A parameter
fits an argument just when the reader of its kind succeeds on it.
-/
import Mathlib.Algebra.Order.BigOperators.Group.List
import Mathlib.Data.List.Forall2
import ScriptBridge.Proofs.Host.Registrations
import ScriptBridge.Proofs.Number.Whole

namespace ScriptBridge.Host

open ScriptBridge.Number

variable {G S M : Type} {p : Param} {v : HostValue} {n : Nat} {args : List HostValue}
  {os more : List (Overload M)} {o q : Overload M}

/-! ### Values that fit -/

/-- The kind of parameter that is for just the values of the kind of a value. -/
def HostValue.param? : HostValue → Option Param
  | .null => none
  | .bool _ => some .bool
  | .int _ => some .int
  | .number _ => some .number
  | .string _ => some .string
  | .date _ => some .date
  | .array _ => some .array
  | .object _ => some .object
  | .foreign _ => some .foreign

namespace Param

/-- An argument fits a kind of parameter. -/
inductive Fits : Param → HostValue → Prop
  /-- Anything fits where anything may be. -/
  | any (v : HostValue) : Fits .any v
  /-- A value fits its own kind. -/
  | exact {p : Param} {v : HostValue} (h : v.param? = some p) : Fits p v
  /-- An integer fits where a number may be. -/
  | ofInt (n : Int32) : Fits .number (.int n)
  /-- A number fits where an integer may be if it is equal to one that fits 32 bits. -/
  | ofNumber {x : Binary64} {n : Int32} (hfinite : x.isFinite = true)
    (hvalue : x.value = n.toInt * Binary64.unitsPerOne) : Fits .int (.number x)

/-- What an argument that fits counts: three for its own kind, two for a conversion, one where
anything may be. -/
def worth (p : Param) (v : HostValue) : Nat :=
  if p = .any then 1 else if v.param? = some p then 3 else 2

lemma isSome_toInt32? {x : Binary64} :
    x.toInt32?.isSome = true ↔ Fits .int (.number x) := by
  rw [Option.isSome_iff_exists]
  constructor
  · rintro ⟨n, hn⟩
    obtain ⟨hfinite, hvalue⟩ := Binary64.toInt32?_eq_some.1 hn
    exact .ofNumber hfinite hvalue
  · intro h
    cases h with
    | exact h => cases h
    | ofNumber hfinite hvalue => exact ⟨_, Binary64.toInt32?_eq_some.2 ⟨hfinite, hvalue⟩⟩

/-- **The score of an argument that fits is what it counts**, and no other argument has one. -/
theorem score_eq_some : p.score v = some n ↔ p.Fits v ∧ n = p.worth v := by
  constructor
  · fun_cases score p v with
    | case1 v =>
      rintro ⟨⟩
      exact ⟨.any v, rfl⟩
    | case4 x hwhole =>
      rintro ⟨⟩
      exact ⟨isSome_toInt32?.1 hwhole, rfl⟩
    | case7 n =>
      rintro ⟨⟩
      exact ⟨.ofInt n, rfl⟩
    | case5 | case13 => nofun
    -- All other pairs that have a score are of one kind.
    | _ =>
      rintro ⟨⟩
      exact ⟨.exact rfl, rfl⟩
  · rintro ⟨hfits, rfl⟩
    cases hfits with
    | any v => rfl
    | exact h => cases v <;> cases h <;> rfl
    | ofInt n => rfl
    | ofNumber hfinite hvalue =>
      have hwhole := isSome_toInt32?.2 (.ofNumber hfinite hvalue)
      simp [score, hwhole, worth, HostValue.param?]

lemma isSome_score : (p.score v).isSome = true ↔ p.Fits v := by
  simp [Option.isSome_iff_exists, score_eq_some]

lemma scores_eq_some {ps : List Param} : scores ps args = some n ↔
    List.Forall₂ Fits ps args ∧ n = (List.zipWith worth ps args).sum := by
  induction ps generalizing args n with
  | nil => cases args <;> simp [scores, eq_comm]
  | cons p ps ih =>
    cases args with
    | nil => simp [scores]
    | cons v vs =>
      have hscores : scores (p :: ps) (v :: vs) = some n ↔
          ∃ m, p.score v = some m ∧ ∃ k, scores ps vs = some k ∧ m + k = n := by
        simp only [scores]
        cases p.score v <;> simp
      rw [hscores, List.forall₂_cons, List.zipWith_cons_cons, List.sum_cons]
      constructor
      · rintro ⟨m, hm, k, hk, rfl⟩
        obtain ⟨hfits, rfl⟩ := score_eq_some.1 hm
        obtain ⟨hrest, rfl⟩ := ih.1 hk
        exact ⟨⟨hfits, hrest⟩, rfl⟩
      · rintro ⟨⟨hfits, hrest⟩, rfl⟩
        exact ⟨_, score_eq_some.2 ⟨hfits, rfl⟩, _, ih.2 ⟨hrest, rfl⟩, rfl⟩

end Param

/-! ### Overloads that take arguments -/

namespace Overload

/-- An overload takes arguments that fit its parameters, one by one. -/
def Takes (o : Overload M) (args : List HostValue) : Prop := List.Forall₂ Param.Fits o.params args

/-- What each argument counts for an overload. -/
def worths (o : Overload M) (args : List HostValue) : List Nat :=
  List.zipWith Param.worth o.params args

/-- What the arguments count for an overload in sum. -/
def total (o : Overload M) (args : List HostValue) : Nat := (o.worths args).sum

/-- An overload takes arguments, and is at least as specific as another for each of them and more
specific for one. -/
structure Surpasses (q o : Overload M) (args : List HostValue) : Prop where
  /-- It takes the arguments. -/
  takes : q.Takes args
  /-- It is as specific for each argument. -/
  each : List.Forall₂ (· ≤ ·) (o.worths args) (q.worths args)
  /-- It is more specific for one argument. -/
  one : ∃ i m n : Nat, (o.worths args)[i]? = some m ∧ (q.worths args)[i]? = some n ∧ m < n

lemma scores_params : Param.scores o.params args = some n ↔ o.Takes args ∧ n = o.total args :=
  Param.scores_eq_some

lemma Surpasses.total_lt (h : q.Surpasses o args) : o.total args < q.total args := by
  obtain ⟨-, heach, i, m, n, hm, hn, hlt⟩ := h
  rw [total, total]
  generalize o.worths args = ms at heach hm ⊢
  generalize q.worths args = ns at heach hn ⊢
  induction heach generalizing i with
  | nil => simp at hm
  | @cons a b as bs hab hrest ih =>
    simp only [List.sum_cons]
    cases i with
    | zero =>
      obtain rfl : a = m := by simpa using hm
      obtain rfl : b = n := by simpa using hn
      have hle : as.sum ≤ bs.sum := hrest.sum_le_sum
      omega
    | succ i =>
      have := ih i (by simpa using hm) (by simpa using hn)
      omega

end Overload

/-! ### Readers -/

/-- What the reader of a kind makes of a value. -/
def Param.read? : Param → HostValue → Option HostValue
  | .any, v => some v
  | .bool, v => v.asBool.map .bool
  | .int, v => v.asInt.map .int
  | .number, v => v.asNumber.map .number
  | .string, v => v.asString.map .string
  | .date, v => v.asDate.map .date
  | .array, v => v.asArray.map .array
  | .object, v => v.asObject.map .object
  | .foreign, v => v.asForeign.map .foreign

lemma Param.isSome_read? : (p.read? v).isSome = true ↔ p.Fits v := by
  rw [← isSome_score]
  cases p <;> cases v <;> simp [read?, score, HostValue.asBool, HostValue.asInt, HostValue.asNumber,
    HostValue.asString, HostValue.asDate, HostValue.asArray, HostValue.asObject,
    HostValue.asForeign]

namespace Args

variable {as : Args} {i : Nat}

lemma map_read {α : Type} (hv : as.values[i]? = some v) (get : HostValue → Option α)
    (f : α → HostValue) : f <$> as.read i p get = v.expect i p.name ((get v).map f) := by
  simp only [read, value, hv, bind, Except.bind]
  cases get v <;> rfl

lemma get_eq_expect (hv : as.values[i]? = some v) :
    as.get i p = v.expect i p.name (p.read? v) := by
  cases p
  case any => simp [get, value, hv, Param.read?, HostValue.expect]
  all_goals exact map_read hv ..

lemma get_of_fits (hv : as.values[i]? = some v) (h : p.Fits v) : ∃ w, as.get i p = .ok w := by
  obtain ⟨w, hw⟩ := Option.isSome_iff_exists.1 (Param.isSome_read?.2 h)
  exact ⟨w, by rw [get_eq_expect hv, hw, HostValue.expect]⟩

lemma get_of_not_fits (hv : as.values[i]? = some v) (h : ¬p.Fits v) :
    as.get i p = .error (.argumentType i p.name v.kind) := by
  rw [← Param.isSome_read?, Bool.not_eq_true, Option.isSome_eq_false_iff, Option.isNone_iff_eq_none]
    at h
  rw [get_eq_expect hv, h, HostValue.expect]

lemma get_of_none (hv : as.values[i]? = none) :
    as.get i p = .error (.argumentType i "value" "nothing") := by
  cases p <;> simp [get, bool, int, number, string, date, array, object, foreign, read, value, hv,
    bind, Except.bind, Functor.map, Except.map]

/-- **The reader of a kind succeeds on just the arguments that fit the kind.** -/
lemma exists_get_eq_ok : (∃ w, as.get i p = .ok w) ↔ ∃ v, as.values[i]? = some v ∧ p.Fits v := by
  cases hv : as.values[i]? with
  | none => simp [get_of_none hv]
  | some v =>
    by_cases h : p.Fits v
    · simpa [h] using get_of_fits hv h
    · simp [h, get_of_not_fits hv h]

end Args

/-- **An overload takes just those arguments that the readers of its parameters take**, if there are
as many of these. -/
lemma Overload.takes_iff_get : o.Takes args ↔ o.params.length = args.length ∧
    ∀ i p, o.params[i]? = some p → ∃ w, (Args.mk args).get i p = .ok w := by
  simp only [Takes, Args.exists_get_eq_ok, List.forall₂_iff_get]
  refine and_congr_right fun hlength => ⟨fun h i p hp => ?_, fun h i hi hi' => ?_⟩
  · obtain ⟨hi, rfl⟩ := List.getElem?_eq_some_iff.1 hp
    exact ⟨args[i], List.getElem?_eq_getElem (hlength ▸ hi), h i hi (hlength ▸ hi)⟩
  · obtain ⟨v, hv, hfits⟩ := h i _ (List.getElem?_eq_getElem hi)
    obtain ⟨_, rfl⟩ := List.getElem?_eq_some_iff.1 hv
    exact hfits

/-! ### The first of the best -/

/-- An overload is the first of those that take arguments for which these count most. -/
def IsFirstBest (args : List HostValue) (os : List (Overload M)) (o : Overload M) : Prop :=
  ∃ before after, os = before ++ o :: after ∧ o.Takes args ∧
    (∀ p ∈ before, p.Takes args → p.total args < o.total args) ∧
    ∀ p ∈ after, p.Takes args → p.total args ≤ o.total args

namespace IsFirstBest

lemma mem (h : IsFirstBest args os o) : o ∈ os := by
  obtain ⟨before, after, rfl, -⟩ := h
  simp

lemma takes (h : IsFirstBest args os o) : o.Takes args := by
  obtain ⟨-, -, -, htakes, -⟩ := h
  exact htakes

lemma total_le (h : IsFirstBest args os o) (hq : q ∈ os) (htakes : q.Takes args) :
    q.total args ≤ o.total args := by
  obtain ⟨before, after, rfl, -, hbefore, hafter⟩ := h
  rcases List.mem_append.1 hq with hq | hq
  · exact (hbefore q hq htakes).le
  · rcases List.mem_cons.1 hq with rfl | hq
    · exact le_rfl
    · exact hafter q hq htakes

/-- Overloads that count no more change nothing when they come later. -/
lemma append (h : IsFirstBest args os o)
    (hmore : ∀ q ∈ more, q.Takes args → q.total args ≤ o.total args) :
    IsFirstBest args (os ++ more) o := by
  obtain ⟨before, after, rfl, htakes, hbefore, hafter⟩ := h
  refine ⟨before, after ++ more, by simp, htakes, hbefore, ?_⟩
  intro q hq
  rcases List.mem_append.1 hq with hq | hq
  · exact hafter q hq
  · exact hmore q hq

/-- An overload for which the arguments count more than for all before it is the first best. -/
lemma concat (htakes : q.Takes args)
    (hless : ∀ p ∈ os, p.Takes args → p.total args < q.total args) :
    IsFirstBest args (os ++ [q]) q :=
  ⟨os, [], rfl, htakes, hless, by simp⟩

/-- There is one first best overload at most. -/
lemma eq (ho : IsFirstBest args os o) (hq : IsFirstBest args os q) : o = q := by
  obtain ⟨before, after, hos, htakes, hbefore, hafter⟩ := ho
  obtain ⟨before', after', hos', htakes', hbefore', hafter'⟩ := hq
  rw [hos] at hos'
  -- Of two positions that differ, the later one is not a first best.
  rcases List.append_eq_append_iff.1 hos' with ⟨mid, hmid, hsplit⟩ | ⟨mid, hmid, hsplit⟩
  all_goals rcases List.cons_eq_append_iff.1 hsplit with ⟨rfl, htail⟩ | ⟨mid', rfl, htail⟩
  · exact (List.cons.inj htail).1.symm
  · have h₁ := hbefore' o (by simp [hmid]) htakes
    have h₂ := hafter q (by simp [htail]) htakes'
    omega
  · exact (List.cons.inj htail).1
  · have h₁ := hbefore q (by simp [hmid]) htakes'
    have h₂ := hafter' o (by simp [htail]) htakes
    omega

end IsFirstBest

/-! ### Resolution -/

namespace Description

lemma best_append (top : Option (Nat × Overload M)) :
    best args top (os ++ more) = best args (best args top os) more := by
  induction os generalizing top with
  | nil => rfl
  | cons o os ih =>
    simp only [List.cons_append, best]
    split
    · exact ih _
    · split
      · exact ih _
      · split <;> exact ih _

/-- The search ends with the first best overload, or none takes the arguments. -/
lemma best_cases (args : List HostValue) (os : List (Overload M)) :
    (best args none os = none ∧ ∀ o ∈ os, ¬o.Takes args) ∨
      ∃ o, best args none os = some (o.total args, o) ∧ IsFirstBest args os o := by
  induction os using List.reverseRecOn with
  | nil => exact .inl ⟨rfl, by simp⟩
  | append_singleton os q ih =>
    rw [best_append]
    cases hscore : Param.scores q.params args with
    | none =>
      have hnot : ¬q.Takes args := fun h => by
        simp [Overload.scores_params.2 ⟨h, rfl⟩] at hscore
      rcases ih with ⟨hnone, hall⟩ | ⟨o, hbest, hfirst⟩
      · left
        refine ⟨by simp [hnone, best, hscore], ?_⟩
        simpa [or_imp, forall_and, hnot] using hall
      · right
        exact ⟨o, by simp [hbest, best, hscore], hfirst.append (by simp [hnot])⟩
    | some n =>
      obtain ⟨htakes, rfl⟩ := Overload.scores_params.1 hscore
      right
      rcases ih with ⟨hnone, hall⟩ | ⟨o, hbest, hfirst⟩
      · exact ⟨q, by simp [hnone, best, hscore], .concat htakes fun p hp h => (hall p hp h).elim⟩
      · by_cases hlt : o.total args < q.total args
        · refine ⟨q, by simp [hbest, best, hscore, hlt], .concat htakes ?_⟩
          intro p hp h
          exact (hfirst.total_le hp h).trans_lt hlt
        · exact ⟨o, by simp [hbest, best, hscore, hlt], hfirst.append (by simp; omega)⟩

variable {typeName name : String} {d : Description G S M} {rs : List (Registration G S M)}

/-- What a call binds to takes its arguments. -/
lemma takes_of_resolve (h : d.resolve name args = .ok o) : o.Takes args := by
  unfold resolve at h
  cases hos : d.overloads name with
  | none => simp [hos] at h
  | some os =>
    rcases best_cases args os with ⟨hbest, -⟩ | ⟨q, hbest, hfirst⟩
    · simp [hos, hbest] at h
    · obtain rfl : q = o := by simpa [hos, hbest] using h
      exact hfirst.takes

/-- A call can fail to bind in two ways, or it binds to the first best overload. -/
lemma resolve_cases (typeName : String) (rs : List (Registration G S M)) (name : String)
    (args : List HostValue) :
    (overloadsNamed rs name = [] ∧ (ofRegistrations typeName rs).resolve name args =
        .error (.missingMember (lastTypeName typeName rs) name)) ∨
      ((overloadsNamed rs name ≠ [] ∧ ∀ o ∈ overloadsNamed rs name, ¬o.Takes args) ∧
        (ofRegistrations typeName rs).resolve name args =
          .error (.noMatchingOverload (lastTypeName typeName rs) name args.length)) ∨
      ∃ o, IsFirstBest args (overloadsNamed rs name) o ∧
        (ofRegistrations typeName rs).resolve name args = .ok o := by
  rw [resolve, overloads_ofRegistrations, name_ofRegistrations]
  by_cases hnone : overloadsNamed rs name = []
  · exact .inl ⟨hnone, by simp [hnone]⟩
  · right
    rcases best_cases args (overloadsNamed rs name) with ⟨hbest, hall⟩ | ⟨o, hbest, hfirst⟩
    · exact .inl ⟨⟨hnone, hall⟩, by simp [hnone, hbest]⟩
    · exact .inr ⟨o, hfirst, by simp [hnone, hbest]⟩

lemma resolve_eq_missingMember : (ofRegistrations typeName rs).resolve name args =
    .error (.missingMember (lastTypeName typeName rs) name) ↔ overloadsNamed rs name = [] := by
  rcases resolve_cases typeName rs name args with ⟨hnone, h⟩ | ⟨⟨hsome, -⟩, h⟩ | ⟨o, hfirst, h⟩
  · simp [h, hnone]
  · simp [h, hsome]
  · simp [h, List.ne_nil_of_mem hfirst.mem]

lemma resolve_eq_noMatchingOverload : (ofRegistrations typeName rs).resolve name args =
      .error (.noMatchingOverload (lastTypeName typeName rs) name args.length) ↔
    overloadsNamed rs name ≠ [] ∧ ∀ o ∈ overloadsNamed rs name, ¬o.Takes args := by
  rcases resolve_cases typeName rs name args with ⟨hnone, h⟩ | ⟨hcase, h⟩ | ⟨o, hfirst, h⟩
  · simp [h, hnone]
  · simpa [h] using hcase
  · simpa [h] using fun _ => ⟨o, hfirst.mem, hfirst.takes⟩

/-- **A call binds to the first best overload of its name**, and to no other. -/
lemma resolve_eq_ok : (ofRegistrations typeName rs).resolve name args = .ok o ↔
    IsFirstBest args (overloadsNamed rs name) o := by
  rcases resolve_cases typeName rs name args with ⟨hnone, h⟩ | ⟨⟨-, hall⟩, h⟩ | ⟨q, hfirst, h⟩
  · simpa [h, hnone] using fun hfirst : IsFirstBest args [] o => List.not_mem_nil hfirst.mem
  · simpa [h] using fun hfirst : IsFirstBest args _ o => hall o hfirst.mem hfirst.takes
  · rw [h, Except.ok.injEq]
    constructor
    · rintro rfl
      exact hfirst
    · exact hfirst.eq

/-- **Resolution picks the first best overload.**  It fails for want of a member if no overload has
the name and for want of a match if none of them takes the arguments, and it gives the first best of
them otherwise.  So an overload that surpasses another is not passed over for it, and registrations
of overloads that count no more change nothing. -/
theorem resolve_ofRegistrations (typeName : String) (rs : List (Registration G S M))
    (name : String) (args : List HostValue) :
    ((ofRegistrations typeName rs).resolve name args =
        .error (.missingMember (lastTypeName typeName rs) name) ↔ overloadsNamed rs name = []) ∧
      ((ofRegistrations typeName rs).resolve name args =
          .error (.noMatchingOverload (lastTypeName typeName rs) name args.length) ↔
        overloadsNamed rs name ≠ [] ∧ ∀ o ∈ overloadsNamed rs name, ¬o.Takes args) ∧
      ((∃ o ∈ overloadsNamed rs name, o.Takes args) ↔
        ∃ o, (ofRegistrations typeName rs).resolve name args = .ok o) ∧
      (∀ o, (ofRegistrations typeName rs).resolve name args = .ok o ↔
        IsFirstBest args (overloadsNamed rs name) o) ∧
      (∀ o, ∀ q ∈ overloadsNamed rs name, q.Surpasses o args →
        (ofRegistrations typeName rs).resolve name args ≠ .ok o) ∧
      ∀ o more, (ofRegistrations typeName rs).resolve name args = .ok o →
        (∀ q ∈ overloadsNamed more name, q.Takes args → q.total args ≤ o.total args) →
        (ofRegistrations typeName (rs ++ more)).resolve name args = .ok o := by
  -- The three outcomes exclude each other, and one of them occurs.
  refine ⟨resolve_eq_missingMember, resolve_eq_noMatchingOverload, ?_, fun o => resolve_eq_ok,
    ?_, ?_⟩
  · rcases resolve_cases typeName rs name args with ⟨hnone, h⟩ | ⟨⟨-, hall⟩, h⟩ | ⟨o, hfirst, h⟩
    · simp [h, hnone]
    · simpa [h] using hall
    · simpa [h] using ⟨o, hfirst.mem, hfirst.takes⟩
  · intro o q hq hsurpasses hok
    have hle := (resolve_eq_ok.1 hok).total_le hq hsurpasses.takes
    have hlt := hsurpasses.total_lt
    omega
  · intro o more hok hmore
    rw [resolve_eq_ok, overloadsNamed, List.filterMap_append]
    exact (resolve_eq_ok.1 hok).append hmore

/-- Of three overloads for one argument, an integer goes to the one for integers, wherever that was
registered. -/
example : ((ofRegistrations "Probe" [.method "pick" [.any] "any", .method "pick" [.number] "number",
    .method "pick" [.int] "int"] : Description Unit Unit String).resolve "pick"
    [.int 1]).toOption.map
      (·.body) = some "int" := rfl

end Description

end ScriptBridge.Host
