/-
# What registrations say

A description is built from registrations, which are made in any order and may repeat a name.  What
it then says about a name depends on the registrations of that name only: its getter and its setter
are those registered last, and its overloads are all that were registered, in their order.
-/
import Mathlib.Data.List.Induction
import ScriptBridge.Host.Description

namespace ScriptBridge.Host

variable {G S M α : Type} {typeName name : String} {d : Description G S M}
  {rs : List (Registration G S M)}

lemma lookup_alter (key : String) (start : α) (f : α → α) (entries : List (String × α)) :
    (alter key start f entries).lookup name =
      if name = key then some (f ((entries.lookup key).getD start)) else entries.lookup name := by
  induction entries with
  | nil =>
    by_cases h : name = key
    · simp [alter, h]
    · simp [alter, h, List.lookup_cons, beq_false_of_ne h]
  | cons entry rest ih =>
    obtain ⟨k, a⟩ := entry
    by_cases hk : k = key
    · subst hk
      by_cases h : name = k
      · simp [alter, h]
      · simp [alter, h, List.lookup_cons, beq_false_of_ne h]
    · by_cases h : name = key
      · subst h
        simp [alter, hk, List.lookup_cons, beq_false_of_ne (Ne.symm hk), ih]
      · simp [alter, hk, h, List.lookup_cons, ih]

/-! ### Registrations of a name -/

namespace Registration

/-- The getter that is registered for a name. -/
def getter? (name : String) : Registration G S M → Option G
  | .getter n get => if n = name then some get else none
  | _ => none

/-- The setter that is registered for a name. -/
def setter? (name : String) : Registration G S M → Option S
  | .setter n set => if n = name then some set else none
  | _ => none

/-- The overload that is registered for a name. -/
def overload? (name : String) : Registration G S M → Option (Overload M)
  | .method n params body => if n = name then some ⟨params, body⟩ else none
  | _ => none

/-- The name of the type that is registered. -/
def typeName? : Registration G S M → Option String
  | .typeName name => some name
  | _ => none

end Registration

/-- The getter of a name that was registered last. -/
def lastGetter (rs : List (Registration G S M)) (name : String) : Option G :=
  (rs.filterMap (·.getter? name)).getLast?

/-- The setter of a name that was registered last. -/
def lastSetter (rs : List (Registration G S M)) (name : String) : Option S :=
  (rs.filterMap (·.setter? name)).getLast?

/-- The overloads of a name, in the order of their registration. -/
def overloadsNamed (rs : List (Registration G S M)) (name : String) : List (Overload M) :=
  rs.filterMap (·.overload? name)

/-- The name of the type that was registered last, or else the one that it has by itself. -/
def lastTypeName (typeName : String) (rs : List (Registration G S M)) : String :=
  (rs.filterMap Registration.typeName?).getLast?.getD typeName

/-! ### One more registration -/

namespace Description

lemma getter_register (d : Description G S M) (r : Registration G S M) :
    (d.register r).getter name = (r.getter? name).or (d.getter name) := by
  cases r with
  | getter n get =>
    simp only [register, getter, property, lookup_alter, Registration.getter?, @eq_comm _ n]
    split <;> simp
  | setter n set =>
    simp only [register, getter, property, lookup_alter, Registration.getter?, Option.none_or]
    split
    · next heq =>
      subst heq
      cases d.properties.lookup name <;> rfl
    · rfl
  | typeName n => rfl
  | method n params body => rfl

lemma setter_register (d : Description G S M) (r : Registration G S M) :
    (d.register r).setter name = (r.setter? name).or (d.setter name) := by
  cases r with
  | setter n set =>
    simp only [register, setter, property, lookup_alter, Registration.setter?, @eq_comm _ n]
    split <;> simp
  | getter n get =>
    simp only [register, setter, property, lookup_alter, Registration.setter?, Option.none_or]
    split
    · next heq =>
      subst heq
      cases d.properties.lookup name <;> rfl
    · rfl
  | typeName n => rfl
  | method n params body => rfl

lemma overloads_register (d : Description G S M) (r : Registration G S M) :
    (d.register r).overloads name =
      (r.overload? name).elim (d.overloads name) fun o =>
        some ((d.overloads name).getD [] ++ [o]) := by
  cases r with
  | method n params body =>
    simp only [register, overloads, lookup_alter, Registration.overload?, @eq_comm _ n]
    split
    · next heq =>
      subst heq
      rfl
    · rfl
  | typeName n => rfl
  | getter n get => rfl
  | setter n set => rfl

lemma name_register (d : Description G S M) (r : Registration G S M) :
    (d.register r).name = r.typeName?.getD d.name := by
  cases r <;> rfl

/-- A name is that of a property once it has a half of one. -/
lemma isSome_property_register (d : Description G S M) (r : Registration G S M) :
    ((d.register r).property name).isSome =
      ((r.getter? name).isSome || (r.setter? name).isSome || (d.property name).isSome) := by
  cases r with
  | getter n get =>
    simp only [register, property, lookup_alter, Registration.getter?, Registration.setter?,
      @eq_comm _ n]
    split <;> simp
  | setter n set =>
    simp only [register, property, lookup_alter, Registration.getter?, Registration.setter?,
      @eq_comm _ n]
    split <;> simp
  | typeName n => rfl
  | method n params body => rfl

/-! ### All registrations -/

lemma ofRegistrations_concat (typeName : String) (rs : List (Registration G S M))
    (r : Registration G S M) :
    ofRegistrations typeName (rs ++ [r]) = (ofRegistrations typeName rs).register r :=
  List.foldl_append ..

/-- **The getter of a name is the one registered last.** -/
theorem getter_ofRegistrations (typeName : String) (rs : List (Registration G S M))
    (name : String) : (ofRegistrations typeName rs).getter name = lastGetter rs name := by
  induction rs using List.reverseRecOn with
  | nil => rfl
  | append_singleton rs r ih =>
    rw [ofRegistrations_concat, getter_register, ih, lastGetter, lastGetter, List.filterMap_append,
      List.getLast?_append]
    cases h : r.getter? name <;> simp [h]

/-- **The setter of a name is the one registered last.** -/
theorem setter_ofRegistrations (typeName : String) (rs : List (Registration G S M))
    (name : String) : (ofRegistrations typeName rs).setter name = lastSetter rs name := by
  induction rs using List.reverseRecOn with
  | nil => rfl
  | append_singleton rs r ih =>
    rw [ofRegistrations_concat, setter_register, ih, lastSetter, lastSetter, List.filterMap_append,
      List.getLast?_append]
    cases h : r.setter? name <;> simp [h]

/-- A name is that of a property if a getter or a setter is registered for it. -/
lemma isSome_property_ofRegistrations (typeName : String) (rs : List (Registration G S M))
    (name : String) : ((ofRegistrations typeName rs).property name).isSome =
      ((lastGetter rs name).isSome || (lastSetter rs name).isSome) := by
  induction rs using List.reverseRecOn with
  | nil => rfl
  | append_singleton rs r ih =>
    rw [ofRegistrations_concat, isSome_property_register, ih]
    simp only [lastGetter, lastSetter, List.filterMap_append, List.getLast?_append]
    cases h : r.getter? name <;> cases h' : r.setter? name <;> simp [h, h']

/-- **The overloads of a name are all that are registered**, if any is. -/
theorem overloads_ofRegistrations (typeName : String) (rs : List (Registration G S M))
    (name : String) : (ofRegistrations typeName rs).overloads name =
      if overloadsNamed rs name = [] then none else some (overloadsNamed rs name) := by
  induction rs using List.reverseRecOn with
  | nil => rfl
  | append_singleton rs r ih =>
    rw [ofRegistrations_concat, overloads_register, ih, overloadsNamed, overloadsNamed,
      List.filterMap_append]
    cases h : r.overload? name with
    | none => simp [h]
    | some o =>
      simp only [List.filterMap_cons, h, List.filterMap_nil, Option.elim_some]
      split <;> simp_all

lemma hasMethod_ofRegistrations (typeName : String) (rs : List (Registration G S M))
    (name : String) : (ofRegistrations typeName rs).hasMethod name = true ↔
      overloadsNamed rs name ≠ [] := by
  rw [hasMethod, overloads_ofRegistrations]
  split <;> simp_all

/-- The name in messages is the one registered last. -/
lemma name_ofRegistrations (typeName : String) (rs : List (Registration G S M)) :
    (ofRegistrations typeName rs).name = lastTypeName typeName rs := by
  induction rs using List.reverseRecOn with
  | nil => rfl
  | append_singleton rs r ih =>
    rw [ofRegistrations_concat, name_register, ih, lastTypeName, lastTypeName,
      List.filterMap_append, List.getLast?_append]
    cases h : r.typeName? <;> simp [h]

end Description

end ScriptBridge.Host
