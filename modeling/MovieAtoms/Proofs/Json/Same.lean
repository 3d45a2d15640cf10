import Mathlib.Data.List.Forall2
import MovieAtoms.Json

/-!
# JSON values up to the order of members

Whoever reads an object looks its members up by name, so two objects are the same value when every
name leads to the same value in both. Main statement: `same_object_iff`, by which objects that name
each of their members once, and by the same names, are the same exactly if their members are, one by
one.
-/

namespace MovieAtoms.Json

/-- The member of that name. Of several the last one counts. -/
def member? (name : String) (members : List (String × Json)) : Option Json :=
  members.reverse.lookup name

/-- The same value, in whatever order the members of objects are given. -/
inductive Same : Json → Json → Prop where
  | null : Same .null .null
  | bool (value : Bool) : Same (.bool value) (.bool value)
  | number (value : Int) : Same (.number value) (.number value)
  | string (value : String) : Same (.string value) (.string value)
  | array {items items' : List Json} (hitems : List.Forall₂ Same items items') :
      Same (.array items) (.array items')
  | object {members members' : List (String × Json)}
      (hmembers : ∀ name, Option.Rel Same (member? name members) (member? name members')) :
      Same (.object members) (.object members')

/-- The same value under the same name. -/
def SameMember (first second : String × Json) : Prop :=
  first.1 = second.1 ∧ Same first.2 second.2

variable {members members' : List (String × Json)}

/-! ### Simple values and arrays -/

@[simp] theorem same_number_iff {value value' : Int} :
    Same (.number value) (.number value') ↔ value = value' := by
  constructor
  · rintro ⟨⟩
    rfl
  · rintro rfl
    exact .number value

@[simp] theorem same_string_iff {text text' : String} :
    Same (.string text) (.string text') ↔ text = text' := by
  constructor
  · rintro ⟨⟩
    rfl
  · rintro rfl
    exact .string text

@[simp] theorem same_array_iff {items items' : List Json} :
    Same (.array items) (.array items') ↔ List.Forall₂ Same items items' := by
  constructor
  · rintro ⟨⟩
    assumption
  · exact .array

/-- Arrays tell of their items what the items tell each for itself. -/
theorem same_ofList_iff {encode : α → Json} {told : α → β}
    (h : ∀ value value', Same (encode value) (encode value') ↔ told value = told value')
    {values values' : List α} :
    Same (ofList encode values) (ofList encode values') ↔ values.map told = values'.map told := by
  simp only [ofList, same_array_iff, List.forall₂_map_left_iff, List.forall₂_map_right_iff, h,
    ← List.forall₂_eq_eq_eq]

/-! ### Objects -/

/-- A member counts if no later one has its name. -/
theorem member?_append_cons {name : String} {value : Json} (h : name ∉ members'.map Prod.fst) :
    member? name (members ++ (name, value) :: members') = some value := by
  rw [member?, List.lookup_eq_some_iff]
  refine ⟨members'.reverse, members.reverse, by simp, ?_⟩
  intro member hmember
  rw [bne_iff_ne]
  intro heq
  exact h (heq ▸ List.mem_map_of_mem (List.mem_reverse.mp hmember))

theorem member?_of_mem {name : String} {value : Json} (hnames : (members.map Prod.fst).Nodup)
    (h : (name, value) ∈ members) : member? name members = some value := by
  obtain ⟨front, back, rfl⟩ := List.append_of_mem h
  rw [List.map_append, List.map_cons, List.nodup_append, List.nodup_cons] at hnames
  exact member?_append_cons hnames.2.1.1

/-- Members that go together one by one answer every name alike. -/
theorem rel_lookup (h : List.Forall₂ SameMember members members') (name : String) :
    Option.Rel Same (members.lookup name) (members'.lookup name) := by
  induction h with
  | nil => exact .none
  | @cons first second _ _ hmember _ ih =>
      obtain ⟨own, value⟩ := first
      obtain ⟨own', value'⟩ := second
      obtain ⟨rfl, hvalue⟩ : own = own' ∧ Same value value' := hmember
      simp only [List.lookup_cons]
      cases name == own with
      | true => exact .some hvalue
      | false => exact ih

theorem same_object_iff (hsame : members.map Prod.fst = members'.map Prod.fst)
    (hnames : (members.map Prod.fst).Nodup) :
    Same (.object members) (.object members') ↔ List.Forall₂ SameMember members members' := by
  constructor
  · rintro ⟨⟩
    rename_i hmembers
    have hpaired : List.Forall₂ (fun first second => first.1 = second.1) members members' := by
      simpa only [← List.forall₂_eq_eq_eq, List.forall₂_map_left_iff,
        List.forall₂_map_right_iff] using hsame
    rw [List.forall₂_iff_zip]
    refine ⟨hpaired.length_eq, ?_⟩
    rintro ⟨name, value⟩ ⟨name', value'⟩ hmem
    obtain rfl : name = name' := List.forall₂_zip hpaired hmem
    obtain ⟨hfirst, hsecond⟩ := List.of_mem_zip hmem
    have hvalues := hmembers name
    rw [member?_of_mem hnames hfirst, member?_of_mem (hsame ▸ hnames) hsecond,
      Option.rel_some_some] at hvalues
    exact ⟨rfl, hvalues⟩
  · intro h
    refine .object fun name => ?_
    exact rel_lookup (List.forall₂_reverse_iff.mpr h) name

end MovieAtoms.Json
