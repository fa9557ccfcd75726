import Mathlib.Data.List.Perm.Basic
import ExprLang.Json.Basic

/-!
# Values up to the order of members

In a list of names with values the first value of a name counts. Where no name occurs twice, the
order does not matter.

Two JSON values are alike if they differ only in the order of the members of their objects. What an
object holds under a name is its first member of that name, so members that repeat a name do not
count.
-/

namespace ExprLang

/-! ## Values by name -/

section

variable {α : Type} {entries : List (String × α)} {name : String} {value : α}

theorem mem_of_lookup_eq_some (h : entries.lookup name = some value) :
    (name, value) ∈ entries := by
  obtain ⟨before, after, hsplit, -⟩ := List.lookup_eq_some_iff.mp h
  simp [hsplit]

theorem lookup_eq_some_iff_mem (hnodup : (entries.map Prod.fst).Nodup) :
    entries.lookup name = some value ↔ (name, value) ∈ entries := by
  refine ⟨mem_of_lookup_eq_some, fun hmem => ?_⟩
  obtain ⟨before, after, rfl⟩ := List.append_of_mem hmem
  rw [List.map_append, List.nodup_append] at hnodup
  refine List.lookup_eq_some_iff.mpr ⟨before, after, rfl, fun entry hentry => ?_⟩
  exact bne_iff_ne.mpr (hnodup.2.2 _ (List.mem_map_of_mem hentry) name (by simp)).symm

theorem lookup_eq_of_perm {reordered : List (String × α)} (hnodup : (entries.map Prod.fst).Nodup)
    (h : entries.Perm reordered) : entries.lookup name = reordered.lookup name := by
  apply Option.ext
  intro value
  rw [lookup_eq_some_iff_mem hnodup, h.mem_iff,
    lookup_eq_some_iff_mem ((h.map Prod.fst).nodup_iff.mp hnodup)]

end

namespace Json

/-! ## Alike values -/

/-- What an object holds under a name. -/
def part? (json : Json) (name : String) : Option Json :=
  (json.member? name).map (·.val)

theorem part?_object (members : List (String × Json)) (name : String) :
    (object members).part? name = members.lookup name := by
  rw [part?, member?]
  conv_rhs => rw [← List.attach_map_subtype_val members]
  generalize members.attach = list
  induction list with
  | nil => rfl
  | cons entry list ih =>
      rw [List.findSome?_cons, List.map_cons, List.lookup_cons]
      by_cases hname : entry.val.1 = name
      · simp [hname]
      · rw [beq_eq_false_iff_ne.mpr (Ne.symm hname)]
        simpa [hname] using ih

theorem exists_object_of_part? {json part : Json} {name : String}
    (h : json.part? name = some part) : ∃ members, json = object members := by
  cases json with
  | object members => exact ⟨members, rfl⟩
  | _ => cases h

/-- Whether two values differ only in the order of members. -/
inductive Alike : Json → Json → Prop
  | null : Alike null null
  | bool (value : Bool) : Alike (bool value) (bool value)
  | number (significand : Int) (places : Nat) :
      Alike (number significand places) (number significand places)
  | string (value : String) : Alike (string value) (string value)
  | array {left right : List Json} (hitems : List.Forall₂ Alike left right) :
      Alike (array left) (array right)
  | object {left right : List (String × Json)}
      (hparts : ∀ name, Option.Rel Alike (left.lookup name) (right.lookup name)) :
      Alike (object left) (object right)

theorem alike_string_iff {json : Json} {value : String} :
    json.Alike (.string value) ↔ json = .string value := by
  constructor
  · intro h
    cases h
    rfl
  · rintro rfl
    exact .string value

theorem alike_array_iff {json : Json} {right : List Json} :
    json.Alike (.array right) ↔ ∃ left, json = .array left ∧ List.Forall₂ Alike left right := by
  constructor
  · intro h
    cases h with
    | array hitems => exact ⟨_, rfl, hitems⟩
  · rintro ⟨left, rfl, hitems⟩
    exact .array hitems

/-- A value that is like an object is an object that holds the like under every name. -/
theorem alike_object_iff {json : Json} {right : List (String × Json)} :
    json.Alike (.object right) ↔ (∃ members, json = .object members) ∧
      ∀ name, Option.Rel Alike (json.part? name) (right.lookup name) := by
  constructor
  · intro h
    cases h with
    | @object left _ hparts =>
        refine ⟨⟨left, rfl⟩, fun name => ?_⟩
        rw [part?_object]
        exact hparts name
  · rintro ⟨⟨left, rfl⟩, hparts⟩
    refine .object fun name => ?_
    rw [← part?_object]
    exact hparts name

theorem Alike.refl (json : Json) : json.Alike json := by
  match json with
  | .null => exact .null
  | .bool value => exact .bool value
  | .number significand places => exact .number significand places
  | .string value => exact .string value
  | .array items => exact .array (List.forall₂_same.mpr fun item _ => refl item)
  | .object members =>
      refine .object fun name => ?_
      cases hlookup : members.lookup name with
      | none => exact .none
      | some part =>
          have hmem := mem_of_lookup_eq_some hlookup
          exact .some (refl part)
termination_by json
decreasing_by
  · have := List.sizeOf_lt_of_mem ‹_›
    simp only [array.sizeOf_spec]
    omega
  · have := List.sizeOf_lt_of_mem hmem
    simp only [object.sizeOf_spec, Prod.mk.sizeOf_spec] at *
    omega

/-- Objects that hold the same members in another order are alike if no name occurs twice. -/
theorem Alike.of_perm {left right : List (String × Json)} (hnodup : (left.map Prod.fst).Nodup)
    (h : left.Perm right) : (Json.object left).Alike (.object right) := by
  refine .object fun name => ?_
  rw [lookup_eq_of_perm hnodup h]
  cases right.lookup name with
  | none => exact .none
  | some part => exact .some (refl part)

end Json

end ExprLang
