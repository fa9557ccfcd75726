import Mathlib.Data.Finmap
import ExprLang.Proofs.Host.Uses

/-!
# Sequences and maps

What each use does to a sequence of values, or to a finite map from names, told apart from any heap.
A value that is stored under an index is read there afterwards, and what all the other indexes and
names read stays what it was.
-/

namespace ExprLang

/-- A use of the element under an index. -/
inductive Use.IsAt (index : Value) : Use → Prop
  | get : IsAt index (.getIndex index)
  | set (value : Value) : IsAt index (.setIndex index value)

/-- A value is read under an index, and all other reads give what they gave before. -/
structure Stored (before after : Use → Answer) (index value : Value) : Prop where
  element : after (.getIndex index) = .ok (some value)
  elements : ∀ other, other ≠ index → after (.getIndex other) = before (.getIndex other)
  properties : ∀ name, Value.string name ≠ index →
    after (.getProperty name) = before (.getProperty name)

/-- A sequence of values, or a finite map with what it calls itself. -/
inductive Collection where
  | sequence (items : List Value)
  | mapping (typeName : String) (fields : Finmap fun _ : String => Value)

namespace Collection

/-- Reads what a map has under a name. -/
def read (typeName : String) (fields : Finmap fun _ : String => Value) (name : String) :
    Except HostError (Option Value × Collection) :=
  match fields.lookup name with
  | some value => .ok (some value, mapping typeName fields)
  | none => .error (.unknownProperty typeName name)

/-- What a use does to a sequence or a map. -/
def grant : Collection → Use → Except HostError (Option Value × Collection)
  | sequence items, .getProperty name =>
    if name = "length" then .ok (some (.int (.ofNat items.length)), sequence items)
    else .error (.unknownProperty "List" name)
  | sequence _, .setProperty name _ => .error (.readOnly "List" name)
  | sequence items, .getIndex index =>
    (index.place items.length).map fun place => (items[place]?, sequence items)
  | sequence items, .setIndex index value =>
    (index.place items.length).map fun place => (none, sequence (items.set place value))
  | sequence items, .invoke method arguments =>
    if method = "push" then
      match arguments with
      | [value] => .ok (some (.int (.ofNat (items.length + 1))), sequence (items ++ [value]))
      | _ => .error (.arity 1 arguments.length)
    else .error (.unknownMethod "List" method)
  | mapping typeName fields, .getProperty name
  | mapping typeName fields, .getIndex (.string name) => read typeName fields name
  | mapping typeName fields, .setProperty name value
  | mapping typeName fields, .setIndex (.string name) value =>
    .ok (none, mapping typeName (fields.insert name value))
  | mapping typeName _, .getIndex index
  | mapping typeName _, .setIndex index _ => .error (.invalidIndex typeName index.kind)
  | mapping typeName _, .invoke method _ => .error (.unknownMethod typeName method)

/-- What a sequence or a map answers to a use. -/
def answer (collection : Collection) (use : Use) : Answer :=
  (settle collection (collection.grant use)).1

/-- A sequence or a map after a use of it. -/
def next (collection : Collection) (use : Use) : Collection :=
  (settle collection (collection.grant use)).2

/-- A sequence or a map after uses of it, in their order. -/
def after (collection : Collection) (uses : List Use) : Collection :=
  uses.foldl next collection

variable {items : List Value} {typeName : String} {fields : Finmap fun _ : String => Value}
  {collection : Collection} {index other value : Value} {name : String}

theorem answer_getIndex_sequence (items : List Value) (index : Value) :
    (sequence items).answer (.getIndex index) =
      (index.place items.length).map fun place => items[place]? := by
  rw [answer, grant]
  cases index.place items.length <;> rfl

theorem answer_getProperty_mapping (typeName : String) (fields : Finmap fun _ : String => Value)
    (name : String) :
    (mapping typeName fields).answer (.getProperty name) =
      (fields.lookup name).elim (.error (.unknownProperty typeName name)) fun value =>
        .ok (some value) := by
  rw [answer, grant, read]
  cases fields.lookup name <;> rfl

/-- An index without a place is refused wherever it is used. -/
theorem answer_of_isAt {error : HostError} {use : Use} (huse : use.IsAt index)
    (h : index.place items.length = .error error) : (sequence items).answer use = .error error := by
  cases huse <;> rw [answer, grant, h] <;> rfl

/-- A map has a field under its name as a string as well. -/
theorem answer_getIndex_string (typeName : String) (fields : Finmap fun _ : String => Value)
    (name : String) :
    (mapping typeName fields).answer (.getIndex (.string name)) =
      (mapping typeName fields).answer (.getProperty name) :=
  rfl

theorem stored_sequence {place : Nat} (h : index.place items.length = .ok place) (value : Value) :
    Stored (sequence items).answer (sequence (items.set place value)).answer index value where
  element := by
    obtain ⟨hplace, -⟩ := Value.place_eq_ok_iff.mp h
    rw [answer_getIndex_sequence, List.length_set, h, Except.map, List.getElem?_set_self hplace]
  elements other hother := by
    rw [answer_getIndex_sequence, answer_getIndex_sequence, List.length_set]
    cases hplace : other.place items.length with
    | error error => rfl
    | ok again =>
        have hne : place ≠ again := by
          rintro rfl
          exact hother (Value.eq_of_place_eq_ok h hplace)
        rw [Except.map, Except.map, List.getElem?_set_ne hne]
  properties name _ := by
    rw [answer, answer, grant, grant, List.length_set]
    split <;> rfl

theorem stored_mapping (typeName : String) (fields : Finmap fun _ : String => Value)
    (name : String) (value : Value) :
    Stored (mapping typeName fields).answer (mapping typeName (fields.insert name value)).answer
      (.string name) value := by
  have hproperty : ∀ other, Value.string other ≠ .string name →
      (mapping typeName (fields.insert name value)).answer (.getProperty other) =
        (mapping typeName fields).answer (.getProperty other) := by
    intro other hother
    rw [answer_getProperty_mapping, answer_getProperty_mapping, Finmap.lookup_insert_of_ne]
    rintro rfl
    exact hother rfl
  refine ⟨?_, fun other hother => ?_, hproperty⟩
  · rw [answer_getIndex_string, answer_getProperty_mapping, Finmap.lookup_insert, Option.elim]
  · cases other with
    | string other => exact hproperty other hother
    | _ => rfl

theorem stored_of_setIndex (h : collection.answer (.setIndex index value) = .ok none) :
    Stored collection.answer (collection.next (.setIndex index value)).answer index value := by
  cases collection with
  | sequence items =>
      rw [answer, grant] at h
      rw [next, grant]
      cases hplace : index.place items.length with
      | error error =>
          rw [hplace] at h
          cases h
      | ok place => exact stored_sequence hplace value
  | mapping typeName fields =>
      cases index with
      | string name => exact stored_mapping typeName fields name value
      | _ => cases h

end Collection

end ExprLang
