import ExprLang.Proofs.Host.Contents

/-!
# Uses of shared objects

Objects are read, written and called, in any order and through any of the values that share them.
A use that is refused changes nothing and one that is granted changes the object it is made of
alone. Nothing takes an item or a field away, so what could be read once can be read after any
further uses.
-/

namespace ExprLang

/-- What can be asked of an object. -/
inductive Use where
  | getProperty (name : String)
  | setProperty (name : String) (value : Value)
  | getIndex (index : Value)
  | setIndex (index value : Value)
  | invoke (method : String) (arguments : List Value)

/-- What is answered to a use: a value, nothing or a refusal. -/
abbrev Answer := Except HostError (Option Value)

/-- The answer, and what there is then: a refusal leaves everything as it was. -/
def settle {State : Type} (before : State) :
    Except HostError (Option Value × State) → Answer × State
  | .ok (answer, next) => (.ok answer, next)
  | .error error => (.error error, before)

/-- The place that an index means in a sequence of a length. -/
def Value.place (length : Nat) : Value → Except HostError Nat
  | int index =>
    if 0 ≤ index.toInt ∧ index.toInt < length then .ok index.toInt.toNat
    else .error (.indexOutOfRange index length)
  | index => .error (.invalidIndex "List" index.kind)

namespace Value

variable {length place : Nat} {index other : Value}

theorem place_eq_ok_iff : index.place length = .ok place ↔
    place < length ∧ ∃ number : Int64, index = int number ∧ number.toInt = place := by
  cases index with
  | int number =>
      rw [Value.place]
      split
      next hrange =>
        simp only [Except.ok.injEq, int.injEq, exists_eq_left']
        omega
      next hrange =>
        simp only [reduceCtorEq, int.injEq, exists_eq_left', false_iff]
        omega
  | _ => simp [Value.place]

/-- Two indexes do not mean one place. -/
theorem eq_of_place_eq_ok (h : index.place length = .ok place)
    (hother : other.place length = .ok place) : other = index := by
  obtain ⟨-, number, rfl, hnumber⟩ := place_eq_ok_iff.mp h
  obtain ⟨-, again, rfl, hagain⟩ := place_eq_ok_iff.mp hother
  exact congrArg int (Int64.toInt_inj.mp (hagain.trans hnumber.symm))

end Value

namespace Object

/-- What an object does when it is used. -/
def grant (object : Object) : Use → Except HostError (Option Value × Object)
  | .getProperty name => (object.getProperty name).map fun value => (some value, object)
  | .setProperty name value => (object.setProperty name value).map fun next => (none, next)
  | .getIndex index => (object.getIndex index).map fun value => (some value, object)
  | .setIndex index value => (object.setIndex index value).map fun next => (none, next)
  | .invoke method arguments =>
    (object.invoke method arguments).map fun (value, next) => (some value, next)

/-- What can be read of an object can be read of the next one. -/
structure Keeps (object next : Object) : Prop where
  index : ∀ index value, object.getIndex index = .ok value →
    ∃ now, next.getIndex index = .ok now
  property : ∀ name value, object.getProperty name = .ok value →
    ∃ now, next.getProperty name = .ok now

theorem Keeps.refl (object : Object) : object.Keeps object where
  index _ value h := ⟨value, h⟩
  property _ value h := ⟨value, h⟩

theorem Keeps.trans {object next last : Object} (hnext : object.Keeps next)
    (hlast : next.Keeps last) : object.Keeps last where
  index index value h := by
    obtain ⟨now, hnow⟩ := hnext.index index value h
    exact hlast.index index now hnow
  property name value h := by
    obtain ⟨now, hnow⟩ := hnext.property name value h
    exact hlast.property name now hnow

variable {object next : Object} {answer : Option Value} {use : Use} {typeName : String}

theorem map_slot (items : Array Value) (index : Value) :
    (slot items index).map (fun place : Fin items.size => (place : Nat)) =
      index.place items.size := by
  cases index with
  | int number =>
      rw [slot, Value.place]
      split <;> rfl
  | _ => rfl

/-- A list that is at least as long has all the indexes. -/
theorem keeps_list {items longer : Array Value} (h : items.size ≤ longer.size) :
    (list items).Keeps (list longer) where
  index index value hvalue := by
    rw [getIndex] at hvalue
    cases hslot : slot items index with
    | error error =>
        rw [hslot] at hvalue
        cases hvalue
    | ok place =>
        have hplace : index.place items.size = .ok place := by
          rw [← map_slot, hslot]
          rfl
        obtain ⟨hlt, hnumber⟩ := Value.place_eq_ok_iff.mp hplace
        have hlonger : index.place longer.size = .ok place :=
          Value.place_eq_ok_iff.mpr ⟨by omega, hnumber⟩
        rw [← map_slot] at hlonger
        rw [getIndex]
        cases hslot : slot longer index with
        | error error =>
            rw [hslot] at hlonger
            cases hlonger
        | ok other => exact ⟨longer[other], rfl⟩
  property name value hvalue := by
    rw [getProperty] at hvalue ⊢
    split at hvalue
    next hname => exact ⟨_, if_pos hname⟩
    next => cases hvalue

/-- A record that has at least the same names has all the fields. -/
theorem keeps_record {fields more : Fields} (h : ∀ name : String, name ∈ fields → name ∈ more) :
    (record typeName fields).Keeps (record typeName more) := by
  have hread : ∀ (name : String) value, readField typeName fields name = .ok value →
      ∃ now, readField typeName more name = .ok now := by
    intro name value hvalue
    have hfield : name ∈ fields := Std.ExtTreeMap.mem_iff_isSome_getElem?.mpr (by
      rw [getElem?_of_readField hvalue]
      rfl)
    have hmore : name ∈ more := h name hfield
    exact ⟨more[name], by rw [readField, Std.ExtTreeMap.getElem?_eq_some_getElem hmore]⟩
  refine ⟨fun index value hvalue => ?_, hread⟩
  rw [getIndex] at hvalue ⊢
  cases hkey : key typeName index with
  | error error =>
      rw [hkey] at hvalue
      cases hvalue
  | ok name =>
      rw [hkey] at hvalue
      exact hread name value hvalue

theorem keeps_of_setProperty {name : String} {value : Value}
    (h : object.setProperty name value = .ok next) : object.Keeps next := by
  cases object <;> cases h
  exact keeps_record fun other hother => Std.ExtTreeMap.mem_insert.mpr (.inr hother)

theorem keeps_of_setIndex {index value : Value} (h : object.setIndex index value = .ok next) :
    object.Keeps next := by
  cases object with
  | list items =>
      rw [setIndex] at h
      cases hslot : slot items index <;> rw [hslot] at h <;> cases h
      exact keeps_list (Nat.le_of_eq (Array.size_set _).symm)
  | record typeName fields =>
      rw [setIndex] at h
      cases hkey : key typeName index <;> rw [hkey] at h
      · cases h
      · exact keeps_of_setProperty h
  | custom sort typeName state => cases h

theorem keeps_of_invoke {method : String} {arguments : List Value} {value : Value}
    (h : object.invoke method arguments = .ok (value, next)) : object.Keeps next := by
  cases object with
  | list items =>
      simp only [invoke] at h
      split at h
      · split at h <;> cases h
        exact keeps_list (by rw [Array.size_push]; omega)
      · cases h
  | record typeName fields => cases h
  | custom sort typeName state => cases h

/-- Nothing that a use does to an object takes an item or a field away. -/
theorem keeps_of_grant (h : object.grant use = .ok (answer, next)) : object.Keeps next := by
  cases use with
  | getProperty name =>
      rw [grant] at h
      cases hread : object.getProperty name <;> rw [hread] at h <;> cases h
      exact .refl object
  | setProperty name value =>
      rw [grant] at h
      cases hset : object.setProperty name value <;> rw [hset] at h <;> cases h
      exact keeps_of_setProperty hset
  | getIndex index =>
      rw [grant] at h
      cases hread : object.getIndex index <;> rw [hread] at h <;> cases h
      exact .refl object
  | setIndex index value =>
      rw [grant] at h
      cases hset : object.setIndex index value <;> rw [hset] at h <;> cases h
      exact keeps_of_setIndex hset
  | invoke method arguments =>
      rw [grant] at h
      cases hinvoke : object.invoke method arguments <;> rw [hinvoke] at h <;> cases h
      exact keeps_of_invoke hinvoke

end Object

namespace Heap

variable {heap : Heap} {id other : ObjectId} {use : Use}

/-- Makes a use of the object under a number. -/
def grant (heap : Heap) (id : ObjectId) : Use → Except HostError (Option Value × Heap)
  | .getProperty name => ((heap.find id).getProperty name).map fun value => (some value, heap)
  | .setProperty name value => (heap.setProperty id name value).map fun next => (none, next)
  | .getIndex index => ((heap.find id).getIndex index).map fun value => (some value, heap)
  | .setIndex index value => (heap.setIndex id index value).map fun next => (none, next)
  | .invoke method arguments =>
    (heap.invoke id method arguments).map fun (value, next) => (some value, next)

/-- What the object under a number answers to a use. -/
def answer (heap : Heap) (id : ObjectId) (use : Use) : Answer :=
  (settle heap (heap.grant id use)).1

/-- The heap after a use of the object under a number. -/
def next (heap : Heap) (id : ObjectId) (use : Use) : Heap :=
  (settle heap (heap.grant id use)).2

/-- The heap after uses of objects, in their order. -/
def after (heap : Heap) (calls : List (ObjectId × Use)) : Heap :=
  calls.foldl (fun heap call => heap.next call.1 call.2) heap

theorem replace_find (heap : Heap) (id : ObjectId) : heap.replace id (heap.find id) = heap := by
  obtain ⟨objects⟩ := heap
  refine congrArg Heap.mk (Array.ext_getElem? fun other => ?_)
  rw [Array.getElem?_setIfInBounds]
  split
  next hother =>
    subst hother
    split
    next hsize => simp [find, Array.getD, hsize]
    next hsize => simp [hsize]
  next => rfl

/-- A use of an object is what the object does, put back in its place. -/
theorem grant_eq (heap : Heap) (id : ObjectId) (use : Use) :
    heap.grant id use =
      ((heap.find id).grant use).map fun granted => (granted.1, heap.replace id granted.2) := by
  cases use with
  | getProperty name =>
      rw [grant, Object.grant]
      cases (heap.find id).getProperty name with
      | error error => rfl
      | ok value => simp only [Except.map, replace_find]
  | setProperty name value =>
      rw [grant, Object.grant, setProperty]
      cases (heap.find id).setProperty name value <;> rfl
  | getIndex index =>
      rw [grant, Object.grant]
      cases (heap.find id).getIndex index with
      | error error => rfl
      | ok value => simp only [Except.map, replace_find]
  | setIndex index value =>
      rw [grant, Object.grant, setIndex]
      cases (heap.find id).setIndex index value <;> rfl
  | invoke method arguments =>
      rw [grant, Object.grant, invoke]
      cases (heap.find id).invoke method arguments <;> rfl

/-- The answer depends on nothing but the object. -/
theorem answer_eq (heap : Heap) (id : ObjectId) (use : Use) :
    heap.answer id use = (settle (heap.find id) ((heap.find id).grant use)).1 := by
  rw [answer, grant_eq]
  cases (heap.find id).grant use <;> rfl

theorem next_eq (heap : Heap) (id : ObjectId) (use : Use) :
    heap.next id use =
      heap.replace id (settle (heap.find id) ((heap.find id).grant use)).2 := by
  rw [next, grant_eq]
  cases (heap.find id).grant use with
  | error error => exact (heap.replace_find id).symm
  | ok granted => rfl

/-- A use that is refused changes nothing. -/
theorem next_eq_of_refused {error : HostError} (h : heap.answer id use = .error error) :
    heap.next id use = heap := by
  rw [answer] at h
  rw [next]
  cases hgrant : heap.grant id use with
  | error error => rfl
  | ok granted =>
      rw [hgrant] at h
      cases h

/-- A use of an object changes no other object. -/
theorem find_next_of_ne (h : other ≠ id) : (heap.next id use).find other = heap.find other := by
  rw [next_eq, find_replace, if_neg fun hsame => h hsame.1.symm]

theorem find_next_self (h : id < heap.objects.size) :
    (heap.next id use).find id = (settle (heap.find id) ((heap.find id).grant use)).2 := by
  rw [next_eq, find_replace, if_pos ⟨rfl, h⟩]

/-- One use keeps all that can be read. -/
theorem keeps_next (heap : Heap) (id other : ObjectId) (use : Use) :
    (heap.find other).Keeps ((heap.next id use).find other) := by
  rw [next_eq, find_replace]
  split
  next hsame =>
    obtain ⟨rfl, -⟩ := hsame
    cases hgrant : (heap.find id).grant use with
    | error error => exact .refl _
    | ok granted => exact Object.keeps_of_grant hgrant
  next => exact .refl _

/-- What could be read once can be read after any uses of any objects. -/
theorem keeps_after (heap : Heap) (calls : List (ObjectId × Use)) (id : ObjectId) :
    (heap.find id).Keeps ((heap.after calls).find id) := by
  induction calls generalizing heap with
  | nil => exact .refl _
  | cons call rest ih => exact (heap.keeps_next call.1 id call.2).trans (ih _)

end Heap

end ExprLang
