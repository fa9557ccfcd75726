import ExprLang.Host.Behaviour

/-!
# What objects hold

A list holds its items, a record its fields, and an object of any other sort what there is in its
state. What is read off an object is held by it or is a length. A request that is granted changes
one object, which keeps its behaviour and holds nothing after it but what came with the request and
what it held before.
-/

namespace ExprLang

/-- Whether a value is a truth value or a number. -/
def Value.isScalar : Value → Bool
  | bool _ | int _ | decimal _ => true
  | string _ | object _ => false

namespace Object

/-- Whether a value is an item of an object, a field or a part of its state. -/
def Holds (object : Object) (value : Value) : Prop :=
  match object with
  | list items => value ∈ items
  | record _ fields => ∃ name : String, fields[name]? = some value
  | custom _ _ state => ∃ name : String, state[name]? = some value

variable {object next : Object} {name typeName : String} {fields : Fields} {index value : Value}

theorem getElem?_of_readField (h : readField typeName fields name = .ok value) :
    fields[name]? = some value := by
  rw [readField] at h
  split at h <;> cases h
  next hfield => exact hfield

theorem holds_of_getProperty (h : object.getProperty name = .ok value) :
    value.isScalar = true ∨ object.Holds value := by
  cases object with
  | list items =>
      rw [getProperty] at h
      split at h <;> cases h
      exact .inl rfl
  | record typeName fields => exact .inr ⟨name, getElem?_of_readField h⟩
  | custom sort typeName state => exact .inr ⟨name, getElem?_of_readField h⟩

theorem holds_of_getIndex (h : object.getIndex index = .ok value) : object.Holds value := by
  cases object with
  | list items =>
      rw [getIndex] at h
      cases hslot : slot items index <;> rw [hslot] at h <;> cases h
      next place => exact Array.getElem_mem place.isLt
  | record typeName fields =>
      rw [getIndex] at h
      cases hkey : key typeName index <;> rw [hkey] at h
      · cases h
      · exact ⟨_, getElem?_of_readField h⟩
  | custom sort typeName state => cases h

theorem holds_insert {other : Value}
    (h : (record typeName (fields.insert name value)).Holds other) :
    other = value ∨ (record typeName fields).Holds other := by
  obtain ⟨field, hfield⟩ := h
  rw [Std.ExtTreeMap.getElem?_insert] at hfield
  split at hfield
  · cases hfield
    exact .inl rfl
  · exact .inr ⟨field, hfield⟩

theorem holds_of_setProperty (h : object.setProperty name value = .ok next) {other : Value}
    (hother : next.Holds other) : other = value ∨ object.Holds other := by
  cases object <;> cases h
  exact holds_insert hother

theorem holds_of_setIndex (h : object.setIndex index value = .ok next) {other : Value}
    (hother : next.Holds other) : other = value ∨ object.Holds other := by
  cases object with
  | list items =>
      rw [setIndex] at h
      cases hslot : slot items index <;> rw [hslot] at h <;> cases h
      next place => exact (Array.mem_or_eq_of_mem_set hother).symm
  | record typeName fields =>
      rw [setIndex] at h
      cases hkey : key typeName index with
      | error error =>
          rw [hkey] at h
          cases h
      | ok name =>
          rw [hkey] at h
          have hset : (record typeName fields).setProperty name value = .ok next := h
          exact holds_of_setProperty hset hother
  | custom sort typeName state => cases h

section

variable (behaviours : Nat → Behaviour)

theorem behaviour_of_setProperty (h : object.setProperty name value = .ok next) :
    next.behaviour behaviours = object.behaviour behaviours := by
  cases object <;> cases h
  rfl

theorem behaviour_of_setIndex (h : object.setIndex index value = .ok next) :
    next.behaviour behaviours = object.behaviour behaviours := by
  cases object with
  | list items =>
      rw [setIndex] at h
      cases hslot : slot items index <;> rw [hslot] at h <;> cases h
      rfl
  | record typeName fields =>
      rw [setIndex] at h
      cases hkey : key typeName index <;> rw [hkey] at h
      · cases h
      · exact behaviour_of_setProperty behaviours h
  | custom sort typeName state => cases h

theorem behaviour_of_invoke {arguments : List Value} {answer : Value}
    (h : object.invoke name arguments = .ok (answer, next)) :
    next.behaviour behaviours = object.behaviour behaviours := by
  cases object with
  | list items =>
      simp only [invoke] at h
      split at h
      · split at h <;> cases h
        rfl
      · cases h
  | record typeName fields => cases h
  | custom sort typeName state => cases h

end

theorem holds_of_invoke {arguments : List Value} {answer : Value}
    (h : object.invoke name arguments = .ok (answer, next)) :
    answer.isScalar = true ∧
      ∀ other, next.Holds other → other ∈ arguments ∨ object.Holds other := by
  cases object with
  | list items =>
      simp only [invoke] at h
      split at h
      · split at h <;> cases h
        refine ⟨rfl, fun other hother => ?_⟩
        exact (Array.mem_push.mp hother).symm.imp_left List.mem_singleton.mpr
      · cases h
  | record typeName fields => cases h
  | custom sort typeName state => cases h

end Object

namespace Heap

/-- One object is changed, and holds nothing new but some of the given values. -/
structure Stores (heap : Heap) (id : ObjectId) (values : List Value) (next : Heap) : Prop where
  behaviour_eq : ∀ behaviours other, next.behaviour behaviours other =
    heap.behaviour behaviours other
  find_eq : ∀ other, other ≠ id → next.find other = heap.find other
  holds : ∀ value, (next.find id).Holds value → value ∈ values ∨ (heap.find id).Holds value

variable {heap next : Heap} {id : ObjectId} {values : List Value} {value : Value}

/-- An object keeps its behaviour if another of this behaviour is put in its place. -/
theorem behaviour_replace {behaviours : Nat → Behaviour} {object : Object}
    (h : object.behaviour behaviours = (heap.find id).behaviour behaviours) (other : ObjectId) :
    (heap.replace id object).behaviour behaviours other = heap.behaviour behaviours other := by
  rw [behaviour, behaviour, replace, Array.getElem?_setIfInBounds]
  split
  next hsame =>
    subst hsame
    split
    next hsize => simpa [find, Array.getD, hsize] using h
    next hsize => simp [hsize]
  next => rfl

theorem stores_replace {object : Object}
    (hbehaviour : ∀ behaviours, object.behaviour behaviours = (heap.find id).behaviour behaviours)
    (h : ∀ value, object.Holds value → value ∈ values ∨ (heap.find id).Holds value) :
    heap.Stores id values (heap.replace id object) where
  behaviour_eq behaviours := behaviour_replace (hbehaviour behaviours)
  find_eq other hother := by
    rw [find_replace, if_neg fun hsame => hother hsame.1.symm]
  holds value hvalue := by
    rw [find_replace] at hvalue
    split at hvalue
    · exact h value hvalue
    · exact .inr hvalue

theorem stores_of_setProperty {name : String} (h : heap.setProperty id name value = .ok next) :
    heap.Stores id [value] next := by
  rw [setProperty] at h
  cases hset : (heap.find id).setProperty name value <;> rw [hset] at h <;> cases h
  refine stores_replace (Object.behaviour_of_setProperty · hset) fun other hother => ?_
  exact (Object.holds_of_setProperty hset hother).imp_left List.mem_singleton.mpr

theorem stores_of_setIndex {index : Value} (h : heap.setIndex id index value = .ok next) :
    heap.Stores id [value] next := by
  rw [setIndex] at h
  cases hset : (heap.find id).setIndex index value <;> rw [hset] at h <;> cases h
  refine stores_replace (Object.behaviour_of_setIndex · hset) fun other hother => ?_
  exact (Object.holds_of_setIndex hset hother).imp_left List.mem_singleton.mpr

theorem stores_of_invoke {method : String} {answer : Value}
    (h : heap.invoke id method values = .ok (answer, next)) :
    answer.isScalar = true ∧ heap.Stores id values next := by
  rw [invoke] at h
  cases hinvoke : (heap.find id).invoke method values <;> rw [hinvoke] at h <;> cases h
  obtain ⟨hanswer, hholds⟩ := Object.holds_of_invoke hinvoke
  exact ⟨hanswer, stores_replace (Object.behaviour_of_invoke · hinvoke) hholds⟩

end Heap

end ExprLang
