import ExprLang.Proofs.Host.Behaviour
import ExprLang.Proofs.Host.Collections

/-!
# Lists and records as sequences and maps

A list is the sequence of its items and a record the map of its fields. After any uses of any
objects of a heap, each list and record is what the uses made of it alone, in their order, make of
its sequence or map, and it answers as that one does.
-/

namespace ExprLang

/-- The fields as a finite map. -/
def Fields.toFinmap (fields : Fields) : Finmap fun _ : String => Value :=
  (fields.toList.map fun field => (⟨field.1, field.2⟩ : Sigma fun _ : String => Value)).toFinmap

namespace Fields

@[simp]
theorem lookup_toFinmap (fields : Fields) (name : String) :
    fields.toFinmap.lookup name = fields[name]? := by
  have hkeys : (fields.toList.map fun field =>
      (⟨field.1, field.2⟩ : Sigma fun _ : String => Value)).NodupKeys := by
    rw [List.nodupKeys_iff_pairwise, List.pairwise_map]
    refine fields.distinct_keys_toList.imp fun {field other} hkey hname => hkey ?_
    exact Std.LawfulEqCmp.compare_eq_iff_eq.mpr hname
  refine Option.ext fun value => ?_
  rw [toFinmap, Finmap.dlookup_list_toFinmap]
  refine (List.mem_dlookup_iff hkeys).trans ?_
  rw [List.mem_map, ← Std.ExtTreeMap.mem_toList_iff_getElem?_eq_some]
  constructor
  · rintro ⟨⟨name, value⟩, hmem, heq⟩
    cases heq
    exact hmem
  · exact fun hmem => ⟨(name, value), hmem, rfl⟩

theorem toFinmap_insert (fields : Fields) (name : String) (value : Value) :
    Fields.toFinmap (fields.insert name value) = fields.toFinmap.insert name value := by
  refine Finmap.ext_lookup fun other => ?_
  rw [lookup_toFinmap, Std.ExtTreeMap.getElem?_insert]
  by_cases hother : other = name
  · subst hother
    simp
  · rw [Finmap.lookup_insert_of_ne _ hother, lookup_toFinmap, if_neg]
    simpa using Ne.symm hother

end Fields

namespace Object

/-- The sequence or the map that a list or a record is. -/
def collection? : Object → Option Collection
  | list items => some (.sequence items.toList)
  | record typeName fields => some (.mapping typeName fields.toFinmap)
  | custom .. => none

/-- An object and a sequence or a map do the same: they refuse alike, or they give one answer and
the object is then what the other is. -/
inductive Agrees : Except HostError (Option Value × Object) →
    Except HostError (Option Value × Collection) → Prop
  | refused (error : HostError) : Agrees (.error error) (.error error)
  | granted (answer : Option Value) {next : Object} {collection : Collection}
      (h : next.collection? = some collection) :
      Agrees (.ok (answer, next)) (.ok (answer, collection))

theorem agrees_readField (typeName : String) (fields : Fields) (name : String) :
    Agrees
      ((readField typeName fields name).map fun value => (some value, record typeName fields))
      (Collection.read typeName fields.toFinmap name) := by
  rw [readField, Collection.read, Fields.lookup_toFinmap]
  cases fields[name]? with
  | none => exact .refused _
  | some value => exact .granted _ rfl

theorem agrees_list (items : Array Value) (use : Use) :
    Agrees ((list items).grant use) ((Collection.sequence items.toList).grant use) := by
  cases use with
  | getProperty name =>
      rw [grant, Collection.grant, getProperty, Array.length_toList]
      split
      · exact .granted _ rfl
      · exact .refused _
  | setProperty name value => exact .refused _
  | getIndex index =>
      rw [grant, Collection.grant, getIndex, Array.length_toList, ← map_slot]
      cases slot items index with
      | error error => exact .refused _
      | ok place =>
          have hitem : items.toList[(place : Nat)]? = some items[place] := by simp
          simp only [Except.map, hitem]
          exact .granted _ rfl
  | setIndex index value =>
      rw [grant, Collection.grant, setIndex, Array.length_toList, ← map_slot]
      cases slot items index with
      | error error => exact .refused _
      | ok place => exact .granted _ (by rw [collection?, Array.toList_set])
  | invoke method arguments =>
      by_cases hmethod : method = "push"
      · subst hmethod
        rcases arguments with _ | ⟨value, _ | ⟨second, rest⟩⟩
        · exact .refused _
        · exact .granted _ (by rw [collection?, Array.toList_push])
        · exact .refused _
      · simp only [grant, Collection.grant, invoke, if_neg hmethod]
        exact .refused _

theorem agrees_record (typeName : String) (fields : Fields) (use : Use) :
    Agrees ((record typeName fields).grant use)
      ((Collection.mapping typeName fields.toFinmap).grant use) := by
  have hset : ∀ name value,
      Agrees (.ok (none, record typeName (fields.insert name value)))
        (.ok (none, .mapping typeName (fields.toFinmap.insert name value))) :=
    fun name value => .granted _ (by rw [collection?, Fields.toFinmap_insert])
  cases use with
  | getProperty name => exact agrees_readField typeName fields name
  | setProperty name value => exact hset name value
  | getIndex index =>
      cases index with
      | string name => exact agrees_readField typeName fields name
      | _ => exact .refused _
  | setIndex index value =>
      cases index with
      | string name => exact hset name value
      | _ => exact .refused _
  | invoke method arguments => exact .refused _

variable {object : Object} {collection : Collection}

/-- A list and a record do what their sequence and their map do. -/
theorem agrees_of_collection? (h : object.collection? = some collection) (use : Use) :
    Agrees (object.grant use) (collection.grant use) := by
  cases object <;> cases h
  next items => exact agrees_list items use
  next typeName fields => exact agrees_record typeName fields use

/-- What agrees gives one answer, and the object is then what the other is. -/
theorem Agrees.settle {granted : Except HostError (Option Value × Object)}
    {expected : Except HostError (Option Value × Collection)} (hagrees : Agrees granted expected)
    (h : object.collection? = some collection) :
    (settle object granted).1 = (settle collection expected).1 ∧
      (settle object granted).2.collection? = some (settle collection expected).2 := by
  cases hagrees with
  | refused error => exact ⟨rfl, h⟩
  | granted answer hnext => exact ⟨rfl, hnext⟩

end Object

namespace Heap

variable {heap : Heap} {id : ObjectId} {collection : Collection}

/-- The uses that were made of the object under a number. -/
def usesOf (id : ObjectId) (calls : List (ObjectId × Use)) : List Use :=
  (calls.filter fun call => call.1 = id).map Prod.snd

theorem lt_size_of_collection? (h : (heap.find id).collection? = some collection) :
    id < heap.objects.size := by
  by_contra hsize
  rw [find, Array.getD, dif_neg hsize] at h
  cases h

theorem answer_of_collection? (h : (heap.find id).collection? = some collection) (use : Use) :
    heap.answer id use = collection.answer use := by
  rw [answer_eq]
  exact ((Object.agrees_of_collection? h use).settle h).1

theorem behaviour_of_collection? (h : (heap.find id).collection? = some collection)
    (behaviours : Nat → Behaviour) : heap.behaviour behaviours id = .plain := by
  rw [find, Array.getD_eq_getD_getElem?] at h
  rw [behaviour]
  cases hobject : heap.objects[id]? with
  | none => rfl
  | some object =>
      rw [hobject] at h
      cases object with
      | custom sort typeName state => cases h
      | _ => rfl

theorem collection?_next (h : (heap.find id).collection? = some collection) (use : Use) :
    ((heap.next id use).find id).collection? = some (collection.next use) := by
  rw [find_next_self (lt_size_of_collection? h)]
  exact ((Object.agrees_of_collection? h use).settle h).2

/-- After any uses, an object is what the uses made of it alone make of its sequence or map. -/
theorem collection?_after (h : (heap.find id).collection? = some collection)
    (calls : List (ObjectId × Use)) :
    ((heap.after calls).find id).collection? = some (collection.after (usesOf id calls)) := by
  induction calls generalizing heap collection with
  | nil => exact h
  | cons call rest ih =>
      obtain ⟨called, use⟩ := call
      by_cases hcalled : called = id
      · subst hcalled
        have huses : usesOf called ((called, use) :: rest) = use :: usesOf called rest := by
          simp [usesOf]
        rw [huses]
        exact ih (collection?_next h use)
      · have huses : usesOf id ((called, use) :: rest) = usesOf id rest := by
          simp [usesOf, hcalled]
        rw [huses]
        refine ih ?_
        rw [find_next_of_ne (Ne.symm hcalled)]
        exact h

/-- Every list and record is a sequence or a map of its own, however the objects are shared. -/
structure ActsAsCollections (start : Heap) (calls : List (ObjectId × Use)) (now : Heap) : Prop where
  /-- An object is, and answers as, what the uses made of it alone make of what it was. -/
  simulated : ∀ id collection, (start.find id).collection? = some collection →
    (now.find id).collection? = some (collection.after (usesOf id calls)) ∧
      ∀ use, now.answer id use = (collection.after (usesOf id calls)).answer use
  /-- Whatever objects of other sorts do, a list or a record meets a use with that answer. -/
  met : ∀ (behaviours : Nat → Behaviour) id collection,
    (now.find id).collection? = some collection → ∀ use,
      (∀ answer, now.answer id use = .ok answer →
        ((now.behaviour behaviours id).meet id use).run now = .ok answer (now.next id use)) ∧
      ∀ error, now.answer id use = .error error →
        ((now.behaviour behaviours id).meet id use).run now = .error error now
  /-- A use of an object changes no other one. -/
  separate : ∀ id use other, other ≠ id → (now.next id use).find other = now.find other
  /-- A use that is refused changes nothing. -/
  refused : ∀ id use error, now.answer id use = .error error → now.next id use = now
  /-- What is stored under an index is read there, and all else reads as before. -/
  stored : ∀ id index value, now.answer id (.setIndex index value) = .ok none →
    Stored (now.answer id) ((now.next id (.setIndex index value)).answer id) index value
  /-- A property of a record and the element under its name as a string are one field. -/
  keyed : ∀ id typeName fields, now.find id = .record typeName fields → ∀ name value,
    now.answer id (.getIndex (.string name)) = now.answer id (.getProperty name) ∧
      now.answer id (.setProperty name value) = .ok none ∧
      now.answer id (.setIndex (.string name) value) = .ok none ∧
      now.next id (.setIndex (.string name) value) = now.next id (.setProperty name value)
  /-- A list has an element under the integers from zero to below its length. -/
  indexed : ∀ id items, now.find id = .list items → ∀ number : Int64,
    0 ≤ number.toInt → number.toInt < items.size →
    (∃ item, items[number.toInt.toNat]? = some item ∧
      now.answer id (.getIndex (.int number)) = .ok (some item)) ∧
      ∀ value, now.answer id (.setIndex (.int number) value) = .ok none
  /-- Any other integer is out of its range. -/
  outside : ∀ id items, now.find id = .list items → ∀ number : Int64,
    ¬(0 ≤ number.toInt ∧ number.toInt < items.size) → ∀ use, use.IsAt (.int number) →
    now.answer id use = .error (.indexOutOfRange number items.size)
  /-- Anything else is not an index of it. -/
  unindexed : ∀ id items, now.find id = .list items → ∀ index,
    (∀ number, index ≠ .int number) → ∀ use, use.IsAt index →
    now.answer id use = .error (.invalidIndex "List" index.kind)
  /-- A pushed value comes last; the answer is the new length, which is then the length. -/
  pushed : ∀ id items, now.find id = .list items → ∀ value,
    (now.next id (.invoke "push" [value])).find id = .list (items.push value) ∧
      ∃ length : Int64, (items.size + 1 < 2 ^ 63 → length.toInt = items.size + 1) ∧
        now.answer id (.invoke "push" [value]) = .ok (some (.int length)) ∧
        (now.next id (.invoke "push" [value])).answer id (.getProperty "length") =
          .ok (some (.int length))
  /-- What could be read once can be read still. -/
  lasting : ∀ id, (start.find id).Keeps (now.find id)

theorem stored_of_setIndex {index value : Value}
    (h : heap.answer id (.setIndex index value) = .ok none) :
    Stored (heap.answer id) ((heap.next id (.setIndex index value)).answer id) index value := by
  cases hcollection : (heap.find id).collection? with
  | some collection =>
      have hbefore : heap.answer id = collection.answer :=
        funext (answer_of_collection? hcollection)
      have hafter : (heap.next id (.setIndex index value)).answer id =
          (collection.next (.setIndex index value)).answer :=
        funext (answer_of_collection? (collection?_next hcollection _))
      rw [hbefore] at h ⊢
      rw [hafter]
      exact Collection.stored_of_setIndex h
  | none =>
      -- Neither a list nor a record: it refuses to be written.
      rw [answer_eq] at h
      cases hobject : heap.find id with
      | list items =>
          rw [hobject] at hcollection
          cases hcollection
      | record typeName fields =>
          rw [hobject] at hcollection
          cases hcollection
      | custom sort typeName state =>
          rw [hobject] at h
          cases h

section Lists

variable {items : Array Value} (h : heap.find id = .list items)
include h

theorem collection?_of_list : (heap.find id).collection? = some (.sequence items.toList) := by
  rw [h, Object.collection?]

theorem answer_of_list (use : Use) :
    heap.answer id use = (Collection.sequence items.toList).answer use :=
  answer_of_collection? (collection?_of_list h) use

theorem answer_element {number : Int64} (hnonneg : 0 ≤ number.toInt)
    (hlt : number.toInt < items.size) :
    (∃ item, items[number.toInt.toNat]? = some item ∧
      heap.answer id (.getIndex (.int number)) = .ok (some item)) ∧
      ∀ value, heap.answer id (.setIndex (.int number) value) = .ok none := by
  have hplace : (Value.int number).place items.toList.length = .ok number.toInt.toNat :=
    if_pos ⟨hnonneg, hlt⟩
  have hitem : items[number.toInt.toNat]? = some items[number.toInt.toNat] :=
    Array.getElem?_eq_getElem (by omega)
  refine ⟨⟨_, hitem, ?_⟩, fun value => ?_⟩
  · rw [answer_of_list h, Collection.answer_getIndex_sequence, hplace, Except.map,
      Array.getElem?_toList, hitem]
  · rw [answer_of_list h, Collection.answer, Collection.grant, hplace]
    rfl

theorem answer_outside {number : Int64} (hrange : ¬(0 ≤ number.toInt ∧ number.toInt < items.size))
    {use : Use} (huse : use.IsAt (.int number)) :
    heap.answer id use = .error (.indexOutOfRange number items.size) := by
  rw [answer_of_list h]
  exact Collection.answer_of_isAt huse (if_neg hrange)

theorem answer_unindexed {index : Value} (hindex : ∀ number, index ≠ .int number) {use : Use}
    (huse : use.IsAt index) : heap.answer id use = .error (.invalidIndex "List" index.kind) := by
  rw [answer_of_list h]
  refine Collection.answer_of_isAt huse ?_
  cases index with
  | int number => exact absurd rfl (hindex number)
  | _ => rfl

theorem find_next_push (value : Value) :
    (heap.next id (.invoke "push" [value])).find id = .list (items.push value) := by
  rw [find_next_self (lt_size_of_collection? (collection?_of_list h)), h]
  rfl

theorem answer_push (value : Value) :
    heap.answer id (.invoke "push" [value]) = .ok (some (.int (.ofNat (items.size + 1)))) :=
  answer_of_list h _

theorem answer_length : heap.answer id (.getProperty "length") =
    .ok (some (.int (.ofNat items.size))) :=
  answer_of_list h _

end Lists

theorem record_keyed {typeName : String} {fields : Fields}
    (h : heap.find id = .record typeName fields) (name : String) (value : Value) :
    heap.answer id (.getIndex (.string name)) = heap.answer id (.getProperty name) ∧
      heap.answer id (.setProperty name value) = .ok none ∧
      heap.answer id (.setIndex (.string name) value) = .ok none ∧
      heap.next id (.setIndex (.string name) value) = heap.next id (.setProperty name value) := by
  simp only [answer_eq, next_eq, h]
  exact ⟨rfl, rfl, rfl, rfl⟩

/-- However lists and records are shared, contain each other or themselves, and are used, each of
them acts as a sequence or a map. -/
theorem actsAsCollections_after (heap : Heap) (calls : List (ObjectId × Use)) :
    heap.ActsAsCollections calls (heap.after calls) where
  simulated id collection hcollection :=
    have hnow := collection?_after hcollection calls
    ⟨hnow, answer_of_collection? hnow⟩
  met behaviours id collection hcollection use := by
    rw [behaviour_of_collection? hcollection behaviours]
    exact ⟨fun _ => Behaviour.run_meet_plain_of_ok, fun _ => Behaviour.run_meet_plain_of_error⟩
  separate id use other hother := find_next_of_ne hother
  refused id use error herror := next_eq_of_refused herror
  stored id index value hset := stored_of_setIndex hset
  keyed id typeName fields hrecord := record_keyed hrecord
  indexed id items hlist number hnonneg hlt := answer_element hlist hnonneg hlt
  outside id items hlist number hrange use huse := answer_outside hlist hrange huse
  unindexed id items hlist index hindex use huse := answer_unindexed hlist hindex huse
  pushed id items hlist value := by
    refine ⟨find_next_push hlist value, .ofNat (items.size + 1), fun hsize => ?_,
      answer_push hlist value, ?_⟩
    · exact Int64.toInt_ofNat_of_lt hsize
    · rw [answer_length (find_next_push hlist value), Array.size_push]
  lasting := heap.keeps_after calls

/-- A list that is pushed to itself has itself as its item, and goes on as a list; the write to an
index that it does not have yet leaves no trace. -/
example (heap : Heap) (h : heap = (⟨#[.list #[]]⟩ : Heap).after
      [(0, .invoke "push" [.object 0]), (0, .setIndex (.int 1) (.int 5)),
        (0, .invoke "push" [.string "x"])]) :
    heap.answer 0 (.getIndex (.int 0)) = .ok (some (.object 0)) ∧
      heap.answer 0 (.getProperty "length") = .ok (some (.int 2)) := by
  subst h
  exact ⟨rfl, rfl⟩

end Heap

end ExprLang
