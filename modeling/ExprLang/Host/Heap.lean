import ExprLang.Decimal.Notation
import ExprLang.Host.Object

/-!
# The heap

The heap holds the objects of the host. Values share objects by their numbers, so a change of an
object is seen through every value that refers to it, and objects may contain each other or
themselves. A number without an object means one that refuses everything.
-/

namespace ExprLang

/-- The objects of the host by their numbers. -/
structure Heap where
  objects : Array Object
  deriving Inhabited

namespace Heap

/-- The heap without objects. -/
def empty : Heap :=
  ⟨#[]⟩

/-- The object of a number. -/
def find (heap : Heap) (id : ObjectId) : Object :=
  heap.objects.getD id .blank

/-- Puts an object in the place of another. -/
def replace (heap : Heap) (id : ObjectId) (object : Object) : Heap :=
  ⟨heap.objects.setIfInBounds id object⟩

/-- Only a number that has an object gets the new one. -/
theorem find_replace (heap : Heap) (id other : ObjectId) (object : Object) :
    (heap.replace id object).find other =
      if id = other ∧ id < heap.objects.size then object else heap.find other := by
  simp only [replace, find, Array.getD_eq_getD_getElem?, Array.getElem?_setIfInBounds]
  by_cases hid : id = other
  · subst hid
    by_cases hsize : id < heap.objects.size
    · simp [hsize]
    · simp [hsize]
  · simp [hid]

/-- Adds an object and tells its number. -/
def allocate (heap : Heap) (object : Object) : ObjectId × Heap :=
  (heap.objects.size, ⟨heap.objects.push object⟩)

/-- Writes a property of an object. -/
def setProperty (heap : Heap) (id : ObjectId) (name : String) (value : Value) :
    Except HostError Heap :=
  ((heap.find id).setProperty name value).map (heap.replace id)

/-- Calls a method of an object. -/
def invoke (heap : Heap) (id : ObjectId) (method : String) (arguments : List Value) :
    Except HostError (Value × Heap) :=
  ((heap.find id).invoke method arguments).map fun (value, object) =>
    (value, heap.replace id object)

/-- Writes the element of an object under an index. -/
def setIndex (heap : Heap) (id : ObjectId) (index value : Value) : Except HostError Heap :=
  ((heap.find id).setIndex index value).map (heap.replace id)

/-- The text of a value. An object shows only what it calls itself. -/
def display (heap : Heap) : Value → String
  | .bool b => if b then "true" else "false"
  | .int n => Integer.text n
  | .decimal x => Decimal.text x
  | .string s => s
  | .object id => "<" ++ (heap.find id).typeName ++ ">"

end Heap

end ExprLang
