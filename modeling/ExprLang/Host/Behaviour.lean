import ExprLang.Host.Heap

/-!
# Behaviours

What an object does when it is used is its behaviour. Lists and records have the plain one: they
answer out of what they contain, and change nothing but themselves. What the objects of other sorts
do is up to the host. They may look at any objects and change them, even where they are only read
and where they refuse in the end.
-/

namespace ExprLang

/-- What the host does with the objects of the heap before it answers or refuses. -/
abbrev HostM := EStateM HostError Heap

namespace HostM

variable {α : Type}

/-- An answer that leaves the objects alone. -/
def ofExcept : Except HostError α → HostM α
  | .ok a => pure a
  | .error error => throw error

/-- A question to the objects. -/
def ask (question : Heap → Except HostError α) : HostM α := do
  ofExcept (question (← get))

/-- A request that changes the objects if it is granted. -/
def request (change : Heap → Except HostError (α × Heap)) : HostM α := do
  let (answer, heap) ← ask change
  set heap
  return answer

end HostM

/-- What an object does when it is used. It must say how its properties are read; all other uses
are refused unless it says otherwise. -/
structure Behaviour where
  getProperty (id : ObjectId) (name : String) : HostM Value
  setProperty (id : ObjectId) (name : String) (_ : Value) : HostM Unit :=
    .ask fun heap => .error (.readOnly (heap.find id).typeName name)
  invoke (id : ObjectId) (method : String) (_ : List Value) : HostM Value :=
    .ask fun heap => .error (.unknownMethod (heap.find id).typeName method)
  getIndex (id : ObjectId) (_ : Value) : HostM Value :=
    .ask fun heap => .error (.notIndexable (heap.find id).typeName)
  setIndex (id : ObjectId) (_ _ : Value) : HostM Unit :=
    .ask fun heap => .error (.notIndexable (heap.find id).typeName)

/-- The behaviour of lists, of records, and of objects that only show their state. -/
def Behaviour.plain : Behaviour where
  getProperty id name := .ask fun heap => (heap.find id).getProperty name
  setProperty id name value := .request fun heap => (heap.setProperty id name value).map ((), ·)
  invoke id method arguments := .request fun heap => heap.invoke id method arguments
  getIndex id index := .ask fun heap => (heap.find id).getIndex index
  setIndex id index value := .request fun heap => (heap.setIndex id index value).map ((), ·)

/-- The behaviour of an object, the host having given one to each of its sorts. -/
def Object.behaviour (behaviours : Nat → Behaviour) : Object → Behaviour
  | list _ | record .. => .plain
  | custom sort .. => behaviours sort

/-- The behaviour of the object of a number. -/
def Heap.behaviour (behaviours : Nat → Behaviour) (heap : Heap) (id : ObjectId) : Behaviour :=
  heap.objects[id]?.elim .plain (Object.behaviour behaviours)

end ExprLang
