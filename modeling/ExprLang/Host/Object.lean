import ExprLang.Host.Error
import ExprLang.Text.Quoted
import Std.Data.ExtTreeMap

/-!
# Objects

An object has properties, methods and elements under an index, and may refuse any use of them. A
list is indexed by integers and grows at its end; a record has named fields, which are properties
as well as elements under a string. What it contains changes only where it grants a request.

Other sorts of objects are added by the host. Such an object has a state of its own. Here the state
can be read by the names in it and every other use is refused; the host may give the sort another
behaviour.
-/

namespace ExprLang

/-- Values under names, in the order of the names. -/
abbrev Fields := Std.ExtTreeMap String Value compare

/-- An object of the host. -/
inductive Object where
  | list (items : Array Value)
  | record (typeName : String) (fields : Fields)
  /-- An object of a sort that the host adds. -/
  | custom (sort : Nat) (typeName : String) (state : Fields)

namespace Object

/-- An object that refuses everything. -/
def blank : Object :=
  .custom 0 "" ∅

instance : Inhabited Object := ⟨blank⟩

/-- What the object calls itself. -/
def typeName : Object → String
  | list _ => "List"
  | record typeName _ | custom _ typeName _ => typeName

/-- The place in a list that an index means. -/
def slot (items : Array Value) : Value → Except HostError (Fin items.size)
  | .int index =>
    if h : 0 ≤ index.toInt ∧ index.toInt < items.size then
      .ok ⟨index.toInt.toNat, by omega⟩
    else .error (.indexOutOfRange index items.size)
  | index => .error (.invalidIndex "List" index.kind)

/-- The field of a record that an index means. -/
def key (typeName : String) : Value → Except HostError String
  | .string name => .ok name
  | index => .error (.invalidIndex typeName index.kind)

/-- The value under a name. -/
def readField (typeName : String) (fields : Fields) (name : String) : Except HostError Value :=
  match fields[name]? with
  | some value => .ok value
  | none => .error (.unknownProperty typeName name)

/-- Reads a property. A list has its length only. -/
def getProperty (object : Object) (name : String) : Except HostError Value :=
  match object with
  | list items =>
    if name = "length" then .ok (.int (.ofNat items.size))
    else .error (.unknownProperty "List" name)
  | record typeName fields => readField typeName fields name
  | custom _ typeName state => readField typeName state name

/-- Writes a property; a record gains it if it does not have it. -/
def setProperty (object : Object) (name : String) (value : Value) : Except HostError Object :=
  match object with
  | record typeName fields => .ok (.record typeName (fields.insert name value))
  | list _ | custom .. => .error (.readOnly object.typeName name)

/-- Calls a method. A list takes one more element at its end and tells how many it has then. -/
def invoke (object : Object) (method : String) (arguments : List Value) :
    Except HostError (Value × Object) :=
  match object with
  | list items =>
    if method = "push" then
      match arguments with
      | [value] => .ok (.int (.ofNat (items.size + 1)), .list (items.push value))
      | _ => .error (.arity 1 arguments.length)
    else .error (.unknownMethod "List" method)
  | record .. | custom .. => .error (.unknownMethod object.typeName method)

/-- Reads the element under an index. -/
def getIndex (object : Object) (index : Value) : Except HostError Value :=
  match object with
  | list items => (slot items index).map fun (place : Fin items.size) => items[place]
  | record typeName fields => (key typeName index).bind (readField typeName fields)
  | custom _ typeName _ => .error (.notIndexable typeName)

/-- Writes the element under an index. -/
def setIndex (object : Object) (index value : Value) : Except HostError Object :=
  match object with
  | list items =>
    (slot items index).map fun (place : Fin items.size) => .list (items.set place value place.isLt)
  | record typeName _ => (key typeName index).bind (object.setProperty · value)
  | custom _ typeName _ => .error (.notIndexable typeName)

/-- A description of the object itself that does not show the values in it. -/
def describe : Object → String
  | list items => "List \x7b len: " ++ toString items.size ++ " \x7d"
  | record typeName fields =>
    "Record \x7b type_name: " ++ Text.quoted typeName ++ ", fields: [" ++
      ", ".intercalate (fields.keys.map Text.quoted) ++ "] \x7d"
  | custom _ typeName _ => typeName

end Object

end ExprLang
