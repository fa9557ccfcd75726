/-!
# JSON values

The data format in which expression trees are exchanged. An object keeps its members in the order
in which they are written; looking one up by name takes the first of that name.
-/

namespace ExprLang

/-- A JSON value. The number `number n k` is `n / 10 ^ k`. -/
inductive Json where
  | null
  | bool (value : Bool)
  | number (significand : Int) (places : Nat)
  | string (value : String)
  | array (items : List Json)
  | object (members : List (String × Json))
  deriving Repr, Inhabited, BEq

namespace Json

/-- The member of an object with the given name; a part of a value is smaller than the value. -/
def member? (name : String) : (json : Json) → Option { part : Json // sizeOf part < sizeOf json }
  | .object members =>
    members.attach.findSome? fun ⟨(key, part), mem⟩ =>
      if key = name then
        some ⟨part, by
          have := List.sizeOf_lt_of_mem mem
          simp only [Prod.mk.sizeOf_spec, object.sizeOf_spec] at *
          omega⟩
      else none
  | _ => none

/-- The items of an array, each smaller than the array. -/
def items? : (json : Json) → Option (List { part : Json // sizeOf part < sizeOf json })
  | .array items =>
    some (items.attach.map fun ⟨part, mem⟩ =>
      ⟨part, by
        have := List.sizeOf_lt_of_mem mem
        simp only [array.sizeOf_spec]
        omega⟩)
  | _ => none

/-- The text of a string. -/
def string? : Json → Option String
  | .string value => some value
  | _ => none

end Json

end ExprLang
