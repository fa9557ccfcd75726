/-!
# Values

A value is a truth value, an integer of 64 bits, a decimal, a string, or an object of the host,
which values refer to by its number on the heap.
-/

namespace ExprLang

/-- The number of an object on the heap. -/
abbrev ObjectId := Nat

/-- What an expression evaluates to. -/
inductive Value where
  | bool (value : Bool)
  | int (value : Int64)
  | decimal (value : Float)
  | string (value : String)
  | object (id : ObjectId)
  deriving Repr, Inhabited

namespace Value

/-- The sorts of values. -/
inductive Kind where
  | bool
  | int
  | decimal
  | string
  | object
  deriving DecidableEq, Repr, Inhabited

namespace Kind

/-- The name of the sort in messages. -/
def name : Kind → String
  | bool => "bool"
  | int => "int"
  | decimal => "decimal"
  | string => "string"
  | object => "object"

end Kind

/-- The sort of a value. -/
def kind : Value → Kind
  | bool _ => .bool
  | int _ => .int
  | decimal _ => .decimal
  | string _ => .string
  | object _ => .object

end Value

end ExprLang
