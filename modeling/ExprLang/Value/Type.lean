import ExprLang.Value.Basic

/-!
# Types of parameters and results

A host function declares a type for each of its parameters and for its result. A value of the sort
of a type has the type; an integer also serves where a decimal is asked for, and is turned into the
nearest one.
-/

namespace ExprLang

/-- The decimal nearest to an integer. -/
def Decimal.ofInt (n : Int64) : Float :=
  .ofInt n.toInt

/-- What a host function asks of a value. -/
inductive ValueType where
  | bool
  | int
  | decimal
  | string
  | object
  | any
  deriving DecidableEq, Repr, Inhabited

namespace ValueType

/-- The name of the type in messages. -/
def name : ValueType → String
  | bool => "bool"
  | int => "int"
  | decimal => "decimal"
  | string => "string"
  | object => "object"
  | any => "any"

/-- The name of the type in the description of a function. -/
def tag : ValueType → String
  | bool => "Bool"
  | int => "Int"
  | decimal => "Decimal"
  | string => "Str"
  | object => "Object"
  | any => "Any"

/-- The type that a tag names. -/
def ofTag? (tag : String) : Option ValueType :=
  [bool, int, decimal, string, object, any].find? (·.tag == tag)

/-- The value as one of the type, if it can serve as one. -/
def coerce? : ValueType → Value → Option Value
  | any, value => some value
  | bool, .bool b => some (.bool b)
  | int, .int n => some (.int n)
  | decimal, .int n => some (.decimal (Decimal.ofInt n))
  | decimal, .decimal x => some (.decimal x)
  | string, .string s => some (.string s)
  | object, .object id => some (.object id)
  | _, _ => none

end ValueType

end ExprLang
