/-!
# Operators

The operators of the language by what they do, each with its symbol and its name in data. Binary
operators bind by precedence; all but the power group to the left.
-/

namespace ExprLang

/-- The types that a literal can have. -/
inductive LiteralKind where
  | int
  | decimal
  | string
  | bool
  deriving DecidableEq, Repr, Inhabited

namespace LiteralKind

/-- The name of the kind in data and messages. -/
def name : LiteralKind → String
  | int => "Int"
  | decimal => "Decimal"
  | string => "String"
  | bool => "Bool"

/-- The kind of a given name. -/
def ofName? (name : String) : Option LiteralKind :=
  [int, decimal, string, bool].find? (·.name == name)

end LiteralKind

/-- Whether a declared name can be given a new value. -/
inductive DeclarationKind where
  | «let»
  | const
  deriving DecidableEq, Repr, Inhabited

namespace DeclarationKind

/-- The name of the kind in data. -/
def name : DeclarationKind → String
  | «let» => "Let"
  | const => "Const"

/-- The kind of a given name. -/
def ofName? (name : String) : Option DeclarationKind :=
  [«let», const].find? (·.name == name)

/-- The word that begins a declaration. -/
def keyword : DeclarationKind → String
  | «let» => "let"
  | const => "const"

end DeclarationKind

/-- An operator with one operand. The steps change the operand by one and give its new value if
they stand before it, the old one if they stand after it. -/
inductive UnaryOp where
  | incrementBefore
  | decrementBefore
  | incrementAfter
  | decrementAfter
  | negate
  | not
  | plus
  deriving DecidableEq, Repr, Inhabited

namespace UnaryOp

/-- Every operator once. -/
def all : List UnaryOp :=
  [incrementBefore, decrementBefore, incrementAfter, decrementAfter, negate, not, plus]

/-- The name of the operator in data. -/
def name : UnaryOp → String
  | incrementBefore => "PrefixIncrement"
  | decrementBefore => "PrefixDecrement"
  | incrementAfter => "PostfixIncrement"
  | decrementAfter => "PostfixDecrement"
  | negate => "Negate"
  | not => "Not"
  | plus => "Plus"

/-- The operator of a given name. -/
def ofName? (name : String) : Option UnaryOp :=
  all.find? (·.name == name)

/-- How the operator is written. -/
def symbol : UnaryOp → String
  | incrementBefore | incrementAfter => "++"
  | decrementBefore | decrementAfter => "--"
  | negate => "-"
  | not => "!"
  | plus => "+"

/-- Whether the operator changes its operand. -/
def mutates : UnaryOp → Bool
  | incrementBefore | decrementBefore | incrementAfter | decrementAfter => true
  | negate | not | plus => false

/-- Whether the operator stands after its operand. -/
def isAfter : UnaryOp → Bool
  | incrementAfter | decrementAfter => true
  | _ => false

end UnaryOp

/-- An operator with two operands. -/
inductive BinaryOp where
  | add
  | subtract
  | multiply
  | divide
  | modulo
  | exponent
  | or
  | and
  | equal
  | notEqual
  | greater
  | less
  | greaterOrEqual
  | lessOrEqual
  deriving DecidableEq, Repr, Inhabited

namespace BinaryOp

/-- Every operator once. -/
def all : List BinaryOp :=
  [add, subtract, multiply, divide, modulo, exponent, or, and, equal, notEqual, greater, less,
    greaterOrEqual, lessOrEqual]

/-- The name of the operator in data. -/
def name : BinaryOp → String
  | add => "Add"
  | subtract => "Subtract"
  | multiply => "Multiply"
  | divide => "Divide"
  | modulo => "Modulo"
  | exponent => "Exponent"
  | or => "Or"
  | and => "And"
  | equal => "Equal"
  | notEqual => "NotEqual"
  | greater => "GreaterThan"
  | less => "LessThan"
  | greaterOrEqual => "GreaterThanOrEqual"
  | lessOrEqual => "LessThanOrEqual"

/-- The operator of a given name. -/
def ofName? (name : String) : Option BinaryOp :=
  all.find? (·.name == name)

/-- How the operator is written. -/
def symbol : BinaryOp → String
  | add => "+"
  | subtract => "-"
  | multiply => "*"
  | divide => "/"
  | modulo => "%"
  | exponent => "^"
  | or => "||"
  | and => "&&"
  | equal => "=="
  | notEqual => "!="
  | greater => ">"
  | less => "<"
  | greaterOrEqual => ">="
  | lessOrEqual => "<="

/-- How tightly the operator binds; the greater number binds first. -/
def precedence : BinaryOp → Nat
  | or => 2
  | and => 3
  | equal | notEqual => 4
  | greater | less | greaterOrEqual | lessOrEqual => 5
  | add | subtract => 6
  | multiply | divide | modulo => 7
  | exponent => 8

/-- Whether a chain of the operator groups to the right. -/
def groupsRight (op : BinaryOp) : Bool :=
  op == exponent

/-- The least precedence that the right operand may have without parentheses. -/
def rightFloor (op : BinaryOp) : Nat :=
  if op.groupsRight then op.precedence else op.precedence + 1

end BinaryOp

/-- An operator that stores a value. -/
inductive AssignOp where
  | assign
  | add
  | subtract
  | multiply
  | divide
  | modulo
  | exponent
  deriving DecidableEq, Repr, Inhabited

namespace AssignOp

/-- Every operator once. -/
def all : List AssignOp :=
  [assign, add, subtract, multiply, divide, modulo, exponent]

/-- The name of the operator in data. -/
def name : AssignOp → String
  | assign => "Assign"
  | add => "AddAssign"
  | subtract => "SubtractAssign"
  | multiply => "MultiplyAssign"
  | divide => "DivideAssign"
  | modulo => "ModuloAssign"
  | exponent => "ExponentAssign"

/-- The operator of a given name. -/
def ofName? (name : String) : Option AssignOp :=
  all.find? (·.name == name)

/-- How the operator is written. -/
def symbol : AssignOp → String
  | assign => "="
  | add => "+="
  | subtract => "-="
  | multiply => "*="
  | divide => "/="
  | modulo => "%="
  | exponent => "^="

/-- The operator that a compound assignment applies to the old value and the right side. -/
def binary? : AssignOp → Option BinaryOp
  | assign => none
  | add => some .add
  | subtract => some .subtract
  | multiply => some .multiply
  | divide => some .divide
  | modulo => some .modulo
  | exponent => some .exponent

end AssignOp

end ExprLang
