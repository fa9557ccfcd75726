import ExprLang.Expr.Operator

/-!
# Expressions

The tree of an expression. Trees of every shape exist, also those that no text spells: only the
parser restricts what stands under an operator, and evaluation answers for the rest.
-/

namespace ExprLang

/-- An expression. -/
inductive Expr where
  | constant (kind : LiteralKind) (text : String)
  | var (name : String)
  | declaration (kind : DeclarationKind) (name : String)
  | group (inner : Expr)
  | unary (op : UnaryOp) (operand : Expr)
  | binary (op : BinaryOp) (left right : Expr)
  | ternary (condition ifTrue ifFalse : Expr)
  | assignment (op : AssignOp) (target value : Expr)
  | call (name : String) (arguments : List Expr)
  | member (target part : Expr)
  | index (target position : Expr)
  deriving Repr, Inhabited, BEq

namespace Expr

/-- The sorts of expressions. -/
inductive Kind where
  | constant
  | var
  | declaration
  | group
  | unary
  | binary
  | ternary
  | assignment
  | call
  | member
  | index
  deriving DecidableEq, Repr, Inhabited

namespace Kind

/-- The name of the sort in data and messages. -/
def name : Kind → String
  | constant => "Constant"
  | var => "Variable"
  | declaration => "VariableDeclaration"
  | group => "Group"
  | unary => "Unary"
  | binary => "Binary"
  | ternary => "Ternary"
  | assignment => "Assignment"
  | call => "FunctionCall"
  | member => "MemberAccess"
  | index => "ArrayAccess"

end Kind

/-- The sort of an expression. -/
def kind : Expr → Kind
  | constant .. => .constant
  | var .. => .var
  | declaration .. => .declaration
  | group .. => .group
  | unary .. => .unary
  | binary .. => .binary
  | ternary .. => .ternary
  | assignment .. => .assignment
  | call .. => .call
  | member .. => .member
  | index .. => .index

/-- Whether the expression names a place that a value can be written to. -/
def isPlace : Expr → Bool
  | var .. | member .. | index .. => true
  | _ => false

/-- The parts of an expression from left to right. -/
def children : Expr → List Expr
  | constant .. | var .. | declaration .. => []
  | group inner => [inner]
  | unary _ operand => [operand]
  | binary _ left right => [left, right]
  | ternary condition ifTrue ifFalse => [condition, ifTrue, ifFalse]
  | assignment _ target value => [target, value]
  | call _ arguments => arguments
  | member target part => [target, part]
  | index target position => [target, position]

end Expr

end ExprLang
