import ExprLang.Expr.Basic
import ExprLang.Text.Quoted

/-!
# Expressions in parenthesized form

Each expression with parts is written in parentheses with what it does before its parts, so the
form shows the tree without any rule of precedence. Strings are quoted, other constants and names
stand as they are.
-/

namespace ExprLang.Expr

mutual

/-- The parenthesized form of an expression. -/
def display : Expr → String
  | constant .string text => Text.quoted text
  | constant _ text => text
  | var name => name
  | declaration kind name => "(" ++ kind.keyword ++ " " ++ name ++ ")"
  | group inner => "(group " ++ display inner ++ ")"
  | unary op operand =>
    "(" ++ (if op.isAfter then "post" else "") ++ op.symbol ++ " " ++ display operand ++ ")"
  | binary op left right => "(" ++ op.symbol ++ " " ++ display left ++ " " ++ display right ++ ")"
  | ternary condition ifTrue ifFalse =>
    "(? " ++ display condition ++ " " ++ display ifTrue ++ " " ++ display ifFalse ++ ")"
  | assignment op target value =>
    "(" ++ op.symbol ++ " " ++ display target ++ " " ++ display value ++ ")"
  | call name arguments => "(call " ++ name ++ displayArguments arguments ++ ")"
  | member target part => "(. " ++ display target ++ " " ++ display part ++ ")"
  | index target position => "([] " ++ display target ++ " " ++ display position ++ ")"

/-- The arguments of a call, each after a space. -/
def displayArguments : List Expr → String
  | [] => ""
  | argument :: rest => " " ++ display argument ++ displayArguments rest

end

end ExprLang.Expr
