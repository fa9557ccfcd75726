import ExprLang.Expr.Basic
import ExprLang.Host.Error

/-!
# Errors of evaluation

Why an expression has no value. An error keeps the names, operators and sorts of values that its
message tells about.
-/

namespace ExprLang

/-- Why an expression has no value. -/
inductive RuntimeError where
  | unknownVariable (name : String)
  | unknownFunction (name : String)
  /-- The name is declared but has no value yet. -/
  | uninitialized (name : String)
  | constantReassignment (name : String)
  /-- A declaration stands where a value is asked for. -/
  | missingInitializer (name : String)
  /-- The text of a constant does not spell a value of its kind. -/
  | invalidLiteral (kind : LiteralKind) (text : String)
  | invalidOperands (op : BinaryOp) (left right : Value.Kind)
  | invalidOperand (op : UnaryOp) (operand : Value.Kind)
  | conditionNotBool (found : Value.Kind)
  | divisionByZero
  | overflow (symbol : String)
  /-- A member is asked of a value that has none. -/
  | notAnObject (found : Value.Kind)
  | notIndexable (found : Value.Kind)
  /-- What follows the point is neither a property nor a method call. -/
  | invalidMember (found : Expr.Kind)
  | notAssignable (target : Expr.Kind)
  /-- A function refuses its call. -/
  | callFailed (name : String) (cause : HostError)
  /-- An object refuses a request. -/
  | host (error : HostError)
  deriving DecidableEq, Repr, Inhabited

namespace RuntimeError

/-- What is told about an error of evaluation. -/
def diagnostic : RuntimeError → Diagnostic
  | unknownVariable name =>
    { message := "undefined variable `" ++ name ++ "`"
      code := "eval::unknown_variable"
      help := "bind `" ++ name ++ "` in the environment or declare it with `let`" }
  | unknownFunction name =>
    { message := "undefined function `" ++ name ++ "`"
      code := "eval::unknown_function" }
  | uninitialized name =>
    { message := "variable `" ++ name ++ "` is used before it is assigned"
      code := "eval::uninitialized" }
  | constantReassignment name =>
    { message := "cannot assign twice to constant `" ++ name ++ "`"
      code := "eval::constant_reassignment" }
  | missingInitializer name =>
    { message := "declaration of `" ++ name ++ "` has no initializer"
      code := "eval::missing_initializer"
      help := "write `let " ++ name ++ " = <value>`" }
  | invalidLiteral kind text =>
    { message := "invalid " ++ kind.name ++ " literal `" ++ text ++ "`"
      code := "eval::invalid_literal" }
  | invalidOperands op left right =>
    { message := "cannot apply `" ++ op.symbol ++ "` to " ++ left.name ++ " and " ++ right.name
      code := "eval::invalid_operands" }
  | invalidOperand op operand =>
    { message := "cannot apply `" ++ op.symbol ++ "` to " ++ operand.name
      code := "eval::invalid_operand" }
  | conditionNotBool found =>
    { message := "ternary condition must be a bool, got " ++ found.name
      code := "eval::not_a_boolean" }
  | divisionByZero =>
    { message := "Division by zero"
      code := "eval::division_by_zero" }
  | overflow symbol =>
    { message := "integer overflow in `" ++ symbol ++ "`"
      code := "eval::overflow" }
  | notAnObject found =>
    { message := found.name ++ " has no members"
      code := "eval::not_an_object" }
  | notIndexable found =>
    { message := found.name ++ " cannot be indexed"
      code := "eval::not_indexable" }
  | invalidMember found =>
    { message := "member must be a property or a method call, got " ++ found.name
      code := "eval::invalid_member" }
  | notAssignable target =>
    { message := target.name ++ " is not assignable"
      code := "eval::not_assignable" }
  | callFailed name _ =>
    { message := "call to `" ++ name ++ "` failed"
      code := "eval::call_failed" }
  | host error => error.diagnostic

end RuntimeError

end ExprLang
