import ExprLang.Text.Span
import ExprLang.Number.Integer
import ExprLang.Value.Type

/-!
# Refusals of the host

Why an object or a function of the host does not do what it is asked to.
-/

namespace ExprLang

/-- Why the host refuses. -/
inductive HostError where
  | unknownProperty (typeName name : String)
  | unknownMethod (typeName name : String)
  | notIndexable (typeName : String)
  | indexOutOfRange (index : Int64) (length : Nat)
  | invalidIndex (typeName : String) (found : Value.Kind)
  | readOnly (typeName name : String)
  | arity (expected found : Nat)
  /-- Arguments are counted from one. -/
  | argumentType (position : Nat) (expected : ValueType) (found : Value.Kind)
  | returnType (expected : ValueType) (found : Value.Kind)
  /-- The host gives a reason of its own. -/
  | failed (reason : String)
  deriving DecidableEq, Repr, Inhabited

namespace HostError

/-- The wording of the refusal. -/
def message : HostError → String
  | unknownProperty typeName name => "`" ++ typeName ++ "` has no property `" ++ name ++ "`"
  | unknownMethod typeName name => "`" ++ typeName ++ "` has no method `" ++ name ++ "`"
  | notIndexable typeName => "`" ++ typeName ++ "` cannot be indexed"
  | indexOutOfRange index length =>
    "index " ++ Integer.text index ++ " is out of range for length " ++ toString length
  | invalidIndex typeName found =>
    "`" ++ typeName ++ "` cannot be indexed by " ++ found.name
  | readOnly typeName name => "property `" ++ name ++ "` of `" ++ typeName ++ "` is read-only"
  | arity expected found =>
    "expected " ++ toString expected ++ " argument(s), got " ++ toString found
  | argumentType position expected found =>
    "argument " ++ toString position ++ " should be " ++ expected.name ++ ", got " ++ found.name
  | returnType expected found =>
    "declared to return " ++ expected.name ++ ", returned " ++ found.name
  | failed reason => reason

/-- What is told about the refusal. -/
def diagnostic (error : HostError) : Diagnostic :=
  { message := error.message }

end HostError

end ExprLang
