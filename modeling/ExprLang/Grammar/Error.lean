import ExprLang.Expr.Operator
import ExprLang.Token.Basic

/-!
# Errors of grammar

A text whose tokens do not form an expression is refused at one token. The error keeps the place of
this token and what was wrong about it.
-/

namespace ExprLang

open Text

/-- The deepest nesting of an expression. Parentheses, branches of a condition, assigned values,
operands of a chain of operators and suffixes of a target all count. -/
def nestingLimit : Nat := 128

/-- Why tokens do not form an expression. -/
inductive GrammarError where
  /-- No expression begins with the token. -/
  | unexpectedToken (found : Token.Kind) (span : Span)
  /-- Only one kind of token can stand here, and it does not. -/
  | expectedToken (expected found : Token.Kind) (span : Span)
  /-- A step is applied to something that is no place. -/
  | invalidStepTarget (op : UnaryOp) (span : Span)
  /-- A value is assigned to something that is no place. -/
  | invalidAssignmentTarget (op : AssignOp) (span : Span)
  /-- A declaration is given its first value by an operator that needs an old one. -/
  | compoundDeclaration (op : AssignOp) (span : Span)
  /-- The nesting exceeds the limit. -/
  | tooDeep (span : Span)
  /-- The expression is over but the text is not. -/
  | trailingInput (found : Token.Kind) (span : Span)
  deriving DecidableEq, Repr

namespace GrammarError

/-- The place of the token at which the text is refused. -/
def span : GrammarError → Span
  | unexpectedToken _ span | expectedToken _ _ span | invalidStepTarget _ span
  | invalidAssignmentTarget _ span | compoundDeclaration _ span | tooDeep span
  | trailingInput _ span => span

/-- What is told about an error of grammar. -/
def diagnostic (error : GrammarError) : Diagnostic :=
  match error with
  | unexpectedToken found span =>
    { message := "Unexpected token " ++ found.name
      code := "parse::unexpected_token"
      help := "expected a literal, a variable, a function call or `(`"
      labels := [⟨"here", span⟩] }
  | expectedToken expected found span =>
    { message := "Expected " ++ expected.name ++ ", found " ++ found.name
      code := "parse::expected_token"
      help := "use `" ++ expected.name ++ "` here instead"
      labels := [⟨"here", span⟩] }
  | invalidStepTarget op span =>
    { message := "left-hand side must be a variable or member"
      code := "parse::invalid_increment_target"
      help := "`" ++ op.symbol ++ "` only applies to variables, members and indexed elements"
      labels := [⟨"this operator", span⟩] }
  | invalidAssignmentTarget op span =>
    { message := "left-hand side of `" ++ op.symbol ++ "` is not assignable"
      code := "parse::invalid_assignment_target"
      help := "only declarations, variables, members and indexed elements can be assigned"
      labels := [⟨"this assignment", span⟩] }
  | compoundDeclaration op span =>
    { message := "`" ++ op.symbol ++ "` cannot initialize a declaration"
      code := "parse::compound_declaration"
      help := "use `=` to initialize a new variable"
      labels := [⟨"this operator", span⟩] }
  | tooDeep span =>
    { message := "expression nests deeper than " ++ toString nestingLimit ++ " levels"
      code := "parse::too_deep"
      help := "split the expression or bind intermediate results to variables"
      labels := [⟨"nesting limit reached here", span⟩] }
  | trailingInput found span =>
    { message := "Unexpected " ++ found.name ++ " after the end of the expression"
      code := "parse::trailing_input"
      labels := [⟨"remove this", span⟩] }

end GrammarError

/-- Why a text is not an expression. -/
inductive SyntaxError where
  | lexical (error : LexicalError)
  | grammatical (error : GrammarError)
  deriving DecidableEq, Repr

namespace SyntaxError

/-- What is told about the error. -/
def diagnostic : SyntaxError → Diagnostic
  | lexical error => error.diagnostic
  | grammatical error => error.diagnostic

end SyntaxError

end ExprLang
