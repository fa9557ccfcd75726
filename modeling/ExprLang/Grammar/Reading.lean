import ExprLang.Expr.Basic
import ExprLang.Grammar.Step

/-!
# Reading expressions

The grammar, from the loosest construct to the tightest: assignments, conditions, chains of binary
operators by precedence, an operator before or after an operand, suffixes of a target, and primary
expressions. A construct that holds others is read with a number of levels left for nesting, and
each of them with fewer, which is also why reading comes to an end.
-/

namespace ExprLang

namespace BinaryOp

/-- The operator that a token between two operands stands for. -/
def ofToken? : Token.Kind → Option BinaryOp
  | .orOr => some or
  | .andAnd => some and
  | .equalEqual => some equal
  | .bangEqual => some notEqual
  | .greater => some greater
  | .less => some less
  | .greaterEqual => some greaterOrEqual
  | .lessEqual => some lessOrEqual
  | .plus => some add
  | .minus => some subtract
  | .star => some multiply
  | .slash => some divide
  | .percent => some modulo
  | .caret => some exponent
  | _ => none

end BinaryOp

namespace AssignOp

/-- The operator that a token between a target and a value stands for. -/
def ofToken? : Token.Kind → Option AssignOp
  | .equal => some assign
  | .plusEqual => some add
  | .minusEqual => some subtract
  | .starEqual => some multiply
  | .slashEqual => some divide
  | .percentEqual => some modulo
  | .caretEqual => some exponent
  | _ => none

end AssignOp

namespace UnaryOp

/-- The operator that a token before an operand stands for. -/
def before? : Token.Kind → Option UnaryOp
  | .plusPlus => some incrementBefore
  | .minusMinus => some decrementBefore
  | .bang => some not
  | .plus => some plus
  | .minus => some negate
  | _ => none

/-- The operator that a token after an operand stands for. -/
def after? : Token.Kind → Option UnaryOp
  | .plusPlus => some incrementAfter
  | .minusMinus => some decrementAfter
  | _ => none

end UnaryOp

namespace DeclarationKind

/-- The declaration that a token begins. -/
def ofToken? : Token.Kind → Option DeclarationKind
  | .let => some «let»
  | .const => some const
  | _ => none

end DeclarationKind

namespace LiteralKind

/-- The literal that a token is. -/
def ofToken? : Token.Kind → Option LiteralKind
  | .int => some int
  | .decimal => some decimal
  | .string => some string
  | .true | .false => some bool
  | _ => none

end LiteralKind

namespace Grammar

/-- The arguments of a call, read until its closing parenthesis or the end of the text. Commas
between them may be left out, and one may follow the last. -/
def arguments (argument : ParseM Expr) : Nat → ParseM (List Expr)
  | 0 => return []
  | bound + 1 => do
    match ← kind with
    | .rightParen | .eof => return []
    | _ =>
      let first ← argument
      if (← kind) = .comma then discard advance
      let rest ← arguments argument bound
      return first :: rest

/-- What follows a name: the arguments of a call if there is a parenthesis. -/
def named (argument : ParseM Expr) (name : String) : ParseM Expr := do
  if (← kind) = .leftParen then
    discard advance
    let list ← arguments argument (← stepBound)
    discard (expect .rightParen)
    return .call name list
  else return .var name

/-- A name with or without arguments, a literal, or something in parentheses. -/
def primary (inner argument : ParseM Expr) : ParseM Expr := do
  let token ← current
  match token.kind with
  | .identifier =>
    discard advance
    named argument token.text
  | .leftParen =>
    discard advance
    let expr ← inner
    discard (expect .rightParen)
    return .group expr
  | kind =>
    match LiteralKind.ofToken? kind with
    | some literal =>
      discard advance
      return .constant literal token.text
    | none => refuse (.unexpectedToken kind token.span)

/-- Applies an operator. One that changes its operand needs a place. -/
def applyUnary (op : UnaryOp) (operand : Expr) (token : Token) : ParseM Expr :=
  if op.mutates && !operand.isPlace then refuse (.invalidStepTarget op token.span)
  else return .unary op operand

/-- An operand with at most one operator before it, or else at most one after it. -/
def unary (operand : ParseM Expr) : ParseM Expr := do
  match UnaryOp.before? (← kind) with
  | some op =>
    let token ← advance
    applyUnary op (← operand) token
  | none =>
    let expr ← operand
    match UnaryOp.after? (← kind) with
    | some op =>
      let token ← advance
      applyUnary op expr token
    | none => return expr

/-- Goes on after a condition as long as there are branches for it; a condition with its branches
may itself be the condition of others. -/
def branches (branch : ParseM Expr) : Nat → Expr → ParseM Expr
  | 0, condition => return condition
  | bound + 1, condition => do
    if (← kind) = .question then
      discard advance
      let ifTrue ← branch
      discard (expect .colon)
      let ifFalse ← branch
      branches branch bound (.ternary condition ifTrue ifFalse)
    else return condition

/-- A declaration without a value, or else something that is not one. -/
def declarationOr (other : ParseM Expr) : ParseM Expr := do
  match DeclarationKind.ofToken? (← kind) with
  | some declaration =>
    discard advance
    let name ← expect .identifier
    return .declaration declaration name.text
  | none => other

/-- Refuses a target that the operator cannot store to. -/
def checkTarget (op : AssignOp) (target : Expr) (token : Token) : ParseM Unit :=
  match target with
  | .declaration .. =>
    if op = .assign then return () else refuse (.compoundDeclaration op token.span)
  | _ =>
    if target.isPlace then return () else refuse (.invalidAssignmentTarget op token.span)

mutual

/-- An assignment or something that binds tighter. -/
def assignment : (levels : Nat) → ParseM Expr
  | 0 => refuseDepth
  | levels + 1 => do
    let target ← declarationOr (ternary levels)
    match AssignOp.ofToken? (← kind) with
    | none => return target
    | some op =>
      let token ← advance
      checkTarget op target token
      let value ← assignment levels
      return .assignment op target value
termination_by structural levels => levels

/-- A condition with its branches or something that binds tighter. -/
def ternary : (levels : Nat) → ParseM Expr
  | 0 => refuseDepth
  | levels + 1 => do
    let condition ← binary levels 0
    branches (ternary levels) (← stepBound) condition
termination_by structural levels => levels

/-- A chain of operators of at least the given precedence. -/
def binary : (levels floor : Nat) → ParseM Expr
  | 0, _ => refuseDepth
  | levels + 1, floor => do
    let left ← unary (primary (ternary levels) (assignment levels) >>= suffixes levels)
    operators levels floor left
termination_by structural levels => levels

/-- Goes on after the left operand of a chain. -/
def operators : (levels floor : Nat) → Expr → ParseM Expr
  | 0, floor, left => do
    match BinaryOp.ofToken? (← kind) with
    | some op => if op.precedence < floor then return left else refuseDepth
    | none => return left
  | levels + 1, floor, left => do
    match BinaryOp.ofToken? (← kind) with
    | some op =>
      if op.precedence < floor then return left
      else
        discard advance
        let right ← binary levels op.rightFloor
        operators levels floor (.binary op left right)
    | none => return left
termination_by structural levels => levels

/-- Goes on after a target: indexes in brackets and members after a point. -/
def suffixes : (levels : Nat) → Expr → ParseM Expr
  | 0, target => do
    match ← kind with
    | .leftBracket | .dot => refuseDepth
    | _ => return target
  | levels + 1, target => do
    match ← kind with
    | .leftBracket =>
      discard advance
      let position ← binary levels 0
      discard (expect .rightBracket)
      suffixes levels (.index target position)
    | .dot =>
      discard advance
      let name ← expect .identifier
      let part ← named (assignment levels) name.text
      suffixes levels (.member target part)
    | _ => return target
termination_by structural levels => levels

end

/-- Reads one expression. -/
def expression : ParseM Expr :=
  assignment nestingLimit

/-- Reads one expression that the text ends with. -/
def wholeExpression : ParseM Expr := do
  let expr ← expression
  let token ← current
  if token.kind = .eof then return expr
  else refuse (.trailingInput token.kind token.span)

end Grammar

end ExprLang
