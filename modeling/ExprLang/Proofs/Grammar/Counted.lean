import ExprLang.Grammar.Parser

/-!
# Reading with a counter

Reading an expression can count the levels of nesting by which it is inside others, instead of being
told how many are left. The counter then belongs to the parser: it is raised where a construct, a
link of a chain or a suffix begins, set back by whoever began them, and it is kept from one call to
the next. Loops go round as long as the tokens ask for it.

Whether that comes to an end is not decided beforehand. So a reading is granted a number of steps,
and has no result if they are too few; one that does not end has none with any number of steps.

Besides, the parser keeps a record of every value that the counter takes and of the tokens that each
round of a loop begins and ends with.
-/

namespace ExprLang

/-- The tokens that a stream still holds and that are not the end token. -/
def TokenStream.content (stream : TokenStream) : List Token :=
  (stream.current :: stream.ahead).filter (·.kind ≠ .eof)

/-- The number of tokens that can still be taken off a stream. -/
def TokenStream.remaining (stream : TokenStream) : Nat :=
  stream.content.length

namespace Grammar.Counted

/-- Where a parser with a counter stands, and its record. -/
structure Standing where
  stream : TokenStream
  depth : Nat
  /-- The values that the counter has taken. -/
  depths : List Nat
  /-- The tokens left at the beginning and at the end of each round of a loop. -/
  rounds : List (Nat × Nat)

/-- A parser at the beginning of a stream. -/
def Standing.start (stream : TokenStream) : Standing :=
  ⟨stream, 0, [0], []⟩

/-- The counter takes a value. -/
def Standing.atDepth (standing : Standing) (depth : Nat) : Standing :=
  { standing with depth, depths := depth :: standing.depths }

/-- Reads something, unless the steps that it is granted are too few. -/
abbrev CountM := ExceptT SyntaxError (StateT Standing Option)

/-- The steps are too few. -/
def unended {α : Type} : CountM α := fun _ => none

/-- The value of the counter. -/
def depth : CountM Nat :=
  return (← get).depth

/-- Sets the counter. -/
def setDepth (depth : Nat) : CountM PUnit :=
  modify (·.atDepth depth)

/-- The tokens that are left. -/
def remaining : CountM Nat :=
  return (← get).stream.remaining

/-- Records a round of a loop that began with the given number of tokens left. -/
def endRound (before : Nat) : CountM PUnit :=
  modify fun standing =>
    { standing with rounds := (before, standing.stream.remaining) :: standing.rounds }

/-- A step along the stream does not touch the counter. -/
def ofStep {α : Type} (step : ParseM α) : CountM α := fun standing =>
  match step.run standing.stream with
  | .ok value stream => some (.ok value, { standing with stream })
  | .error error stream => some (.error error, { standing with stream })

instance : MonadLift ParseM CountM := ⟨ofStep⟩

/-- Raises the counter, unless it has reached the limit. -/
def deepen : CountM PUnit := do
  if nestingLimit ≤ (← depth) then refuseDepth
  else setDepth ((← depth) + 1)

/-- Runs a reading one level deeper and sets the counter back, also after an error. -/
def nested {α : Type} (reading : CountM α) : CountM α :=
  show StateT Standing Option (Except SyntaxError α) from do
    let saved := (← get).depth
    match ← deepen.run with
    | .error error => return .error error
    | .ok _ =>
      let answer ← reading.run
      modify (·.atDepth saved)
      return answer

/-- A declaration without a value, or else something that is not one. -/
def declarationOr (other : CountM Expr) : CountM Expr := do
  match DeclarationKind.ofToken? (← kind) with
  | some declaration =>
    discard advance
    let name ← expect .identifier
    return .declaration declaration name.text
  | none => other

/-- What follows a name: the arguments of a call if there is a parenthesis. -/
def named (arguments : CountM (List Expr)) (name : String) : CountM Expr := do
  if (← kind) = .leftParen then
    discard advance
    let list ← arguments
    discard (expect .rightParen)
    return .call name list
  else return .var name

/-- A name with or without arguments, a literal, or something in parentheses. -/
def primary (inner : CountM Expr) (arguments : CountM (List Expr)) : CountM Expr := do
  let token ← current
  if token.kind = .identifier then
    discard advance
    named arguments token.text
  else if token.kind = .leftParen then
    discard advance
    let expr ← inner
    discard (expect .rightParen)
    return .group expr
  else
    match LiteralKind.ofToken? token.kind with
    | some literal =>
      discard advance
      return .constant literal token.text
    | none => refuse (.unexpectedToken token.kind token.span)

/-- An operand with at most one operator before it, or else at most one after it. -/
def unary (operand : CountM Expr) : CountM Expr := do
  match UnaryOp.before? (← kind) with
  | some op =>
    let token ← advance
    let expr ← operand
    applyUnary op expr token
  | none =>
    let expr ← operand
    match UnaryOp.after? (← kind) with
    | some op =>
      let token ← advance
      applyUnary op expr token
    | none => return expr

mutual

/-- An assignment or something that binds tighter. -/
def assignment : (steps : Nat) → CountM Expr
  | 0 => unended
  | steps + 1 => nested do
    let target ← declarationOr (ternary steps)
    match AssignOp.ofToken? (← kind) with
    | none => return target
    | some op =>
      let token ← advance
      checkTarget op target token
      let value ← assignment steps
      return .assignment op target value
termination_by structural steps => steps

/-- A condition with its branches or something that binds tighter. -/
def ternary : (steps : Nat) → CountM Expr
  | 0 => unended
  | steps + 1 => nested do
    let condition ← binary steps 0
    branches steps condition
termination_by structural steps => steps

/-- Goes on after a condition as long as there are branches for it. -/
def branches : (steps : Nat) → Expr → CountM Expr
  | 0, _ => unended
  | steps + 1, condition => do
    if (← kind) = .question then
      let before ← remaining
      discard advance
      let ifTrue ← ternary steps
      discard (expect .colon)
      let ifFalse ← ternary steps
      endRound before
      branches steps (.ternary condition ifTrue ifFalse)
    else return condition
termination_by structural steps => steps

/-- A chain of operators of at least the given precedence. -/
def binary : (steps floor : Nat) → CountM Expr
  | 0, _ => unended
  | steps + 1, floor => nested do
    let saved ← depth
    let left ← unary (suffixed steps)
    operators steps saved floor left
termination_by structural steps => steps

/-- Goes on after the left operand of a chain. Every operator raises the counter, which is set back
where the chain ends without an error. -/
def operators : (steps saved floor : Nat) → Expr → CountM Expr
  | 0, _, _, _ => unended
  | steps + 1, saved, floor, left => do
    match BinaryOp.ofToken? (← kind) with
    | some op =>
      if op.precedence < floor then
        setDepth saved
        return left
      else
        let before ← remaining
        deepen
        discard advance
        let right ← binary steps op.rightFloor
        endRound before
        operators steps saved floor (.binary op left right)
    | none =>
      setDepth saved
      return left
termination_by structural steps => steps

/-- A target with its suffixes. -/
def suffixed : (steps : Nat) → CountM Expr
  | 0 => unended
  | steps + 1 => do
    let saved ← depth
    let target ← primary (ternary steps) (arguments steps)
    suffixes steps saved target
termination_by structural steps => steps

/-- Goes on after a target. Every suffix raises the counter, which is set back where the suffixes
end without an error. -/
def suffixes : (steps saved : Nat) → Expr → CountM Expr
  | 0, _, _ => unended
  | steps + 1, saved, target => do
    if (← kind) = .leftBracket then
      let before ← remaining
      deepen
      discard advance
      let position ← binary steps 0
      discard (expect .rightBracket)
      endRound before
      suffixes steps saved (.index target position)
    else if (← kind) = .dot then
      let before ← remaining
      deepen
      discard advance
      let name ← expect .identifier
      let part ← named (arguments steps) name.text
      endRound before
      suffixes steps saved (.member target part)
    else
      setDepth saved
      return target
termination_by structural steps => steps

/-- The arguments of a call, read until its closing parenthesis or the end of the text. -/
def arguments : (steps : Nat) → CountM (List Expr)
  | 0 => unended
  | steps + 1 => do
    if (← kind) = .rightParen then return []
    else if (← kind) = .eof then return []
    else
      let before ← remaining
      let first ← assignment steps
      if (← kind) = .comma then discard advance
      endRound before
      let rest ← arguments steps
      return first :: rest
termination_by structural steps => steps

end

/-- A reading comes to an end where it is granted enough steps, with the same result for all such
numbers of steps. -/
def Ends {α : Type} (counted : Nat → CountM α) (standing : Standing) (answer : Except SyntaxError α)
    (next : Standing) : Prop :=
  ∃ enough, ∀ steps, enough ≤ steps → counted steps standing = some (answer, next)

end Grammar.Counted

end ExprLang
