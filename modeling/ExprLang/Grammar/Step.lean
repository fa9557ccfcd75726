import ExprLang.Grammar.Error
import ExprLang.Token.Stream

/-!
# Steps of the parser

A parser reads an expression off a stream of tokens and moves along it. Where it fails, the stream
stays at the token that was refused, and reading can go on from there.
-/

namespace ExprLang.Grammar

/-- Reads something off a stream of tokens, which also survives a failure. -/
abbrev ParseM := EStateM SyntaxError TokenStream

/-- The token at which the parser stands. -/
def current : ParseM Token :=
  return (← get).current

/-- The kind of the token at which the parser stands. -/
def kind : ParseM Token.Kind :=
  return (← get).current.kind

/-- More than the number of steps that can still be made along the stream. -/
def stepBound : ParseM Nat :=
  return (← get).ahead.length + 1

/-- Refuses the text. -/
def refuse {α : Type} (error : GrammarError) : ParseM α :=
  throw (.grammatical error)

/-- Moves to the next token and answers the one that is left behind. -/
def advance : ParseM Token := fun stream =>
  match stream.advance with
  | (.ok (), next) => .ok stream.current next
  | (.error error, next) => .error (.lexical error) next

/-- Moves past a token of the given kind, and refuses any other. -/
def expect (expected : Token.Kind) : ParseM Token := do
  let token ← current
  if token.kind = expected then advance
  else refuse (.expectedToken expected token.kind token.span)

/-- Refuses to go deeper at the token at which the parser stands. -/
def refuseDepth {α : Type} : ParseM α := do
  refuse (.tooDeep (← current).span)

end ExprLang.Grammar
