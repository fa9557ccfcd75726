import ExprLang.Grammar.Reading

/-!
# Parsing a text

`parse` reads a text that is one expression. A `Parser` reads several expressions off one text, one
after another, and goes on from where it stopped also after an error.
-/

namespace ExprLang

/-- A text and the place up to which it has been read. -/
structure Parser where
  source : String
  stream : TokenStream

namespace Parser

/-- The parser at the beginning of a text. -/
def ofText (source : String) : Except SyntaxError Parser :=
  match TokenStream.ofText source with
  | .ok stream => .ok ⟨source, stream⟩
  | .error error => .error (.lexical error)

/-- Runs one reading and keeps the place where it ended. -/
def step {α : Type} (reading : Grammar.ParseM α) (parser : Parser) :
    Except SyntaxError α × Parser :=
  match reading.run parser.stream with
  | .ok result stream => (.ok result, { parser with stream })
  | .error error stream => (.error error, { parser with stream })

/-- Reads the next expression. -/
def next (parser : Parser) : Except SyntaxError Expr × Parser :=
  parser.step Grammar.expression

/-- Reads the last expression, which the text must end with. -/
def finish (parser : Parser) : Except SyntaxError Expr :=
  (parser.step Grammar.wholeExpression).1

end Parser

/-- The expression that a text spells. -/
def parse (source : String) : Except SyntaxError Expr := do
  (← Parser.ofText source).finish

end ExprLang
