import ExprLang.Text.Span
import ExprLang.Token.Kind

/-!
# Tokens

A token is a piece of the source with its kind and place. Names, keywords and literals have a value
besides their spelling, which differs from it only for strings.
-/

namespace ExprLang

/-- A piece of the source that belongs together. -/
structure Token where
  kind : Token.Kind
  /-- The piece as it is spelled. -/
  lexeme : String
  /-- The name, the word or the text of the literal; symbols have none. -/
  value : Option String
  span : Text.Span
  deriving DecidableEq, Repr, Inhabited

namespace Token

/-- The token at the end of a text, which has no characters. -/
def eof (offset : Nat) : Token :=
  ⟨.eof, "", none, ⟨offset, 0⟩⟩

/-- The value of the token, or its spelling if it has none. -/
def text (token : Token) : String :=
  token.value.getD token.lexeme

/-- The token on a line of a listing: kind, spelling and value. -/
def display (token : Token) : String :=
  token.kind.name ++ " " ++ token.lexeme ++ " " ++ token.value.getD "null"

end Token

/-- Why a text has no token at some place. -/
inductive LexicalError where
  /-- No token begins with the character. -/
  | unexpectedCharacter (character : Char) (offset : Nat)
  /-- The string that begins the span reaches the end of the text. -/
  | unterminatedString (span : Text.Span)
  deriving DecidableEq, Repr

namespace LexicalError

/-- The piece of the source that is at fault. -/
def span : LexicalError → Text.Span
  | unexpectedCharacter character offset => ⟨offset, character.utf8Size⟩
  | unterminatedString span => span

/-- The place of the fault. -/
def offset (error : LexicalError) : Nat :=
  error.span.offset

/-- What is told about a lexical error. -/
def diagnostic (error : LexicalError) : Diagnostic :=
  match error with
  | unexpectedCharacter character _ =>
    { message := "Unexpected character '" ++ character.toString ++ "'"
      code := "lex::unexpected_character"
      help := "remove or correct the character: `" ++ character.toString ++ "`"
      labels := [⟨"this character", error.span⟩] }
  | unterminatedString _ =>
    { message := "unterminated double quote string"
      code := "lex::unterminated_string"
      help := "add a trailing `\"` to terminate the string literal"
      labels := [⟨"this string literal is never closed", error.span⟩] }

end LexicalError

end ExprLang
