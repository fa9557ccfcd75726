import ExprLang.Text.Cursor
import ExprLang.Token.Basic
import ExprLang.Token.Lexeme

/-!
# From text to tokens

A lexer holds one token and stands behind it in the text. Advancing skips the blanks there and reads
the token after them; at the end of the text that is the end token, again and again. An advance that
fails keeps the token: a character that begins no token stops the lexer for good, while a string
that is not closed takes it to the end of the text.
-/

namespace ExprLang

open Text

namespace Text.Cursor

/-- Moves past the blanks at the cursor. -/
def skipBlanks (cursor : Cursor) : Cursor :=
  cursor.skip (cursor.rest.takeWhile isBlank) (cursor.rest.dropWhile isBlank)

/-- Reads the token after the blanks at the cursor. -/
def nextToken (cursor : Cursor) : Except LexicalError Token × Cursor :=
  let cursor := cursor.skipBlanks
  match cursor.rest with
  | [] => (.ok (.eof cursor.position), cursor)
  | c :: text =>
    match Token.Lexeme.read c text with
    | .token kind lexeme value rest =>
      (.ok ⟨kind, .ofList lexeme, value.map .ofList, ⟨cursor.position, byteLength lexeme⟩⟩,
        cursor.skip lexeme rest)
    | .unexpected c => (.error (.unexpectedCharacter c cursor.position), cursor)
    | .unterminated =>
      (.error (.unterminatedString ⟨cursor.position, byteLength cursor.rest⟩),
        cursor.skip cursor.rest [])

end Text.Cursor

/-- A token and the place behind it. -/
structure Lexer where
  cursor : Cursor
  current : Token
  deriving DecidableEq, Repr

namespace Lexer

/-- The lexer at the first token of a text. -/
def ofText (source : String) : Except LexicalError Lexer :=
  match (Cursor.ofText source.toList).nextToken with
  | (.ok token, cursor) => .ok ⟨cursor, token⟩
  | (.error error, _) => .error error

/-- The text that the lexer reads. -/
def source (lexer : Lexer) : String :=
  .ofList lexer.cursor.source

/-- Moves to the next token, and tells why if there is none. -/
def advance (lexer : Lexer) : Except LexicalError Token × Lexer :=
  match lexer.cursor.nextToken with
  | (.ok token, cursor) => (.ok token, ⟨cursor, token⟩)
  | (.error error, cursor) => (.error error, { lexer with cursor })

end Lexer

end ExprLang
