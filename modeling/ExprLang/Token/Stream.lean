import ExprLang.Token.Lexer

/-!
# The tokens of a text in advance

`Cursor.tokens` reads a text to its end, or to the first place that has no token. A stream holds
these tokens together with what reading on would meet after them, so that moving along a stream is
moving a lexer along the text.
-/

namespace ExprLang

open Text

/-- What comes after the tokens of a text. -/
inductive TokenStream.Ending where
  /-- The last token is the end token, which stays. -/
  | settled
  /-- Every further step meets the same error. -/
  | stuck (error : LexicalError)
  /-- The next step meets the error, and all after it the end token. -/
  | unclosed (error : LexicalError) (eof : Token)
  deriving DecidableEq, Repr

/-- A token, those after it, and what follows them. -/
structure TokenStream where
  current : Token
  ahead : List Token
  ending : TokenStream.Ending
  deriving DecidableEq, Repr

namespace TokenStream.Ending

/-- What a lexical error means for the tokens after it. -/
def ofError (error : LexicalError) : Ending :=
  match error with
  | .unexpectedCharacter .. => .stuck error
  | .unterminatedString span => .unclosed error (.eof span.stop)

end TokenStream.Ending

namespace Text.Cursor

/-- A token other than the end token takes characters from the text. -/
theorem nextToken_rest_length_lt {cursor next : Cursor} {token : Token}
    (h : cursor.nextToken = (.ok token, next)) (hkind : token.kind ≠ .eof) :
    next.rest.length < cursor.rest.length := by
  have hblank : (cursor.rest.dropWhile isBlank).length ≤ cursor.rest.length :=
    (List.dropWhile_sublist _).length_le
  simp only [nextToken] at h
  split at h
  next =>
    simp only [Prod.mk.injEq, Except.ok.injEq] at h
    exact absurd (h.1 ▸ rfl) hkind
  next c text hrest =>
    simp only [skipBlanks, skip] at hrest
    rw [hrest] at hblank
    split at h
    next hread =>
      have := Token.Lexeme.read_length_le hread
      simp only [skip, Prod.mk.injEq, Except.ok.injEq] at h
      obtain ⟨_, rfl⟩ := h
      simp at hblank ⊢
      omega
    next => simp at h
    next => simp at h

/-- The tokens from the cursor on, and what follows them. -/
def tokens (cursor : Cursor) : List Token × TokenStream.Ending :=
  match h : cursor.nextToken with
  | (.error error, _) => ([], .ofError error)
  | (.ok token, next) =>
    if hkind : token.kind = .eof then ([token], .settled)
    else
      have := nextToken_rest_length_lt h hkind
      let (tokens, ending) := next.tokens
      (token :: tokens, ending)
termination_by cursor.rest.length

end Text.Cursor

/-- All tokens of a text, the end token included. -/
def tokenize (source : String) : Except LexicalError (List Token) :=
  match (Cursor.ofText source.toList).tokens with
  | (tokens, .settled) => .ok tokens
  | (_, .stuck error) | (_, .unclosed error _) => .error error

namespace TokenStream

/-- The stream that a lexer moves along. -/
def ofLexer (lexer : Lexer) : TokenStream :=
  let (ahead, ending) := lexer.cursor.tokens
  ⟨lexer.current, ahead, ending⟩

/-- The stream at the first token of a text. -/
def ofText (source : String) : Except LexicalError TokenStream :=
  (Lexer.ofText source).map ofLexer

/-- Moves to the next token. A step that fails keeps the token. -/
def advance (stream : TokenStream) : Except LexicalError Unit × TokenStream :=
  match stream.ahead with
  | token :: ahead => (.ok (), { stream with current := token, ahead })
  | [] =>
    match stream.ending with
    | .settled => (.ok (), stream)
    | .stuck error => (.error error, stream)
    | .unclosed error eof => (.error error, { stream with ahead := [eof], ending := .settled })

end TokenStream

end ExprLang
