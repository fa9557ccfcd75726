import ExprLang.Proofs.Lexical.LongestMatch
import ExprLang.Token.Stream

/-!
# A text as a row of longest lexemes

The tokens of a text are its longest lexemes, taken from the left with the blanks between them left
out. The first place without a lexeme makes the text fail, and no other place does.
-/

namespace ExprLang

open Text

/-- What becomes of a text that begins at the given byte when it is cut into longest lexemes. -/
inductive Tokenizes : (offset : Nat) → List Char → Except LexicalError (List Token) → Prop
  | finished {offset : Nat} {blanks : List Char} (hblanks : ∀ c ∈ blanks, isBlank c = true) :
      Tokenizes offset blanks (.ok [.eof (offset + byteLength blanks)])
  | token {offset : Nat} {blanks text lexeme rest : List Char} {c : Char} {kind : Token.Kind}
      {value : Option (List Char)} {result : Except LexicalError (List Token)}
      (hblanks : ∀ c ∈ blanks, isBlank c = true) (hc : isBlank c = false)
      (hlongest : Token.Lexeme.IsLongest (c :: text) kind lexeme value rest)
      (hrest : Tokenizes (offset + byteLength blanks + byteLength lexeme) rest result) :
      Tokenizes offset (blanks ++ c :: text) (result.map fun tokens =>
        ⟨kind, .ofList lexeme, value.map .ofList,
          ⟨offset + byteLength blanks, byteLength lexeme⟩⟩ :: tokens)
  | unterminated {offset : Nat} {blanks text : List Char}
      (hblanks : ∀ c ∈ blanks, isBlank c = true)
      (hnone : ¬ Token.Lexeme.HasLexeme ('"' :: text)) :
      Tokenizes offset (blanks ++ '"' :: text)
        (.error (.unterminatedString ⟨offset + byteLength blanks, byteLength ('"' :: text)⟩))
  | unexpected {offset : Nat} {blanks text : List Char} {c : Char}
      (hblanks : ∀ c ∈ blanks, isBlank c = true) (hc : isBlank c = false) (hquote : c ≠ '"')
      (hnone : ¬ Token.Lexeme.HasLexeme (c :: text)) :
      Tokenizes offset (blanks ++ c :: text)
        (.error (.unexpectedCharacter c (offset + byteLength blanks)))

namespace Text.Cursor

variable {cursor : Cursor} {blanks text : List Char} {c : Char}

/-! ## The next token -/

theorem skipBlanks_eq_of_rest (hblanks : ∀ c ∈ blanks, isBlank c = true) (hc : isBlank c = false)
    (hrest : cursor.rest = blanks ++ c :: text) :
    cursor.skipBlanks = cursor.skip blanks (c :: text) := by
  have hstop : ¬ isBlank c = true := by simp [hc]
  rw [skipBlanks, hrest, List.takeWhile_append_of_pos hblanks, List.dropWhile_append_of_pos hblanks,
    List.takeWhile_cons_of_neg hstop, List.dropWhile_cons_of_neg hstop, List.append_nil]

theorem nextToken_of_forall_isBlank (hblanks : ∀ c ∈ cursor.rest, isBlank c = true) :
    cursor.nextToken =
      (.ok (.eof (cursor.position + byteLength cursor.rest)), cursor.skip cursor.rest []) := by
  have hskip : cursor.skipBlanks = cursor.skip cursor.rest [] := by
    rw [skipBlanks, List.takeWhile_eq_self_iff.mpr hblanks, List.dropWhile_eq_nil_iff.mpr hblanks]
  rw [nextToken, hskip]
  rfl

/-- The token after some blanks is the lexeme that is read there. -/
theorem nextToken_of_rest (hblanks : ∀ c ∈ blanks, isBlank c = true) (hc : isBlank c = false)
    (hrest : cursor.rest = blanks ++ c :: text) :
    cursor.nextToken =
      match Token.Lexeme.read c text with
      | .token kind lexeme value rest =>
        (.ok ⟨kind, .ofList lexeme, value.map .ofList,
            ⟨cursor.position + byteLength blanks, byteLength lexeme⟩⟩,
          (cursor.skip blanks (c :: text)).skip lexeme rest)
      | .unexpected d =>
        (.error (.unexpectedCharacter d (cursor.position + byteLength blanks)),
          cursor.skip blanks (c :: text))
      | .unterminated =>
        (.error (.unterminatedString
            ⟨cursor.position + byteLength blanks, byteLength (c :: text)⟩),
          (cursor.skip blanks (c :: text)).skip (c :: text) []) := by
  have hskip := skipBlanks_eq_of_rest hblanks hc hrest
  cases hread : Token.Lexeme.read c text <;> simp [nextToken, hskip, skip, hread]

/-! ## All tokens -/

theorem tokens_of_error {error : LexicalError} {next : Cursor}
    (h : cursor.nextToken = (.error error, next)) : cursor.tokens = ([], .ofError error) := by
  rw [tokens]
  split
  next heq => rw [h] at heq; cases heq; rfl
  next heq => rw [h] at heq; cases heq

theorem tokens_of_eof {token : Token} {next : Cursor}
    (h : cursor.nextToken = (.ok token, next)) (hkind : token.kind = .eof) :
    cursor.tokens = ([token], .settled) := by
  rw [tokens]
  split
  next heq => rw [h] at heq; cases heq
  next heq => rw [h] at heq; cases heq; rw [dif_pos hkind]

theorem tokens_of_ok {token : Token} {next : Cursor}
    (h : cursor.nextToken = (.ok token, next)) (hkind : token.kind ≠ .eof) :
    cursor.tokens = (token :: next.tokens.1, next.tokens.2) := by
  rw [tokens]
  split
  next heq => rw [h] at heq; cases heq
  next heq => rw [h] at heq; cases heq; rw [dif_neg hkind]

end Text.Cursor

/-- The tokens that were read, or the error that ends them. -/
def TokenStream.Ending.outcome : List Token × TokenStream.Ending →
    Except LexicalError (List Token)
  | (tokens, .settled) => .ok tokens
  | (_, .stuck error) | (_, .unclosed error _) => .error error

open TokenStream.Ending (outcome)

theorem tokenize_eq_outcome (source : String) :
    tokenize source = outcome (Cursor.ofText source.toList).tokens := by
  unfold tokenize outcome
  rfl

@[simp]
theorem outcome_ofError (tokens : List Token) (error : LexicalError) :
    outcome (tokens, .ofError error) = .error error := by
  cases error <;> rfl

@[simp]
theorem outcome_cons (token : Token) (tokens : List Token) (ending : TokenStream.Ending) :
    outcome (token :: tokens, ending) =
      (outcome (tokens, ending)).map fun tokens => token :: tokens := by
  cases ending <;> rfl

theorem fst_eq_of_outcome {read : List Token × TokenStream.Ending} {tokens : List Token}
    (h : outcome read = .ok tokens) : read.1 = tokens := by
  obtain ⟨list, ending⟩ := read
  cases ending <;> cases h
  rfl

/-- A text is a run of blanks and something that begins with no blank. -/
theorem exists_blanks (text : List Char) :
    ∃ blanks rest, text = blanks ++ rest ∧ (∀ c ∈ blanks, isBlank c = true) ∧
      ∀ c ∈ rest.head?, isBlank c = false := by
  refine ⟨text.takeWhile isBlank, text.dropWhile isBlank, List.takeWhile_append_dropWhile.symm,
    fun _ hmem => List.mem_takeWhile_imp hmem, ?_⟩
  intro c hc
  have hhead := List.head?_dropWhile_not isBlank text
  rw [Option.mem_def.mp hc] at hhead
  exact hhead

/-- Every text is cut into longest lexemes up to its end or up to its first fault. -/
theorem tokenizes_tokens (cursor : Cursor) :
    Tokenizes cursor.position cursor.rest (outcome cursor.tokens) := by
  -- Each token but the last takes characters off the rest of the text.
  induction hlength : cursor.rest.length using Nat.strong_induction_on generalizing cursor with
  | _ length ih =>
    obtain ⟨blanks, rest, hsplit, hblanks, hhead⟩ := exists_blanks cursor.rest
    cases rest with
    | nil =>
        rw [List.append_nil] at hsplit
        rw [← hsplit] at hblanks
        rw [Cursor.tokens_of_eof (Cursor.nextToken_of_forall_isBlank hblanks) rfl]
        exact .finished hblanks
    | cons c text =>
        have hc : isBlank c = false := hhead c rfl
        have hnext := Cursor.nextToken_of_rest hblanks hc hsplit
        have hread := Token.Lexeme.describes_read c text
        cases hanswer : Token.Lexeme.read c text with
        | token kind lexeme value rest =>
            rw [hanswer] at hnext hread
            have hkind := hread.isLexeme.kind_ne_eof
            have hlt := Cursor.nextToken_rest_length_lt hnext hkind
            rw [Cursor.tokens_of_ok hnext hkind, hsplit, outcome_cons]
            exact .token hblanks hc hread (ih _ (hlength ▸ hlt) _ rfl)
        | unexpected d =>
            rw [hanswer] at hnext hread
            obtain ⟨rfl, hquote, hnone⟩ := hread
            rw [Cursor.tokens_of_error hnext, hsplit, outcome_ofError]
            exact .unexpected hblanks hc hquote hnone
        | unterminated =>
            rw [hanswer] at hnext hread
            obtain ⟨rfl, hnone⟩ := hread
            rw [Cursor.tokens_of_error hnext, hsplit, outcome_ofError]
            exact .unterminated hblanks hnone

/-- Cutting into longest lexemes leaves no choice. -/
theorem outcome_eq_of_tokenizes {offset : Nat} {text : List Char}
    {result : Except LexicalError (List Token)} (h : Tokenizes offset text result)
    {cursor : Cursor} (hposition : cursor.position = offset) (hrest : cursor.rest = text) :
    outcome cursor.tokens = result := by
  induction h generalizing cursor with
  | finished hblanks =>
      rw [← hrest] at hblanks
      rw [Cursor.tokens_of_eof (Cursor.nextToken_of_forall_isBlank hblanks) rfl, hposition, hrest]
      rfl
  | token hblanks hc hlongest _ ih =>
      have hnext := Cursor.nextToken_of_rest hblanks hc hrest
      rw [Token.Lexeme.read_of_isLongest hlongest, hposition] at hnext
      rw [Cursor.tokens_of_ok hnext hlongest.isLexeme.kind_ne_eof, outcome_cons]
      congr 1
      exact ih (by simp [Cursor.skip, hposition]) rfl
  | unterminated hblanks hnone =>
      have hnext := Cursor.nextToken_of_rest hblanks (by decide) hrest
      rw [Token.Lexeme.read_of_not_hasLexeme hnone, if_pos rfl, hposition] at hnext
      rw [Cursor.tokens_of_error hnext, outcome_ofError]
  | unexpected hblanks hc hquote hnone =>
      have hnext := Cursor.nextToken_of_rest hblanks hc hrest
      rw [Token.Lexeme.read_of_not_hasLexeme hnone, if_neg hquote, hposition] at hnext
      rw [Cursor.tokens_of_error hnext, outcome_ofError]

/-- The answer for a text is the one that its longest lexemes give. -/
theorem tokenize_eq_iff_tokenizes (source : String) (result : Except LexicalError (List Token)) :
    tokenize source = result ↔ Tokenizes 0 source.toList result := by
  rw [tokenize_eq_outcome]
  constructor
  · rintro rfl
    exact tokenizes_tokens (Cursor.ofText source.toList)
  · intro h
    exact outcome_eq_of_tokenizes h rfl rfl

end ExprLang
