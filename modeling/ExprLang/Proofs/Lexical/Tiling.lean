import Mathlib
import ExprLang.Proofs.Lexical.Location

/-!
# Tokens tile a text

The lexemes of a text and the blanks between them are the text, from its first byte to its last. So
the spans of the tokens stand in order beside one another, and what lies outside all of them is
blank.
-/

namespace ExprLang

open Text

/-- The byte belongs to the piece. -/
def Text.Span.Covers (span : Span) (byte : Nat) : Prop :=
  span.offset ≤ byte ∧ byte < span.stop

/-- From a byte on, the text is written by the lexemes of the tokens with blanks before each of
them, and each token but the last has characters of its own. -/
inductive LaidOut : (offset : Nat) → List Char → List Token → Prop
  | eof {offset : Nat} {blanks : List Char} (hblanks : ∀ c ∈ blanks, isBlank c = true) :
      LaidOut offset blanks [.eof (offset + byteLength blanks)]
  | token {offset : Nat} {blanks rest : List Char} {token : Token} {tokens : List Token}
      (hblanks : ∀ c ∈ blanks, isBlank c = true) (hkind : token.kind ≠ .eof)
      (hne : token.lexeme.toList ≠ [])
      (hspan : token.span = ⟨offset + byteLength blanks, byteLength token.lexeme.toList⟩)
      (hrest : LaidOut token.span.stop rest tokens) :
      LaidOut offset (blanks ++ (token.lexeme.toList ++ rest)) (token :: tokens)

/-- The tokens are a text, cut into pieces with blanks between them and the end token behind. -/
structure Tiles (text : List Char) (tokens : List Token) : Prop where
  marks : ∀ token ∈ tokens, token.span.Marks text token.lexeme.toList
  increasing : tokens.Pairwise fun token other =>
    token.span.offset < other.span.offset ∧ token.span.stop ≤ other.span.offset
  eof_last : ∃ front, tokens = front ++ [.eof (byteLength text)] ∧
    ∀ token ∈ front, token.kind ≠ .eof ∧ 0 < token.span.length
  blank : ∀ before c after byte, text = before ++ c :: after → byteLength before ≤ byte →
    byte < byteLength before + c.utf8Size → (∀ token ∈ tokens, ¬ token.span.Covers byte) →
    isBlank c = true
  interleaved : ∃ gaps : List (List Char), gaps.length = tokens.length ∧
    (∀ gap ∈ gaps, ∀ c ∈ gap, isBlank c = true) ∧
    text = (gaps.zipWith (fun gap token => gap ++ token.lexeme.toList) tokens).flatten

theorem byteLength_pos {text : List Char} (h : text ≠ []) : 0 < byteLength text := by
  obtain ⟨c, rest, rfl⟩ := List.exists_cons_of_ne_nil h
  exact Nat.add_pos_left c.utf8Size_pos _

/-- What longest lexemes leave out is blank. -/
theorem laidOut_of_tokenizes {offset : Nat} {text : List Char}
    {result : Except LexicalError (List Token)} (h : Tokenizes offset text result) :
    ∀ tokens, result = .ok tokens → LaidOut offset text tokens := by
  induction h with
  | finished hblanks =>
      rintro tokens ⟨⟩
      exact .eof hblanks
  | @token offset blanks text lexeme rest c kind value result hblanks hc hlongest hrest ih =>
      intro tokens htokens
      cases result with
      | error error => cases htokens
      | ok others =>
          cases htokens
          rw [hlongest.eq_append]
          let token : Token := ⟨kind, .ofList lexeme, value.map .ofList,
            ⟨offset + byteLength blanks, byteLength lexeme⟩⟩
          -- The lexeme is kept as a string, whose characters are those of the list again.
          have htext : token.lexeme.toList = lexeme := String.toList_ofList
          have hne : token.lexeme.toList ≠ [] := htext ▸ hlongest.isLexeme.ne_nil
          have htoken :
              LaidOut offset (blanks ++ (token.lexeme.toList ++ rest)) (token :: others) :=
            .token hblanks hlongest.isLexeme.kind_ne_eof hne (by rw [htext]) (ih others rfl)
          rwa [htext] at htoken
  | unterminated hblanks hnone => exact nofun
  | unexpected hblanks hc hquote hnone => exact nofun

namespace LaidOut

variable {offset : Nat} {text : List Char} {tokens : List Token}

/-! ## Order -/

theorem le_offset (h : LaidOut offset text tokens) :
    ∀ token ∈ tokens, offset ≤ token.span.offset := by
  induction h with
  | eof hblanks => simp [Token.eof]
  | token hblanks hkind hne hspan hrest ih =>
      have hstart : _ ≤ _ := (Nat.le_add_right _ _).trans_eq (congrArg Span.offset hspan).symm
      refine List.forall_mem_cons.mpr ⟨hstart, fun other hother => ?_⟩
      exact (hstart.trans (Nat.le_add_right _ _)).trans (ih other hother)

theorem pairwise (h : LaidOut offset text tokens) : tokens.Pairwise fun token other =>
    token.span.offset < other.span.offset ∧ token.span.stop ≤ other.span.offset := by
  induction h with
  | eof hblanks => exact List.pairwise_singleton _ _
  | @token _ _ _ token _ hblanks hkind hne hspan hrest ih =>
      refine List.pairwise_cons.mpr ⟨fun other hother => ?_, ih⟩
      have hbehind := hrest.le_offset other hother
      have hlong : 0 < token.span.length := by
        rw [hspan]
        exact byteLength_pos hne
      exact ⟨Nat.lt_of_lt_of_le (Nat.lt_add_of_pos_right hlong) hbehind, hbehind⟩

theorem eof_last (h : LaidOut offset text tokens) :
    ∃ front, tokens = front ++ [.eof (offset + byteLength text)] ∧
      ∀ token ∈ front, token.kind ≠ .eof ∧ 0 < token.span.length := by
  induction h with
  | eof hblanks => exact ⟨[], rfl, List.forall_mem_nil _⟩
  | @token _ _ _ token _ hblanks hkind hne hspan hrest ih =>
      obtain ⟨front, rfl, hfront⟩ := ih
      refine ⟨token :: front, ?_, List.forall_mem_cons.mpr ⟨⟨hkind, ?_⟩, hfront⟩⟩
      · rw [List.cons_append, hspan]
        simp [Span.stop, Nat.add_assoc]
      · rw [hspan]
        exact byteLength_pos hne

/-! ## What lies between the tokens -/

/-- A character of two pieces together stands in the first of them or in the second. -/
theorem mem_first_or_second {first second before after : List Char} {c : Char}
    (h : first ++ second = before ++ c :: after) :
    (∃ inside, first = before ++ c :: inside) ∨
      ∃ behind, before = first ++ behind ∧ second = behind ++ c :: after := by
  rcases List.append_eq_append_iff.mp h with ⟨behind, hbefore, hsecond⟩ | ⟨inside, hfirst, hrest⟩
  · exact .inr ⟨behind, hbefore, hsecond⟩
  · cases inside with
    | nil => exact .inr ⟨[], by simpa using hfirst.symm, by simpa using hrest.symm⟩
    | cons d inside =>
        obtain ⟨rfl, -⟩ := List.cons.inj hrest
        exact .inl ⟨inside, hfirst⟩

/-- Every byte belongs to a token or to a blank character. -/
theorem covers_or_isBlank (h : LaidOut offset text tokens) {before after : List Char} {c : Char}
    {byte : Nat} (hsplit : text = before ++ c :: after) (hfirst : offset + byteLength before ≤ byte)
    (hlast : byte < offset + byteLength before + c.utf8Size) :
    (∃ token ∈ tokens, token.span.Covers byte) ∨ isBlank c = true := by
  induction h generalizing before with
  | eof hblanks =>
      refine .inr (hblanks c ?_)
      rw [hsplit]
      exact List.mem_append_right _ List.mem_cons_self
  | @token offset blanks rest token tokens hblanks hkind hne hspan hrest ih =>
      rw [hspan, Span.stop] at ih
      rcases mem_first_or_second hsplit with ⟨inside, rfl⟩ | ⟨behind, rfl, hbehind⟩
      · exact .inr (hblanks c (List.mem_append_right _ List.mem_cons_self))
      rw [byteLength_append] at hfirst hlast
      rcases mem_first_or_second hbehind with ⟨inside, hinside⟩ | ⟨further, rfl, hfurther⟩
      · refine .inl ⟨token, List.mem_cons_self, ?_⟩
        rw [Span.Covers, Span.stop, hspan, hinside, byteLength_append, byteLength_cons]
        dsimp only
        omega
      · rw [byteLength_append] at hfirst hlast
        refine (ih hfurther (by dsimp only; omega) (by dsimp only; omega)).imp_left ?_
        rintro ⟨other, hother, hcovers⟩
        exact ⟨other, List.mem_cons_of_mem _ hother, hcovers⟩

theorem interleaved (h : LaidOut offset text tokens) :
    ∃ gaps : List (List Char), gaps.length = tokens.length ∧
      (∀ gap ∈ gaps, ∀ c ∈ gap, isBlank c = true) ∧
      text = (gaps.zipWith (fun gap token => gap ++ token.lexeme.toList) tokens).flatten := by
  induction h with
  | @eof _ blanks hblanks =>
      exact ⟨[blanks], rfl, List.forall_mem_singleton.mpr hblanks, by simp [Token.eof]⟩
  | @token _ blanks _ _ _ hblanks hkind hne hspan hrest ih =>
      obtain ⟨gaps, hlength, hgaps, hrest⟩ := ih
      refine ⟨blanks :: gaps, by simp [hlength], List.forall_mem_cons.mpr ⟨hblanks, hgaps⟩, ?_⟩
      rw [List.zipWith_cons_cons, List.flatten_cons, List.append_assoc, ← hrest]

end LaidOut

/-- The tokens of a text are its pieces with blanks between them: their spans stand in order beside
one another, each lexeme is what its span marks, and the end token is the last of them and no other.
-/
theorem tiles_of_tokenize {source : String} {tokens : List Token}
    (h : tokenize source = .ok tokens) : Tiles source.toList tokens := by
  rw [tokenize_eq_outcome] at h
  have hlaidOut : LaidOut 0 source.toList tokens :=
    laidOut_of_tokenizes (tokenizes_tokens (Cursor.ofText source.toList)) tokens h
  refine ⟨?_, hlaidOut.pairwise, ?_, ?_, hlaidOut.interleaved⟩
  · rw [← fst_eq_of_outcome h]
    exact Cursor.marks_of_mem_tokens _ (Cursor.stands_ofText _)
  · simpa using hlaidOut.eof_last
  · intro before c after byte hsplit hfirst hlast hnone
    rw [← Nat.zero_add (byteLength before)] at hfirst hlast
    refine (hlaidOut.covers_or_isBlank hsplit hfirst hlast).resolve_left ?_
    rintro ⟨token, htoken, hcovers⟩
    exact hnone token htoken hcovers

set_option maxRecDepth 4096 in
/-- A text with letters of several bytes, a string with a blank in it and a wide blank. -/
theorem tiles_of_tokenize_wide :
    let tokens : List Token :=
      [⟨.identifier, "ß", some "ß", ⟨0, 2⟩⟩, ⟨.plus, "+", none, ⟨5, 1⟩⟩,
        ⟨.string, "\"a b\"", some "a b", ⟨6, 5⟩⟩, .eof 12]
    tokenize "ß\u3000+\"a b\" " = .ok tokens ∧ Tiles "ß\u3000+\"a b\" ".toList tokens := by
  intro tokens
  have htokens : tokenize "ß\u3000+\"a b\" " = .ok tokens := by cbv
  exact ⟨htokens, tiles_of_tokenize htokens⟩

end ExprLang
