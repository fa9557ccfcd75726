import ExprLang.Proofs.Lexical.Stream

/-!
# Where tokens stand

The span of a token tells the place of its spelling in the text, so it lies in the text and cuts no
character. Tokens that are read before an error end before the place of the error.
-/

namespace ExprLang

open Text

/-- The span is the place of a piece in a text. -/
def Text.Span.Marks (span : Span) (text piece : List Char) : Prop :=
  ∃ before after, text = before ++ piece ++ after ∧
    span = ⟨byteLength before, byteLength piece⟩

theorem outcome_cons_eq_error_iff (token : Token) {tokens : List Token}
    {ending : TokenStream.Ending} {error : LexicalError} :
    TokenStream.Ending.outcome (token :: tokens, ending) = .error error ↔
      TokenStream.Ending.outcome (tokens, ending) = .error error := by
  cases ending <;> simp [TokenStream.Ending.outcome]

namespace Text.Cursor

variable {cursor next : Cursor} {token : Token} {error : LexicalError}

/-- The cursor stands where its position says. -/
def Stands (cursor : Cursor) : Prop :=
  ∃ before, cursor.source = before ++ cursor.rest ∧ cursor.position = byteLength before

theorem stands_ofText (text : List Char) : (ofText text).Stands :=
  ⟨[], rfl, rfl⟩

/-! ## One token -/

/-- The token is what stands behind the blanks, and the cursor moves behind it. -/
structure Takes (cursor : Cursor) (token : Token) (next : Cursor) : Prop where
  source_eq : next.source = cursor.source
  position_eq : next.position = token.span.stop
  rest_eq : ∃ blanks, cursor.rest = blanks ++ token.lexeme.toList ++ next.rest ∧
    token.span = ⟨cursor.position + byteLength blanks, byteLength token.lexeme.toList⟩
  ne_nil : token.kind ≠ .eof → token.lexeme.toList ≠ []

/-- What the next token is, or what stands in its place. -/
theorem nextToken_cases (cursor : Cursor) :
    (∃ token next, cursor.nextToken = (.ok token, next) ∧ cursor.Takes token next ∧
        (token.kind = .eof → next.nextToken = (.ok token, next))) ∨
      ∃ error next, cursor.nextToken = (.error error, next) ∧ cursor.position ≤ error.offset := by
  obtain ⟨blanks, rest, hsplit, hblanks, hhead⟩ := exists_blanks cursor.rest
  cases rest with
  | nil =>
      rw [List.append_nil] at hsplit
      rw [← hsplit] at hblanks
      refine .inl ⟨_, _, nextToken_of_forall_isBlank hblanks,
        ⟨rfl, rfl, ⟨cursor.rest, ?_, rfl⟩, fun hkind => absurd rfl hkind⟩, ?_⟩
      · simp [Token.eof, skip]
      · intro _
        exact nextToken_of_forall_isBlank (List.forall_mem_nil _)
  | cons c text =>
      have hc : isBlank c = false := hhead c rfl
      have hnext := nextToken_of_rest hblanks hc hsplit
      have hread := Token.Lexeme.describes_read c text
      cases hanswer : Token.Lexeme.read c text with
      | token kind lexeme value rest =>
          rw [hanswer] at hnext hread
          refine .inl ⟨_, _, hnext, ⟨rfl, ?_, ⟨blanks, ?_, ?_⟩, ?_⟩, ?_⟩
          · simp [skip, Span.stop, Nat.add_assoc]
          · simp [skip, hsplit, hread.eq_append]
          · simp
          · intro _
            simpa using hread.isLexeme.ne_nil
          · intro hkind
            exact absurd hkind hread.isLexeme.kind_ne_eof
      | unexpected d =>
          rw [hanswer] at hnext
          exact .inr ⟨_, _, hnext, Nat.le_add_right _ _⟩
      | unterminated =>
          rw [hanswer] at hnext
          exact .inr ⟨_, _, hnext, Nat.le_add_right _ _⟩

theorem takes_of_nextToken (h : cursor.nextToken = (.ok token, next)) :
    cursor.Takes token next := by
  rcases cursor.nextToken_cases with ⟨other, last, heq, htakes, -⟩ | ⟨error, last, heq, -⟩
  · cases heq.symm.trans h
    exact htakes
  · cases heq.symm.trans h

/-- The end token is read again and again. -/
theorem nextToken_of_eof (h : cursor.nextToken = (.ok token, next)) (hkind : token.kind = .eof) :
    next.nextToken = (.ok token, next) := by
  rcases cursor.nextToken_cases with ⟨other, last, heq, -, heof⟩ | ⟨error, last, heq, -⟩
  · cases heq.symm.trans h
    exact heof hkind
  · cases heq.symm.trans h

theorem position_le_of_nextToken (h : cursor.nextToken = (.error error, next)) :
    cursor.position ≤ error.offset := by
  rcases cursor.nextToken_cases with ⟨other, last, heq, -, -⟩ | ⟨other, last, heq, hle⟩
  · cases heq.symm.trans h
  · cases heq.symm.trans h
    exact hle

namespace Takes

theorem position_le (h : cursor.Takes token next) : cursor.position ≤ next.position := by
  obtain ⟨blanks, -, hspan⟩ := h.rest_eq
  rw [h.position_eq, hspan, Span.stop]
  dsimp only
  omega

theorem position_le_offset (h : cursor.Takes token next) :
    cursor.position ≤ token.span.offset := by
  obtain ⟨blanks, -, hspan⟩ := h.rest_eq
  rw [hspan]
  exact Nat.le_add_right _ _

theorem offset_lt (h : cursor.Takes token next) (hkind : token.kind ≠ .eof) :
    token.span.offset < next.position := by
  obtain ⟨blanks, -, hspan⟩ := h.rest_eq
  obtain ⟨c, tail, hlexeme⟩ := List.exists_cons_of_ne_nil (h.ne_nil hkind)
  have hpos := c.utf8Size_pos
  rw [h.position_eq, Span.stop, hspan, hlexeme, byteLength_cons]
  dsimp only
  omega

theorem marks (h : cursor.Takes token next) (hstands : cursor.Stands) :
    token.span.Marks cursor.source token.lexeme.toList := by
  obtain ⟨before, hsource, hposition⟩ := hstands
  obtain ⟨blanks, hrest, hspan⟩ := h.rest_eq
  refine ⟨before ++ blanks, next.rest, ?_, ?_⟩
  · rw [hsource, hrest]
    simp
  · rw [hspan, hposition, byteLength_append]

theorem stands (h : cursor.Takes token next) (hstands : cursor.Stands) : next.Stands := by
  obtain ⟨before, hsource, hposition⟩ := hstands
  obtain ⟨blanks, hrest, hspan⟩ := h.rest_eq
  refine ⟨before ++ (blanks ++ token.lexeme.toList), ?_, ?_⟩
  · rw [h.source_eq, hsource, hrest]
    simp
  · rw [h.position_eq, hspan, hposition, Span.stop]
    simp [Nat.add_assoc]

end Takes

/-! ## All tokens -/

/-- Each token of a text stands where its span says. -/
theorem marks_of_mem_tokens (cursor : Cursor) (hstands : cursor.Stands) :
    ∀ token ∈ cursor.tokens.1, token.span.Marks cursor.source token.lexeme.toList := by
  induction cursor using Cursor.tokens.induct with
  | case1 cursor error next h => simp [tokens_of_error h]
  | case2 cursor token next h hkind =>
      rw [tokens_of_eof h hkind]
      simpa using (takes_of_nextToken h).marks hstands
  | case3 cursor token next h hkind hlt tokens ending htokens ih =>
      have htakes := takes_of_nextToken h
      rw [tokens_of_ok h hkind]
      refine List.forall_mem_cons.mpr ⟨htakes.marks hstands, ?_⟩
      rw [← htakes.source_eq]
      exact ih (htakes.stands hstands)

/-- The tokens of a text stand one after another. -/
theorem pairwise_tokens (cursor : Cursor) :
    (∀ token ∈ cursor.tokens.1, cursor.position ≤ token.span.offset) ∧
      cursor.tokens.1.Pairwise fun token other => token.span.offset < other.span.offset := by
  induction cursor using Cursor.tokens.induct with
  | case1 cursor error next h =>
      rw [tokens_of_error h]
      exact ⟨List.forall_mem_nil _, .nil⟩
  | case2 cursor token next h hkind =>
      rw [tokens_of_eof h hkind]
      exact ⟨List.forall_mem_singleton.mpr (takes_of_nextToken h).position_le_offset,
        List.pairwise_singleton _ _⟩
  | case3 cursor token next h hkind hlt tokens ending htokens ih =>
      have htakes := takes_of_nextToken h
      rw [tokens_of_ok h hkind]
      refine ⟨List.forall_mem_cons.mpr ⟨htakes.position_le_offset, fun other hother => ?_⟩,
        List.pairwise_cons.mpr ⟨fun other hother => ?_, ih.2⟩⟩
      · exact htakes.position_le.trans (ih.1 other hother)
      · exact (htakes.offset_lt hkind).trans_le (ih.1 other hother)

/-- The tokens that are read before an error end before it. -/
theorem stop_le_of_mem_tokens (cursor : Cursor)
    (h : TokenStream.Ending.outcome cursor.tokens = .error error) :
    cursor.position ≤ error.offset ∧
      ∀ token ∈ cursor.tokens.1, token.span.stop ≤ error.offset := by
  induction cursor using Cursor.tokens.induct with
  | case1 cursor other next hnext =>
      rw [tokens_of_error hnext, outcome_ofError] at h
      cases h
      rw [tokens_of_error hnext]
      exact ⟨position_le_of_nextToken hnext, List.forall_mem_nil _⟩
  | case2 cursor token next hnext hkind =>
      rw [tokens_of_eof hnext hkind] at h
      cases h
  | case3 cursor token next hnext hkind hlt tokens ending htokens ih =>
      have htakes := takes_of_nextToken hnext
      rw [tokens_of_ok hnext hkind] at h ⊢
      obtain ⟨hposition, hothers⟩ := ih ((outcome_cons_eq_error_iff token).mp h)
      refine ⟨htakes.position_le.trans hposition, List.forall_mem_cons.mpr ⟨?_, hothers⟩⟩
      exact htakes.position_eq ▸ hposition

end Text.Cursor

/-! ## The stream of a text -/

/-- A stream holds no other tokens than its text, and meets the same error behind them. -/
theorem TokenStream.of_ofText {source : String} {stream : TokenStream}
    (h : TokenStream.ofText source = .ok stream) :
    stream.toList ⊆ (Cursor.ofText source.toList).tokens.1 ∧
      stream.ending = (Cursor.ofText source.toList).tokens.2 := by
  by_cases hkind : stream.current.kind = .eof
  · obtain ⟨next, hnext, htokens⟩ := ofText_eq_ok_iff.mp h
    rw [Cursor.tokens_of_eof (Cursor.nextToken_of_eof hnext hkind) hkind] at htokens
    obtain ⟨hahead, hending⟩ := Prod.mk.inj htokens
    rw [Cursor.tokens_of_eof hnext hkind, toList, ← hahead, ← hending]
    simp
  · rw [tokens_of_ofText h hkind]
    exact ⟨List.Subset.refl _, rfl⟩

end ExprLang
