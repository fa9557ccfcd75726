import ExprLang.Proofs.Grammar.Passing
import ExprLang.Proofs.Lexical.Tokenization

/-!
# The stream of a text

A stream holds the tokens of its text, and the end token stands nowhere but at the end of a text
without faults.
-/

namespace ExprLang

open Text

namespace TokenStream

/-- The end token is the last of a row of tokens, and it is there if the row was read to the end. -/
structure Ending.Closes (ending : Ending) (tokens : List Token) : Prop where
  last_eof : ending = .settled → ∃ last ∈ tokens.getLast?, last.kind = .eof
  eof_last : ∀ ⦃front token rest⦄, tokens = front ++ token :: rest → token.kind = .eof →
    rest = [] ∧ ending = .settled

namespace Ending.Closes

variable {ending : Ending} {token : Token} {tokens : List Token}

theorem single (hkind : token.kind = .eof) : Ending.settled.Closes [token] where
  last_eof := fun _ => ⟨token, rfl, hkind⟩
  eof_last := by
    intro front other rest hsplit _
    have hlength := congrArg List.length hsplit
    simp only [List.length_append, List.length_cons, List.length_nil] at hlength
    exact ⟨List.length_eq_zero_iff.mp (by omega), rfl⟩

theorem cons (hkind : token.kind ≠ .eof) (h : ending.Closes tokens) :
    ending.Closes (token :: tokens) where
  last_eof := by
    intro hsettled
    obtain ⟨last, hlast, heof⟩ := h.last_eof hsettled
    refine ⟨last, ?_, heof⟩
    rw [List.getLast?_cons, Option.mem_def.mp hlast]
    rfl
  eof_last := by
    intro front other rest hsplit heof
    cases front with
    | nil =>
        cases hsplit
        exact absurd heof hkind
    | cons first front => exact h.eof_last (List.cons.inj hsplit).2 heof

end Ending.Closes

theorem closes_tokens (cursor : Cursor) : cursor.tokens.2.Closes cursor.tokens.1 := by
  induction hlength : cursor.rest.length using Nat.strong_induction_on generalizing cursor with
  | _ length ih =>
    rcases hnext : cursor.nextToken with ⟨_ | token, next⟩
    next error =>
      rw [Cursor.tokens_of_error hnext]
      refine ⟨?_, ?_⟩
      · intro hsettled
        cases error <;> cases hsettled
      · intro front token rest hsplit
        cases front <;> cases hsplit
    next =>
      by_cases hkind : token.kind = .eof
      · rw [Cursor.tokens_of_eof hnext hkind]
        exact .single hkind
      · rw [Cursor.tokens_of_ok hnext hkind]
        exact .cons hkind (ih _ (hlength ▸ Cursor.nextToken_rest_length_lt hnext hkind) _ rfl)

variable {source : String} {stream : TokenStream}

theorem ofText_eq_ok_iff : TokenStream.ofText source = .ok stream ↔
    ∃ next, (Cursor.ofText source.toList).nextToken = (.ok stream.current, next) ∧
      next.tokens = (stream.ahead, stream.ending) := by
  unfold TokenStream.ofText Lexer.ofText
  constructor
  · intro h
    split at h
    next token next heq =>
      cases h
      exact ⟨next, heq, rfl⟩
    next => cases h
  · rintro ⟨next, heq, htokens⟩
    rw [heq]
    simp [Except.map, ofLexer, htokens]

theorem ended_of_ofText (h : TokenStream.ofText source = .ok stream) : stream.Ended := by
  obtain ⟨next, -, htokens⟩ := ofText_eq_ok_iff.mp h
  have hcloses := closes_tokens next
  rw [htokens] at hcloses
  intro hsettled last hlast
  obtain ⟨other, hother, heof⟩ := hcloses.last_eof hsettled
  rw [toList, List.getLast?_cons, Option.mem_def.mp hother] at hlast
  cases hlast
  exact heof

/-- A stream at a token that is not the end token holds all tokens of its text. -/
theorem tokens_of_ofText (h : TokenStream.ofText source = .ok stream)
    (hkind : stream.current.kind ≠ .eof) :
    (Cursor.ofText source.toList).tokens = (stream.toList, stream.ending) := by
  obtain ⟨next, hnext, htokens⟩ := ofText_eq_ok_iff.mp h
  rw [Cursor.tokens_of_ok hnext hkind, htokens]
  rfl

/-- A text that is cut into tokens has a stream at the first of them, which holds all of them unless
it is the end token. -/
theorem exists_ofText_of_tokenize {tokens : List Token} (h : tokenize source = .ok tokens) :
    ∃ stream, TokenStream.ofText source = .ok stream ∧ tokens.head? = some stream.current ∧
      (stream.current.kind ≠ .eof → stream.toList = tokens ∧ stream.ending = .settled) := by
  rw [tokenize_eq_outcome] at h
  rcases hnext : (Cursor.ofText source.toList).nextToken with ⟨_ | first, next⟩
  next error =>
    rw [Cursor.tokens_of_error hnext, outcome_ofError] at h
    cases h
  next =>
    refine ⟨⟨first, next.tokens.1, next.tokens.2⟩, ofText_eq_ok_iff.mpr ⟨next, hnext, rfl⟩, ?_⟩
    by_cases hfirst : first.kind = .eof
    · rw [Cursor.tokens_of_eof hnext hfirst] at h
      cases h
      exact ⟨rfl, fun hkind => absurd hfirst hkind⟩
    · rw [Cursor.tokens_of_ok hnext hfirst] at h
      rcases htokens : next.tokens with ⟨ahead, ending⟩
      rw [htokens] at h
      cases ending <;> cases h
      exact ⟨rfl, fun _ => ⟨rfl, rfl⟩⟩

/-- A text that is cut into tokens has the stream of these tokens. -/
theorem ofText_of_tokenize {token : Token} {tokens : List Token}
    (h : tokenize source = .ok (token :: tokens)) (hkind : token.kind ≠ .eof) :
    TokenStream.ofText source = .ok ⟨token, tokens, .settled⟩ := by
  obtain ⟨⟨first, ahead, ending⟩, hstream, hhead, hall⟩ := exists_ofText_of_tokenize h
  obtain rfl := Option.some.inj hhead
  obtain ⟨hrow, rfl⟩ := hall hkind
  obtain ⟨-, rfl⟩ := List.cons.inj hrow
  exact hstream

end TokenStream

end ExprLang
