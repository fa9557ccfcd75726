import Mathlib
import ExprLang.Grammar.Parser
import ExprLang.Proofs.Grammar.Soundness
import ExprLang.Proofs.Lexical.Stream

/-!
# What a parsed text spells

A text that is parsed is spelled by all of its tokens, and its expression has the shape of the
grammar and leaves room within the nesting limit.
-/

namespace ExprLang

open Text Grammar

variable {source : String} {expr : Expr}

/-- Parsing a text is one reading of its stream. -/
theorem parse_eq_run {stream : TokenStream} (hstream : TokenStream.ofText source = .ok stream) :
    parse source =
      match wholeExpression.run stream with
      | .ok expr _ => .ok expr
      | .error error _ => .error error := by
  unfold parse Parser.ofText
  rw [hstream]
  change (Parser.step wholeExpression ⟨source, stream⟩).1 = _
  unfold Parser.step
  dsimp only
  cases wholeExpression.run stream <;> rfl

/-- A text without tokens is no expression. -/
theorem run_wholeExpression_of_eof {stream : TokenStream} (h : stream.current.kind = .eof) :
    wholeExpression.run stream =
      .error (.grammatical (.unexpectedToken .eof stream.current.span)) stream := by
  obtain ⟨⟨kind, lexeme, value, span⟩, ahead, ending⟩ := stream
  obtain rfl : kind = .eof := h
  rfl

theorem parse_eq_ok_iff : parse source = .ok expr ↔
    ∃ stream next, TokenStream.ofText source = .ok stream ∧
      expression.run stream = .ok expr next ∧ next.current.kind = .eof := by
  cases hstream : TokenStream.ofText source with
  | error error =>
      unfold parse Parser.ofText
      rw [hstream]
      simp [bind, Except.bind]
  | ok stream =>
      have hwhole (next : TokenStream) : wholeExpression.run stream = .ok expr next ↔
          expression.run stream = .ok expr next ∧ next.current.kind = .eof := by
        rw [wholeExpression, bind_eq_ok_iff]
        constructor
        · rintro ⟨value, middle, hrun, h⟩
          rw [run_current_bind] at h
          split at h
          next hkind =>
            cases h
            exact ⟨hrun, hkind⟩
          next => cases h
        · rintro ⟨hrun, hkind⟩
          refine ⟨expr, next, hrun, ?_⟩
          rw [run_current_bind, if_pos hkind]
          rfl
      simp only [Except.ok.injEq, exists_and_left, exists_eq_left', ← hwhole]
      rw [parse_eq_run hstream]
      constructor
      · intro h
        split at h
        next heq =>
          cases h
          exact ⟨_, heq⟩
        next => cases h
      · rintro ⟨next, heq⟩
        rw [heq]

/-- An error in the expression is the answer for the text. -/
theorem parse_eq_error {stream next : TokenStream} {error : SyntaxError}
    (hstream : TokenStream.ofText source = .ok stream)
    (hrun : expression.run stream = .error error next) : parse source = .error error := by
  have hwhole : wholeExpression.run stream = .error error next := by
    rw [wholeExpression, EStateM.run_bind, hrun]
  rw [parse_eq_run hstream, hwhole]

namespace Expr.Spelled

variable {tokens : List Token}

theorem ne_nil (h : expr.Spelled tokens) : tokens ≠ [] := by
  cases h <;> simp

/-- The end token is no part of an expression. -/
theorem kind_ne_eof (h : expr.Spelled tokens) : ∀ token ∈ tokens, token.kind ≠ .eof := by
  induction h with
  | constant hkind => simpa using ne_eof_of_eq_some rfl hkind
  | var hname => simp [hname]
  | declaration hword hname => simpa [hname] using ne_eof_of_eq_some rfl hword
  | group hopening _ hclosing ih => simpa [hopening, hclosing, or_imp, forall_and] using ih
  | before hsign _ ih => simpa using ⟨ne_eof_of_eq_some rfl hsign, ih⟩
  | after _ hsign ih =>
      simpa [or_imp, forall_and] using ⟨ih, ne_eof_of_eq_some rfl hsign⟩
  | binary _ hsign _ ihleft ihright =>
      simpa [or_imp, forall_and] using ⟨ihleft, ne_eof_of_eq_some rfl hsign, ihright⟩
  | ternary _ hquestion _ hcolon _ ihcondition ihtrue ihfalse =>
      simpa [hquestion, hcolon, or_imp, forall_and] using ⟨ihcondition, ihtrue, ihfalse⟩
  | assignment _ hsign _ ihtarget ihvalue =>
      simpa [or_imp, forall_and] using ⟨ihtarget, ne_eof_of_eq_some rfl hsign, ihvalue⟩
  | @call _ _ _ arguments hname hopening _ hcommas hclosing ih =>
      have hrow : ∀ token ∈ arguments.flatMap Argument.row, token.kind ≠ .eof := by
        intro token htoken
        obtain ⟨argument, hargument, hmem⟩ := List.mem_flatMap.mp htoken
        rcases List.mem_append.mp hmem with hmem | hmem
        · exact ih argument hargument token hmem
        · rw [hcommas argument hargument token (Option.mem_toList.mp hmem)]
          decide
      simpa [hname, hopening, hclosing, or_imp, forall_and] using hrow
  | member _ hdot _ ihtarget ihpart =>
      simpa [hdot, or_imp, forall_and] using ⟨ihtarget, ihpart⟩
  | index _ hopening _ hclosing ihtarget ihposition =>
      simpa [hopening, hclosing, or_imp, forall_and] using ⟨ihtarget, ihposition⟩

end Expr.Spelled

/-- All tokens of a parsed text but the end token spell its expression. -/
theorem spelled_of_parse (h : parse source = .ok expr) :
    expr.Grammatical ∧ expr.assignmentRoom ≤ nestingLimit ∧
      ∃ tokens eof, tokenize source = .ok (tokens ++ [eof]) ∧ eof.kind = .eof ∧
        expr.Spelled tokens := by
  obtain ⟨stream, next, hstream, hrun, hnext⟩ := parse_eq_ok_iff.mp h
  obtain ⟨tokens, hpasses, hspelled, hgrammatical, hroom⟩ :=
    (sound nestingLimit).assignment (TokenStream.ended_of_ofText hstream) hrun
  have hkind : stream.current.kind ≠ .eof := by
    obtain ⟨first, rest, rfl⟩ := List.exists_cons_of_ne_nil hspelled.ne_nil
    rw [hpasses.current_eq]
    exact hspelled.kind_ne_eof first (by simp)
  have htokens := TokenStream.tokens_of_ofText hstream hkind
  have hcloses := TokenStream.closes_tokens (Cursor.ofText source.toList)
  rw [htokens, hpasses.toList_eq] at hcloses
  -- The end token follows the expression, so nothing follows the end token.
  obtain ⟨hahead, hsettled⟩ := hcloses.eof_last rfl hnext
  refine ⟨hgrammatical, hroom, tokens, next.current, ?_, hnext, hspelled⟩
  rw [tokenize_eq_outcome, htokens, hpasses.toList_eq, TokenStream.toList, hahead]
  simp only at hsettled
  rw [hsettled]
  rfl

/-- A parsed text has an expression of the grammar's shape, which its tokens spell and nothing else.
-/
theorem grammatical_and_spelled_of_parse (h : parse source = .ok expr) :
    expr.Grammatical ∧ ∃ tokens eof, tokenize source = .ok (tokens ++ [eof]) ∧ eof.kind = .eof ∧
      expr.Spelled tokens :=
  ⟨(spelled_of_parse h).1, (spelled_of_parse h).2.2⟩

theorem grammatical_and_spelled_of_parse_power :
    parse "(-1)^2" =
        .ok (.binary .exponent (.group (.unary .negate (.constant .int "1")))
          (.constant .int "2")) ∧
      (Expr.binary .exponent (.group (.unary .negate (.constant .int "1")))
        (.constant .int "2")).Grammatical ∧
      ∃ tokens eof, tokenize "(-1)^2" = .ok (tokens ++ [eof]) ∧ eof.kind = .eof ∧
        (Expr.binary .exponent (.group (.unary .negate (.constant .int "1")))
          (.constant .int "2")).Spelled tokens := by
  have hparse : parse "(-1)^2" =
      .ok (.binary .exponent (.group (.unary .negate (.constant .int "1")))
        (.constant .int "2")) := by cbv
  exact ⟨hparse, grammatical_and_spelled_of_parse hparse⟩

end ExprLang
