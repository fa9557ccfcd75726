import Mathlib
import ExprLang.Proofs.Grammar.Following
import ExprLang.Proofs.Lexical.Location

/-!
# Calls of one parser

A parser is asked for one expression after another and goes on from where it stopped, also after an
error. With a counter it answers what it answers without one, the counter is back at zero after each
call, and each call that succeeds takes tokens of the text that no other call takes.
-/

namespace ExprLang

open Text

/-- Reads some expressions one after another, whether or not there is one. -/
def Parser.nextAll (parser : Parser) : Nat → List (Except SyntaxError Expr) × Parser
  | 0 => ([], parser)
  | count + 1 =>
    let (answers, middle) := parser.nextAll count
    let (answer, last) := middle.next
    (answers ++ [answer], last)

namespace Grammar.Counted

/-- A parser with a counter gives some answers one after another, whether or not there is an
expression, and comes to stand at a place. -/
inductive Calls (start : Standing) : List (Except SyntaxError Expr) → Standing → Prop where
  | none : Calls start [] start
  | next {answers : List (Except SyntaxError Expr)} {answer : Except SyntaxError Expr}
      {middle last : Standing} (hcalls : Calls start answers middle)
      (hcall : Ends assignment middle answer last) : Calls start (answers ++ [answer]) last

variable {start standing next : Standing} {answer : Except SyntaxError Expr}
  {answers : List (Except SyntaxError Expr)}

/-- The counter is set back whether or not the call succeeds. -/
theorem depth_eq_of_assignment (h : Ends assignment standing answer next) :
    next.depth = standing.depth := by
  obtain ⟨enough, h⟩ := h
  have hcall := h (enough + 1) (Nat.le_succ enough)
  rw [assignment, nested_apply] at hcall
  split at hcall
  · cases hcall
    rfl
  · obtain ⟨⟨_, last⟩, -, hlast⟩ := Option.map_eq_some_iff.mp hcall
    cases hlast
    rfl

/-- What a call does where the counter is at zero: it comes to an end and does what the parser does.
-/
theorem exists_call (hat : standing.At 0) (source : String) :
    ∃ answer next, Ends assignment standing answer next ∧
      (Parser.mk source standing.stream).next = (answer, ⟨source, next.stream⟩) ∧ next.At 0 ∧
      next.stream.content <:+ standing.stream.content ∧
      ∀ expr, answer = .ok expr → next.stream.remaining < standing.stream.remaining := by
  have hfollows : Follows standing assignment expression 1 0 :=
    (followed (Nat.zero_add nestingLimit)).assignment hat
  cases hfollows with
  | ok hcounted hreading hnext hsuffix hgain =>
      refine ⟨_, _, hcounted, ?_, hnext, hsuffix, fun _ _ => hgain⟩
      rw [Parser.next, Parser.step, hreading]
  | error hcounted hreading hnext hsuffix =>
      refine ⟨_, _, hcounted, ?_, ⟨hnext, ?_⟩, hsuffix, nofun⟩
      · rw [Parser.next, Parser.step, hreading]
      · rw [depth_eq_of_assignment hcounted, hat.depth_eq]

/-- Any number of calls do what the parser does. Each that succeeds has taken a token. -/
theorem of_calls (hat : start.At 0) (source : String) (h : Calls start answers standing) :
    (Parser.mk source start.stream).nextAll answers.length = (answers, ⟨source, standing.stream⟩) ∧
      standing.At 0 ∧ standing.stream.content <:+ start.stream.content ∧
      answers.countP (·.isOk) + standing.stream.remaining ≤ start.stream.remaining := by
  induction h with
  | none => exact ⟨rfl, hat, List.suffix_rfl, by simp⟩
  | @next answers answer middle last _ hcall ih =>
      obtain ⟨hnextAll, hmiddle, hsuffix, hcount⟩ := ih
      obtain ⟨same, next, hends, hnext, hlast, htaken, hless⟩ := exists_call hmiddle source
      obtain ⟨rfl, rfl⟩ := hends.unique hcall
      refine ⟨?_, hlast, htaken.trans hsuffix, ?_⟩
      · rw [List.length_append, List.length_singleton, Parser.nextAll, hnextAll]
        dsimp only
        rw [hnext]
      · have hle : next.stream.remaining ≤ middle.stream.remaining := htaken.length_le
        rw [List.countP_append, List.countP_singleton]
        cases same with
        | ok expr =>
            have := hless expr rfl
            rw [if_pos (by rfl)]
            omega
        | error error =>
            rw [if_neg (by exact Bool.false_ne_true)]
            omega

/-! ## The calls of a text -/

variable {source : String} {stream : TokenStream}

/-- The stream of a text holds the tokens of the text. -/
theorem content_of_ofText (h : TokenStream.ofText source = .ok stream) :
    stream.content = (Cursor.ofText source.toList).tokens.1.filter (·.kind ≠ .eof) := by
  by_cases hkind : stream.current.kind = .eof
  · obtain ⟨next, hnext, htokens⟩ := TokenStream.ofText_eq_ok_iff.mp h
    rw [Cursor.tokens_of_eof (Cursor.nextToken_of_eof hnext hkind) hkind] at htokens
    rw [Cursor.tokens_of_eof hnext hkind, TokenStream.content, ← (Prod.mk.inj htokens).1]
    simp [hkind]
  · rw [TokenStream.tokens_of_ofText h hkind]
    rfl

/-- What stands behind a string that is not closed is the end token. -/
theorem kind_eq_of_unclosed {cursor : Cursor} {error : LexicalError} {eof : Token}
    (h : cursor.tokens.2 = .unclosed error eof) : eof.kind = .eof := by
  induction hlength : cursor.rest.length using Nat.strong_induction_on generalizing cursor with
  | _ length ih =>
    rcases hnext : cursor.nextToken with ⟨_ | token, next⟩
    next error =>
      rw [Cursor.tokens_of_error hnext] at h
      cases error <;> cases h
      rfl
    next =>
      by_cases hkind : token.kind = .eof
      · rw [Cursor.tokens_of_eof hnext hkind] at h
        cases h
      · rw [Cursor.tokens_of_ok hnext hkind] at h
        exact ih _ (hlength ▸ Cursor.nextToken_rest_length_lt hnext hkind) h rfl

theorem start_at (h : TokenStream.ofText source = .ok stream) : (Standing.start stream).At 0 where
  ended := TokenStream.ended_of_ofText h
  closed _ _ hending := kind_eq_of_unclosed ((TokenStream.of_ofText h).2 ▸ hending)
  depths_le := List.forall_mem_singleton.mpr (Nat.zero_le _)
  rounds_lt := List.forall_mem_nil _
  depth_eq := rfl

/-- How a parser with a counter stands between two calls, after calls with some answers. -/
structure Standing.Rests (source : String) (answers : List (Except SyntaxError Expr))
    (standing : Standing) : Prop where
  depth_eq : standing.depth = 0
  /-- The counter has never passed the limit. -/
  depths_le : ∀ depth ∈ standing.depths, depth ≤ nestingLimit
  /-- Every round of a loop has taken a token. -/
  rounds_lt : ∀ round ∈ standing.rounds, round.2 < round.1
  /-- What is left are the last tokens of the text. -/
  content_suffix :
    standing.stream.content <:+ (Cursor.ofText source.toList).tokens.1.filter (·.kind ≠ .eof)
  successes_le :
    answers.countP (·.isOk) ≤ (Cursor.ofText source.toList).tokens.1.countP (·.kind ≠ .eof)
  /-- The next call comes to an end, and takes tokens if it succeeds. -/
  call : ∃ answer next, Ends assignment standing answer next ∧
    ∀ expr, answer = .ok expr →
      ∃ tokens, tokens ≠ [] ∧ standing.stream.content = tokens ++ next.stream.content

/-- A parser can be called again and again, whether or not the calls succeed. With a counter it does
what it does without one. -/
theorem rests_of_calls {parser : Parser} (h : Parser.ofText source = .ok parser)
    (hcalls : Calls (.start parser.stream) answers standing) :
    parser.nextAll answers.length = (answers, ⟨source, standing.stream⟩) ∧
      standing.Rests source answers := by
  rw [Parser.ofText] at h
  split at h <;> cases h
  next stream hstream =>
    obtain ⟨hnextAll, hat, hsuffix, hcount⟩ := of_calls (start_at hstream) source hcalls
    change standing.stream.content <:+ stream.content at hsuffix
    change answers.countP _ + _ ≤ stream.content.length at hcount
    rw [content_of_ofText hstream] at hsuffix hcount
    refine ⟨hnextAll, hat.depth_eq, hat.depths_le, hat.rounds_lt, hsuffix, ?_, ?_⟩
    · rw [← List.countP_eq_length_filter] at hcount
      omega
    · obtain ⟨answer, next, hcall, -, -, htaken, hless⟩ := exists_call hat source
      refine ⟨answer, next, hcall, fun expr hok => ?_⟩
      obtain ⟨tokens, htokens⟩ := htaken
      refine ⟨tokens, ?_, htokens.symm⟩
      rintro rfl
      exact absurd (congrArg List.length htokens) (Nat.ne_of_lt (hless expr hok))

set_option maxRecDepth 4096 in
/-- The first call fails in a suffix within a chain, and the second begins where it stopped. -/
theorem rests_of_calls_resumed :
    let failed : Except SyntaxError Expr :=
      .error (.grammatical (.expectedToken .identifier .bang ⟨8, 1⟩))
    let resumed : Except SyntaxError Expr := .ok (.unary .not (.var "c"))
    ∃ parser standing, Parser.ofText "a + b . ! c" = .ok parser ∧
      Calls (.start parser.stream) [failed, resumed] standing ∧
      standing.Rests "a + b . ! c" [failed, resumed] := by
  intro failed resumed
  have hparser : Parser.ofText "a + b . ! c" = .ok ⟨"a + b . ! c",
      ⟨⟨.identifier, "a", some "a", ⟨0, 1⟩⟩,
        [⟨.plus, "+", none, ⟨2, 1⟩⟩, ⟨.identifier, "b", some "b", ⟨4, 1⟩⟩,
          ⟨.dot, ".", none, ⟨6, 1⟩⟩, ⟨.bang, "!", none, ⟨8, 1⟩⟩,
          ⟨.identifier, "c", some "c", ⟨10, 1⟩⟩, .eof 11], .settled⟩⟩ := by cbv
  obtain ⟨first, middle, hfirst, -⟩ := (rests_of_calls hparser .none).2.call
  obtain ⟨second, last, hsecond, -⟩ := (rests_of_calls hparser (.next .none hfirst)).2.call
  have hcalls := Calls.next (.next .none hfirst) hsecond
  obtain ⟨hnextAll, hrests⟩ := rests_of_calls hparser hcalls
  have hanswers : [first, second] = [failed, resumed] := by
    refine (congrArg Prod.fst hnextAll).symm.trans ?_
    cbv
  refine ⟨_, last, hparser, ?_⟩
  rw [← hanswers]
  exact ⟨hcalls, hrests⟩

end Grammar.Counted

end ExprLang
