import Mathlib
import ExprLang.Proofs.Lexical.Boundaries

/-!
# Advancing a lexer for ever

A lexer can be advanced as often as one likes, whether or not there is a token. It shows the tokens
of its text first, of which there are no more than characters. Then it shows the end token for ever,
or meets the same character for ever, or meets a string that is not closed once and shows the end
token from then on.
-/

namespace ExprLang

open Text

/-- How answers go on for ever after some tokens, and what the text is cut into then. -/
inductive Tail (stop : Nat) (answers : Nat → Except LexicalError Token) (tokens : List Token) :
    Except LexicalError (List Token) → Prop
  | settled (h : ∀ count, tokens.length ≤ count → answers count = .ok (.eof stop)) :
      Tail stop answers tokens (.ok (tokens ++ [.eof stop]))
  | stuck {c : Char} {offset : Nat} (h : ∀ count, tokens.length ≤ count →
      answers count = .error (.unexpectedCharacter c offset)) :
      Tail stop answers tokens (.error (.unexpectedCharacter c offset))
  | unclosed {span : Span} (hfirst : answers tokens.length = .error (.unterminatedString span))
      (hrest : ∀ count, tokens.length < count → answers count = .ok (.eof stop)) :
      Tail stop answers tokens (.error (.unterminatedString span))

/-- Answers that are a number of tokens up to a bound, none of them the end token, and a tail. -/
structure Settles (bound stop : Nat) (answers : Nat → Except LexicalError Token)
    (tokens : List Token) (result : Except LexicalError (List Token)) : Prop where
  length_le : tokens.length ≤ bound
  kind_ne_eof : ∀ token ∈ tokens, token.kind ≠ .eof
  answers_eq : ∀ count (h : count < tokens.length), answers count = .ok tokens[count]
  tail : Tail stop answers tokens result

section Answers

variable {bound more stop : Nat} {answers : Nat → Except LexicalError Token} {token : Token}
  {tokens : List Token} {result : Except LexicalError (List Token)}

theorem forall_of_succ {p : Nat → Prop} {least : Nat}
    (h : ∀ count, least ≤ count → p (count + 1)) : ∀ count, least + 1 ≤ count → p count := by
  intro count hcount
  cases count with
  | zero => cases hcount
  | succ count => exact h count (Nat.le_of_succ_le_succ hcount)

theorem Tail.cons (h : Tail stop (fun count => answers (count + 1)) tokens result) :
    Tail stop answers (token :: tokens) (result.map fun tokens => token :: tokens) := by
  cases h with
  | settled h => exact .settled (forall_of_succ h)
  | stuck h => exact .stuck (forall_of_succ h)
  | unclosed hfirst hrest => exact .unclosed hfirst (forall_of_succ hrest)

namespace Settles

theorem nil (h : Tail stop answers [] result) : Settles bound stop answers [] result where
  length_le := Nat.zero_le bound
  kind_ne_eof := List.forall_mem_nil _
  answers_eq count hcount := absurd hcount (Nat.not_lt_zero count)
  tail := h

/-- One token before the others takes at least one of the characters. -/
theorem cons (hfirst : answers 0 = .ok token) (hkind : token.kind ≠ .eof) (hless : bound < more)
    (h : Settles bound stop (fun count => answers (count + 1)) tokens result) :
    Settles more stop answers (token :: tokens)
      (result.map fun tokens => token :: tokens) where
  length_le := h.length_le.trans_lt hless
  kind_ne_eof := List.forall_mem_cons.mpr ⟨hkind, h.kind_ne_eof⟩
  answers_eq count hcount := by
    cases count with
    | zero => exact hfirst
    | succ count => exact h.answers_eq count (Nat.lt_of_succ_lt_succ hcount)
  tail := h.tail.cons

end Settles

end Answers

/-! ## Reading on -/

namespace Text.Cursor

variable {cursor next : Cursor} {token : Token} {result : Except LexicalError Token}

/-- The cursor after reading on, whether or not there is a token. -/
def behind (cursor : Cursor) : Cursor :=
  cursor.nextToken.2

/-- What is read after reading on some times. -/
def answer (cursor : Cursor) (count : Nat) : Except LexicalError Token :=
  (behind^[count] cursor).nextToken.1

theorem answer_zero (h : cursor.nextToken = (result, next)) : cursor.answer 0 = result :=
  congrArg Prod.fst h

theorem answer_succ (h : cursor.nextToken = (result, next)) (count : Nat) :
    cursor.answer (count + 1) = next.answer count := by
  rw [answer, Function.iterate_succ_apply, behind, h, answer]

/-- A cursor that stays where it is reads the same for ever. -/
theorem answer_of_stays (h : cursor.nextToken = (result, cursor)) (count : Nat) :
    cursor.answer count = result := by
  rw [answer, Function.iterate_fixed (congrArg Prod.snd h), h]

/-- At the end of a text the end token is read for ever. -/
theorem answer_of_rest_eq_nil (h : cursor.rest = []) (count : Nat) :
    cursor.answer count = .ok (.eof cursor.position) := by
  obtain ⟨source, position, rest⟩ := cursor
  cases h
  exact answer_of_stays rfl count

/-- How the tokens can come to an end: the end token stands behind all that is left of the text, an
unexpected character is met again, and a string that is not closed takes all that is left. -/
theorem nextToken_ends (cursor : Cursor) :
    (∃ token next, cursor.nextToken = (.ok token, next) ∧
      (token.kind = .eof → token = .eof (cursor.position + byteLength cursor.rest))) ∨
    (∃ c offset next, cursor.nextToken = (.error (.unexpectedCharacter c offset), next) ∧
      next.nextToken = (.error (.unexpectedCharacter c offset), next)) ∨
    ∃ span next, cursor.nextToken = (.error (.unterminatedString span), next) ∧
      next.rest = [] ∧ next.position = cursor.position + byteLength cursor.rest := by
  obtain ⟨blanks, rest, hsplit, hblanks, hhead⟩ := exists_blanks cursor.rest
  cases rest with
  | nil =>
      rw [List.append_nil] at hsplit
      rw [← hsplit] at hblanks
      exact .inl ⟨_, _, nextToken_of_forall_isBlank hblanks, fun _ => rfl⟩
  | cons c text =>
      have hc : isBlank c = false := hhead c rfl
      have hnext := nextToken_of_rest hblanks hc hsplit
      have hread := Token.Lexeme.describes_read c text
      cases hanswer : Token.Lexeme.read c text with
      | token kind lexeme value rest =>
          rw [hanswer] at hnext hread
          exact .inl ⟨_, _, hnext, fun hkind => absurd hkind hread.isLexeme.kind_ne_eof⟩
      | unexpected d =>
          rw [hanswer] at hnext
          refine .inr (.inl ⟨d, _, _, hnext, ?_⟩)
          rw [nextToken_of_rest (List.forall_mem_nil _) hc rfl, hanswer]
          rfl
      | unterminated =>
          rw [hanswer] at hnext
          refine .inr (.inr ⟨_, _, hnext, rfl, ?_⟩)
          rw [hsplit, byteLength_append]
          exact Nat.add_assoc _ _ _

theorem eq_eof_of_nextToken (h : cursor.nextToken = (.ok token, next)) (hkind : token.kind = .eof) :
    token = .eof (cursor.position + byteLength cursor.rest) := by
  rcases cursor.nextToken_ends with ⟨_, _, heq, heof⟩ | ⟨_, _, _, heq, -⟩ | ⟨_, _, heq, -⟩
  · cases heq.symm.trans h
    exact heof hkind
  · cases heq.symm.trans h
  · cases heq.symm.trans h

theorem byteLength_source (h : cursor.Stands) :
    byteLength cursor.source = cursor.position + byteLength cursor.rest := by
  obtain ⟨before, hsource, hposition⟩ := h
  rw [hsource, byteLength_append, hposition]

/-- What is read from a cursor on are the tokens that are left, and then a tail. -/
theorem exists_settles (cursor : Cursor) (hstands : cursor.Stands) :
    ∃ tokens, Settles cursor.rest.length (byteLength cursor.source) cursor.answer tokens
      (TokenStream.Ending.outcome cursor.tokens) := by
  induction cursor using Cursor.tokens.induct with
  | case1 cursor error next h =>
      rw [tokens_of_error h, outcome_ofError, byteLength_source hstands]
      refine ⟨[], .nil ?_⟩
      rcases cursor.nextToken_ends with
        ⟨_, _, heq, -⟩ | ⟨c, offset, _, heq, hagain⟩ | ⟨span, _, heq, hrest, hposition⟩
      · cases heq.symm.trans h
      · cases heq.symm.trans h
        refine .stuck fun count _ => ?_
        cases count with
        | zero => exact answer_zero h
        | succ count => rw [answer_succ h, answer_of_stays hagain]
      · cases heq.symm.trans h
        refine .unclosed (answer_zero h) fun count hcount => ?_
        cases count with
        | zero => cases hcount
        | succ count => rw [answer_succ h, answer_of_rest_eq_nil hrest, hposition]
  | case2 cursor token next h hkind =>
      rw [tokens_of_eof h hkind, byteLength_source hstands]
      obtain rfl := eq_eof_of_nextToken h hkind
      refine ⟨[], .nil (.settled fun count _ => ?_)⟩
      cases count with
      | zero => exact answer_zero h
      | succ count => rw [answer_succ h, answer_of_stays (nextToken_of_eof h hkind)]
  | case3 cursor token next h hkind hlt tokens ending htokens ih =>
      have htakes := takes_of_nextToken h
      obtain ⟨others, hothers⟩ := ih (htakes.stands hstands)
      rw [htakes.source_eq] at hothers
      rw [tokens_of_ok h hkind, outcome_cons]
      refine ⟨token :: others, .cons (answer_zero h) hkind (nextToken_rest_length_lt h hkind) ?_⟩
      rw [funext (answer_succ h)]
      exact hothers

end Text.Cursor

/-! ## Lexers -/

namespace Lexer

/-- The lexer after an advance, whether or not there is a token. -/
def next (lexer : Lexer) : Lexer :=
  lexer.advance.2

/-- What a lexer shows at first, and what it answers to each advance after that. -/
def answer (lexer : Lexer) : Nat → Except LexicalError Token
  | 0 => .ok lexer.current
  | count + 1 => (next^[count] lexer).advance.1

variable {source : String} {lexer : Lexer} {token : Token} {error : LexicalError}

theorem advance_eq (lexer : Lexer) : lexer.advance =
    (lexer.cursor.nextToken.1,
      ⟨lexer.cursor.behind, lexer.cursor.nextToken.1.toOption.getD lexer.current⟩) := by
  rw [advance, Cursor.behind]
  split
  next heq => rw [heq]; rfl
  next heq => rw [heq]; rfl

theorem current_next_of_ok (h : lexer.advance.1 = .ok token) : lexer.next.current = token := by
  rw [advance_eq] at h
  rw [next, advance_eq, h]
  rfl

theorem current_next_of_error (h : lexer.advance.1 = .error error) :
    lexer.next.current = lexer.current := by
  rw [advance_eq] at h
  rw [next, advance_eq, h]
  rfl

theorem cursor_iterate_next (lexer : Lexer) (count : Nat) :
    (next^[count] lexer).cursor = Cursor.behind^[count] lexer.cursor := by
  have hstep : Function.Semiconj Lexer.cursor next Cursor.behind := fun lexer =>
    congrArg (fun answer => answer.2.cursor) lexer.advance_eq
  exact hstep.iterate_right count lexer

/-- A lexer shows what a cursor reads from the beginning of the text on. -/
theorem answer_of_ofText (h : Lexer.ofText source = .ok lexer) :
    lexer.answer = (Cursor.ofText source.toList).answer := by
  have hnext : (Cursor.ofText source.toList).nextToken = (.ok lexer.current, lexer.cursor) := by
    rw [ofText] at h
    split at h
    next heq =>
      cases h
      exact heq
    next => cases h
  funext count
  cases count with
  | zero => exact (Cursor.answer_zero hnext).symm
  | succ count =>
      rw [Cursor.answer_succ hnext, answer, advance_eq, cursor_iterate_next, Cursor.answer]

/-- How a lexer goes on that is advanced for ever. -/
structure RunsOut (source : String) (lexer : Lexer) : Prop where
  settles : ∃ tokens, Settles source.length source.utf8ByteSize lexer.answer tokens
    (tokenize source)
  current_of_ok : ∀ count token, lexer.answer count = .ok token →
    (next^[count] lexer).current = token
  current_of_error : ∀ count error, lexer.answer (count + 1) = .error error →
    (next^[count + 1] lexer).current = (next^[count] lexer).current

/-- A lexer for a text comes to the end of its tokens and then stays at one of three ends. The text
is cut into tokens exactly if the end token is what is shown there. -/
theorem runsOut_of_ofText (h : Lexer.ofText source = .ok lexer) : lexer.RunsOut source where
  settles := by
    rw [answer_of_ofText h, tokenize_eq_outcome, utf8ByteSize_eq_byteLength, ← String.length_toList]
    exact Cursor.exists_settles _ (Cursor.stands_ofText _)
  current_of_ok := by
    intro count token hanswer
    cases count with
    | zero => exact Except.ok.inj hanswer
    | succ count =>
        rw [Function.iterate_succ_apply']
        exact current_next_of_ok hanswer
  current_of_error := by
    intro count error hanswer
    rw [Function.iterate_succ_apply']
    exact current_next_of_error hanswer

set_option maxRecDepth 4096 in
/-- Behind a name stands a string that is not closed. -/
theorem runsOut_of_ofText_unclosed :
    ∃ lexer, Lexer.ofText "ß \"a" = .ok lexer ∧ lexer.RunsOut "ß \"a" ∧
      lexer.answer 1 = .error (.unterminatedString ⟨3, 2⟩) ∧ lexer.answer 2 = .ok (.eof 5) := by
  have hlexer : Lexer.ofText "ß \"a" =
      .ok ⟨⟨['ß', ' ', '"', 'a'], 2, [' ', '"', 'a']⟩, ⟨.identifier, "ß", some "ß", ⟨0, 2⟩⟩⟩ := by
    cbv
  exact ⟨_, hlexer, runsOut_of_ofText hlexer, by cbv, by cbv⟩

end Lexer

end ExprLang
