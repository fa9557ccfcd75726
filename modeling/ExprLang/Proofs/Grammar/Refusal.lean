import ExprLang.Proofs.Grammar.Parsed
import ExprLang.Proofs.Lexical.Location

/-!
# Where a text is refused

The parser moves along the tokens of the text and sees no others. So an error of grammar tells the
place and the kind of one of them, and an error that the parser meets between them is the one at
which cutting the text into tokens fails.
-/

namespace ExprLang

open Text

/-- The kind of the token that an error tells, if it tells one. -/
def GrammarError.found? : GrammarError → Option Token.Kind
  | unexpectedToken found _ | expectedToken _ found _ | trailingInput found _ => some found
  | invalidStepTarget .. | invalidAssignmentTarget .. | compoundDeclaration .. | tooDeep _ => none

/-- An error tells the place of a token, and no other kind than that of the token. -/
structure GrammarError.Concerns (error : GrammarError) (token : Token) : Prop where
  span_eq : error.span = token.span
  kind_eq : ∀ kind ∈ error.found?, kind = token.kind

namespace Grammar

open TokenStream TokenStream.Ending

variable (course : List Token × Ending)

/-- The stream holds no other tokens than the given ones, and ends as they do. -/
def Along (stream : TokenStream) : Prop :=
  stream.toList ⊆ course.1 ∧ stream.ending = course.2

/-- An error that stems from the tokens or from what follows them. -/
def Stems : SyntaxError → Prop
  | .lexical error => outcome course = .error error
  | .grammatical error => ∃ token ∈ course.1, error.Concerns token

/-- A reading that is along the tokens stays so, and its errors stem from them. -/
structure Heeds {α : Type} (reading : ParseM α) (answer : α → Prop) : Prop where
  ok : ∀ {stream next a}, Along course stream → reading.run stream = .ok a next →
    answer a ∧ Along course next
  error : ∀ {stream next error}, Along course stream →
    reading.run stream = .error error next → Stems course error

variable {course} {α β : Type} {levels : Nat}

namespace Heeds

variable {reading : ParseM α} {rest : α → ParseM β} {middle : α → Prop} {answer : β → Prop}

theorem pure {a : α} (h : middle a) : Heeds course (pure a) middle where
  ok hstream hrun := by
    cases hrun
    exact ⟨h, hstream⟩
  error _ hrun := by cases hrun

theorem bind (hreading : Heeds course reading middle)
    (hrest : ∀ a, middle a → Heeds course (rest a) answer) :
    Heeds course (reading >>= rest) answer where
  ok hstream hrun := by
    obtain ⟨a, between, hfirst, hrun⟩ := bind_eq_ok_iff.mp hrun
    obtain ⟨hmiddle, hbetween⟩ := hreading.ok hstream hfirst
    exact (hrest a hmiddle).ok hbetween hrun
  error {stream next error} hstream hrun := by
    rw [EStateM.run_bind] at hrun
    split at hrun
    next hfirst =>
      obtain ⟨hmiddle, hbetween⟩ := hreading.ok hstream hfirst
      exact (hrest _ hmiddle).error hbetween hrun
    next hfirst =>
      cases hrun
      exact hreading.error hstream hfirst

theorem discard (hreading : Heeds course reading middle) :
    Heeds course (discard reading) fun _ => True where
  ok hstream hrun := by
    obtain ⟨a, hrun⟩ := discard_eq_ok_iff.mp hrun
    exact ⟨trivial, (hreading.ok hstream hrun).2⟩
  error hstream hrun := by
    rw [run_discard] at hrun
    split at hrun <;> cases hrun
    next hfirst => exact hreading.error hstream hfirst

theorem refuse {error : GrammarError} {token : Token} (htoken : token ∈ course.1)
    (h : error.Concerns token) : Heeds course (refuse error) middle where
  ok _ hrun := by cases hrun
  error _ hrun := by
    cases hrun
    exact ⟨token, htoken, h⟩

end Heeds

/-! ## Steps -/

theorem heeds_current : Heeds course current (· ∈ course.1) where
  ok hstream hrun := by
    cases hrun
    exact ⟨hstream.1 List.mem_cons_self, hstream⟩
  error _ hrun := by cases hrun

theorem heeds_kind : Heeds course kind fun _ => True where
  ok hstream hrun := by
    cases hrun
    exact ⟨trivial, hstream⟩
  error _ hrun := by cases hrun

theorem heeds_stepBound : Heeds course stepBound fun _ => True where
  ok hstream hrun := by
    cases hrun
    exact ⟨trivial, hstream⟩
  error _ hrun := by cases hrun

theorem heeds_advance : Heeds course advance (· ∈ course.1) where
  ok {stream next token} hstream hrun := by
    obtain ⟨current, ahead, last⟩ := stream
    have hcurrent : current ∈ course.1 := hstream.1 List.mem_cons_self
    cases ahead with
    | cons first rest =>
        cases hrun
        exact ⟨hcurrent, fun _ hahead => hstream.1 (List.mem_cons_of_mem _ hahead), hstream.2⟩
    | nil =>
        cases last <;> cases hrun
        exact ⟨hcurrent, hstream⟩
  error {stream next error} hstream hrun := by
    obtain ⟨tokens, ending⟩ := course
    obtain ⟨current, ahead, last⟩ := stream
    obtain ⟨-, rfl⟩ := hstream
    cases ahead with
    | cons first rest => cases hrun
    | nil =>
        cases last <;> cases hrun
        · rfl
        · rfl

theorem heeds_expect (expected : Token.Kind) :
    Heeds course (expect expected) (· ∈ course.1) := by
  refine heeds_current.bind fun token htoken => ?_
  split
  · exact heeds_advance
  · exact .refuse htoken ⟨rfl, fun _ hfound => (Option.some.inj hfound).symm⟩

theorem heeds_refuseDepth {answer : α → Prop} : Heeds course refuseDepth answer := by
  refine heeds_current.bind fun token htoken => ?_
  exact .refuse htoken ⟨rfl, nofun⟩

/-! ## Readings -/

theorem heeds_arguments {argument : ParseM Expr}
    (hargument : Heeds course argument fun _ => True) (bound : Nat) :
    Heeds course (arguments argument bound) fun _ => True := by
  induction bound with
  | zero => exact .pure trivial
  | succ bound ih =>
      refine heeds_kind.bind fun kind _ => ?_
      split
      · exact .pure trivial
      · exact .pure trivial
      refine hargument.bind fun first _ => heeds_kind.bind fun kind _ => ?_
      dsimp only
      split
      · exact heeds_advance.discard.bind fun _ _ => ih.bind fun _ _ => .pure trivial
      · exact ih.bind fun _ _ => .pure trivial

theorem heeds_named {argument : ParseM Expr}
    (hargument : Heeds course argument fun _ => True) (name : String) :
    Heeds course (named argument name) fun _ => True := by
  refine heeds_kind.bind fun kind _ => ?_
  split
  · refine heeds_advance.discard.bind fun _ _ => heeds_stepBound.bind fun bound _ => ?_
    refine (heeds_arguments hargument bound).bind fun list _ => ?_
    exact (heeds_expect .rightParen).discard.bind fun _ _ => .pure trivial
  · exact .pure trivial

theorem heeds_primary {inner argument : ParseM Expr}
    (hinner : Heeds course inner fun _ => True)
    (hargument : Heeds course argument fun _ => True) :
    Heeds course (primary inner argument) fun _ => True := by
  refine heeds_current.bind fun token htoken => ?_
  split
  · exact heeds_advance.discard.bind fun _ _ => heeds_named hargument token.text
  · refine heeds_advance.discard.bind fun _ _ => hinner.bind fun expr _ => ?_
    exact (heeds_expect .rightParen).discard.bind fun _ _ => .pure trivial
  · split
    · exact heeds_advance.discard.bind fun _ _ => .pure trivial
    · exact .refuse htoken ⟨rfl, fun _ hfound => (Option.some.inj hfound).symm⟩

theorem heeds_applyUnary (op : UnaryOp) (operand : Expr) {token : Token}
    (htoken : token ∈ course.1) :
    Heeds course (applyUnary op operand token) fun _ => True := by
  unfold applyUnary
  split
  · exact .refuse htoken ⟨rfl, nofun⟩
  · exact .pure trivial

theorem heeds_unary {operand : ParseM Expr}
    (hoperand : Heeds course operand fun _ => True) :
    Heeds course (unary operand) fun _ => True := by
  refine heeds_kind.bind fun kind _ => ?_
  split
  next op _ =>
    exact heeds_advance.bind fun token htoken =>
      hoperand.bind fun expr _ => heeds_applyUnary op expr htoken
  next =>
    refine hoperand.bind fun expr _ => heeds_kind.bind fun kind _ => ?_
    split
    next op _ => exact heeds_advance.bind fun token htoken => heeds_applyUnary op expr htoken
    next => exact .pure trivial

theorem heeds_branches {branch : ParseM Expr}
    (hbranch : Heeds course branch fun _ => True) (bound : Nat) (condition : Expr) :
    Heeds course (branches branch bound condition) fun _ => True := by
  induction bound generalizing condition with
  | zero => exact .pure trivial
  | succ bound ih =>
      refine heeds_kind.bind fun kind _ => ?_
      split
      · refine heeds_advance.discard.bind fun _ _ => hbranch.bind fun ifTrue _ => ?_
        refine (heeds_expect .colon).discard.bind fun _ _ => ?_
        exact hbranch.bind fun ifFalse _ => ih (.ternary condition ifTrue ifFalse)
      · exact .pure trivial

theorem heeds_declarationOr {other : ParseM Expr}
    (hother : Heeds course other fun _ => True) :
    Heeds course (declarationOr other) fun _ => True := by
  refine heeds_kind.bind fun kind _ => ?_
  split
  · refine heeds_advance.discard.bind fun _ _ => ?_
    exact (heeds_expect .identifier).bind fun _ _ => .pure trivial
  · exact hother

theorem heeds_checkTarget (op : AssignOp) (target : Expr) {token : Token}
    (htoken : token ∈ course.1) :
    Heeds course (checkTarget op target token) fun _ => True := by
  unfold checkTarget
  split <;> split
  all_goals first | exact .pure trivial | exact .refuse htoken ⟨rfl, nofun⟩

/-- What the mutually recursive readings with the same number of levels heed. -/
structure Heedful (course : List Token × Ending) (levels : Nat) : Prop where
  assignment : Heeds course (assignment levels) fun _ => True
  ternary : Heeds course (ternary levels) fun _ => True
  binary : ∀ floor, Heeds course (binary levels floor) fun _ => True
  operators : ∀ floor left, Heeds course (operators levels floor left) fun _ => True
  suffixes : ∀ target, Heeds course (suffixes levels target) fun _ => True

theorem heedful_zero : Heedful course 0 where
  assignment := heeds_refuseDepth
  ternary := heeds_refuseDepth
  binary _ := heeds_refuseDepth
  operators floor left := by
    refine heeds_kind.bind fun kind _ => ?_
    split
    · split
      · exact .pure trivial
      · exact heeds_refuseDepth
    · exact .pure trivial
  suffixes target := by
    refine heeds_kind.bind fun kind _ => ?_
    split
    · exact heeds_refuseDepth
    · exact heeds_refuseDepth
    · exact .pure trivial

theorem heedful_succ (h : Heedful course levels) : Heedful course (levels + 1) where
  assignment := by
    refine (heeds_declarationOr h.ternary).bind fun target _ => heeds_kind.bind fun kind _ => ?_
    split
    next => exact .pure trivial
    next op _ =>
      refine heeds_advance.bind fun token htoken => ?_
      refine (heeds_checkTarget op target htoken).bind fun _ _ => ?_
      exact h.assignment.bind fun _ _ => .pure trivial
  ternary := by
    refine (h.binary 0).bind fun condition _ => heeds_stepBound.bind fun bound _ => ?_
    exact heeds_branches h.ternary bound condition
  binary floor := by
    have hoperand := (heeds_primary h.ternary h.assignment).bind fun expr _ => h.suffixes expr
    exact (heeds_unary hoperand).bind fun left _ => h.operators floor left
  operators floor left := by
    refine heeds_kind.bind fun kind _ => ?_
    split
    next op _ =>
      split
      · exact .pure trivial
      refine heeds_advance.discard.bind fun _ _ => ?_
      exact (h.binary op.rightFloor).bind fun right _ => h.operators floor (.binary op left right)
    next => exact .pure trivial
  suffixes target := by
    refine heeds_kind.bind fun kind _ => ?_
    split
    · refine heeds_advance.discard.bind fun _ _ => (h.binary 0).bind fun position _ => ?_
      exact (heeds_expect .rightBracket).discard.bind fun _ _ =>
        h.suffixes (.index target position)
    · refine heeds_advance.discard.bind fun _ _ => ?_
      refine (heeds_expect .identifier).bind fun name _ => ?_
      exact (heeds_named h.assignment name.text).bind fun part _ =>
        h.suffixes (.member target part)
    · exact .pure trivial

theorem heedful (course : List Token × Ending) (levels : Nat) : Heedful course levels := by
  induction levels with
  | zero => exact heedful_zero
  | succ levels ih => exact heedful_succ ih

theorem heeds_wholeExpression : Heeds course wholeExpression fun _ => True := by
  refine (heedful course nestingLimit).assignment.bind fun expr _ => ?_
  refine heeds_current.bind fun token htoken => ?_
  split
  · exact .pure trivial
  · exact .refuse htoken ⟨rfl, fun _ hfound => (Option.some.inj hfound).symm⟩

end Grammar

variable {source : String}

theorem TokenStream.tokens_of_ofText_error {error : LexicalError}
    (h : TokenStream.ofText source = .error error) :
    (Cursor.ofText source.toList).tokens = ([], .ofError error) := by
  unfold TokenStream.ofText Lexer.ofText at h
  split at h
  next => cases h
  next hnext =>
    cases h
    exact Cursor.tokens_of_error hnext

/-- What is wrong with a text stems from its tokens or from the place where they end. -/
theorem stems_of_parse {error : SyntaxError} (h : parse source = .error error) :
    Grammar.Stems (Cursor.ofText source.toList).tokens error := by
  cases hstream : TokenStream.ofText source with
  | error fault =>
      unfold parse Parser.ofText at h
      rw [hstream] at h
      cases h
      rw [TokenStream.tokens_of_ofText_error hstream]
      exact outcome_ofError [] fault
  | ok stream =>
      rw [parse_eq_run hstream] at h
      split at h <;> cases h
      next hrun => exact Grammar.heeds_wholeExpression.error (TokenStream.of_ofText hstream) hrun

theorem GrammarError.labels_eq (error : GrammarError) :
    ∀ label ∈ error.diagnostic.labels, label.span = error.span := by
  cases error <;> exact List.forall_mem_singleton.mpr rfl

/-- A text that is parsed can be cut into tokens, and a lexical error of parsing is that of cutting.
An error of grammar tells the place and the kind of a token that is read before any lexical error;
what its label marks is the spelling of this token, which ends before the lexical error begins. -/
theorem tokenize_of_parse (source : String) :
    (∀ expr, parse source = .ok expr → ∃ tokens, tokenize source = .ok tokens) ∧
      (∀ error, parse source = .error (.lexical error) → tokenize source = .error error) ∧
      ∀ error, parse source = .error (.grammatical error) →
        ∃ token ∈ (Cursor.ofText source.toList).tokens.1, error.Concerns token ∧
          error.span.Marks source.toList token.lexeme.toList ∧
          (∀ label ∈ error.diagnostic.labels, label.span = error.span) ∧
          ∀ fault, tokenize source = .error fault → error.span.stop ≤ fault.offset := by
  refine ⟨fun expr h => ?_, fun error h => ?_, fun error h => ?_⟩
  · obtain ⟨-, -, tokens, eof, htokens, -⟩ := spelled_of_parse h
    exact ⟨tokens ++ [eof], htokens⟩
  · rw [tokenize_eq_outcome]
    exact stems_of_parse h
  · obtain ⟨token, htoken, hconcerns⟩ := stems_of_parse h
    refine ⟨token, htoken, hconcerns, ?_, error.labels_eq, fun fault hfault => ?_⟩
    · rw [hconcerns.span_eq]
      exact Cursor.marks_of_mem_tokens _ (Cursor.stands_ofText _) token htoken
    · rw [tokenize_eq_outcome] at hfault
      rw [hconcerns.span_eq]
      exact (Cursor.stop_le_of_mem_tokens _ hfault).2 token htoken

set_option maxRecDepth 4096 in
/-- A parenthesis is refused before the string behind it is found to be open. -/
theorem tokenize_of_parse_open :
    let source := "1 + ) \""
    let error : GrammarError := .unexpectedToken .rightParen ⟨4, 1⟩
    parse source = .error (.grammatical error) ∧
      tokenize source = .error (.unterminatedString ⟨6, 1⟩) ∧
      ∃ token ∈ (Cursor.ofText source.toList).tokens.1, error.Concerns token ∧
        error.span.Marks source.toList token.lexeme.toList ∧
        (∀ label ∈ error.diagnostic.labels, label.span = error.span) ∧
        ∀ fault, tokenize source = .error fault → error.span.stop ≤ fault.offset := by
  intro source error
  have hparse : parse "1 + ) \"" =
      .error (.grammatical (.unexpectedToken .rightParen ⟨4, 1⟩)) := by cbv
  have htokenize : tokenize "1 + ) \"" = .error (.unterminatedString ⟨6, 1⟩) := by cbv
  exact ⟨hparse, htokenize, (tokenize_of_parse source).2.2 error hparse⟩

end ExprLang
