import ExprLang.Proofs.Grammar.Parsed
import ExprLang.Proofs.Lexical.Separated

/-!
# Texts with the same tokens

The parser sees of a token its kind, its text and, for errors, its place. Two texts whose tokens
differ in their places only are read in step: a reading ends with the same answer at tokens of the
same number, or with the same error there.
-/

namespace ExprLang

/-- The error at another place. -/
def GrammarError.relocate (span : Text.Span) : GrammarError → GrammarError
  | unexpectedToken found _ => unexpectedToken found span
  | expectedToken expected found _ => expectedToken expected found span
  | invalidStepTarget op _ => invalidStepTarget op span
  | invalidAssignmentTarget op _ => invalidAssignmentTarget op span
  | compoundDeclaration op _ => compoundDeclaration op span
  | tooDeep _ => tooDeep span
  | trailingInput found _ => trailingInput found span

/-- Whether two tokens look the same to the parser. -/
structure Token.Same (first second : Token) : Prop where
  kind_eq : first.kind = second.kind
  text_eq : first.text = second.text

namespace Grammar

open TokenStream

variable (left right : List Token)

/-- Two tokens of the same number. -/
def Opposite (first second : Token) : Prop :=
  ∃ number : Nat, left[number]? = some first ∧ right[number]? = some second

/-- Two streams that hold what is left of two rows after the same number of tokens. -/
structure Abreast (first second : TokenStream) : Prop where
  exists_number : ∃ number, first.toList = left.drop number ∧ second.toList = right.drop number
  settled : first.ending = .settled ∧ second.ending = .settled

/-- Outcomes with matching answers and streams, or the same error at two tokens of the same number.
-/
inductive Matches {α β : Type} (answer : α → β → Prop) :
    EStateM.Result SyntaxError TokenStream α → EStateM.Result SyntaxError TokenStream β → Prop
  | ok {a : α} {b : β} {first second : TokenStream} (h : answer a b)
      (hnext : Abreast left right first second) : Matches answer (.ok a first) (.ok b second)
  | error {first second : TokenStream} {token other : Token} (error : GrammarError)
      (h : Opposite left right token other) :
      Matches answer (.error (.grammatical (error.relocate token.span)) first)
        (.error (.grammatical (error.relocate other.span)) second)

/-- Two readings that have matching outcomes on streams abreast. -/
structure Concurs {α β : Type} (reading : ParseM α) (twin : ParseM β) (answer : α → β → Prop) :
    Prop where
  outcome : ∀ {first second}, Abreast left right first second →
    Matches left right answer (reading.run first) (twin.run second)

variable {left right} {α β γ δ : Type} {levels : Nat} {token other : Token}

theorem Abreast.opposite {first second : TokenStream} (h : Abreast left right first second) :
    Opposite left right first.current second.current := by
  obtain ⟨number, hfirst, hsecond⟩ := h.exists_number
  refine ⟨number, ?_, ?_⟩
  · rw [← List.head?_drop, ← hfirst]
    rfl
  · rw [← List.head?_drop, ← hsecond]
    rfl

namespace Concurs

variable {reading : ParseM α} {twin : ParseM β} {rest : α → ParseM γ} {remainder : β → ParseM δ}
  {middle : α → β → Prop} {answer : γ → δ → Prop}

theorem pure {a : α} {b : β} (h : middle a b) :
    Concurs left right (pure a) (pure b) middle where
  outcome habreast := .ok h habreast

theorem bind (hreading : Concurs left right reading twin middle)
    (hrest : ∀ a b, middle a b → Concurs left right (rest a) (remainder b) answer) :
    Concurs left right (reading >>= rest) (twin >>= remainder) answer where
  outcome {first second} habreast := by
    have hmatches := hreading.outcome habreast
    rw [EStateM.run_bind, EStateM.run_bind]
    generalize reading.run first = outcome, twin.run second = opposite at hmatches
    cases hmatches with
    | ok h hnext => exact (hrest _ _ h).outcome hnext
    | error error h => exact .error error h

theorem bind_eq {twin : ParseM α} {remainder : α → ParseM δ}
    (hreading : Concurs left right reading twin Eq)
    (hrest : ∀ a, Concurs left right (rest a) (remainder a) answer) :
    Concurs left right (reading >>= rest) (twin >>= remainder) answer :=
  hreading.bind fun a _ h => h ▸ hrest a

theorem discard (hreading : Concurs left right reading twin middle) :
    Concurs left right (discard reading) (discard twin) fun _ _ => True where
  outcome {first second} habreast := by
    have hmatches := hreading.outcome habreast
    rw [run_discard, run_discard]
    generalize reading.run first = outcome, twin.run second = opposite at hmatches
    cases hmatches with
    | ok h hnext => exact .ok trivial hnext
    | error error h => exact .error error h

theorem refuse (error : GrammarError) (h : Opposite left right token other) :
    Concurs left right (refuse (error.relocate token.span)) (refuse (error.relocate other.span))
      middle where
  outcome _ := .error error h

end Concurs

/-! ## Steps -/

theorem concurs_current : Concurs left right current current (Opposite left right) where
  outcome habreast := .ok habreast.opposite habreast

theorem concurs_refuseDepth {answer : α → β → Prop} :
    Concurs left right refuseDepth refuseDepth answer := by
  refine concurs_current.bind fun token other h => ?_
  exact .refuse (.tooDeep token.span) h

section Rows

variable (hrows : List.Forall₂ Token.Same left right)

include hrows

theorem Opposite.same (h : Opposite left right token other) : token.Same other := by
  obtain ⟨number, hleft, hright⟩ := h
  obtain ⟨hlt, rfl⟩ := List.getElem?_eq_some_iff.mp hleft
  obtain ⟨hlt', rfl⟩ := List.getElem?_eq_some_iff.mp hright
  exact (List.forall₂_iff_get.mp hrows).2 number hlt hlt'

theorem Abreast.length_eq {first second : TokenStream} (h : Abreast left right first second) :
    first.ahead.length = second.ahead.length := by
  obtain ⟨number, hfirst, hsecond⟩ := h.exists_number
  have hlength : first.toList.length = second.toList.length := by
    rw [hfirst, hsecond, List.length_drop, List.length_drop, hrows.length_eq]
  simpa [toList] using hlength

theorem concurs_kind : Concurs left right kind kind Eq where
  outcome habreast := .ok (habreast.opposite.same hrows).kind_eq habreast

theorem concurs_stepBound : Concurs left right stepBound stepBound Eq where
  outcome habreast := .ok (congrArg (· + 1) (habreast.length_eq hrows)) habreast

theorem concurs_advance : Concurs left right advance advance (Opposite left right) := by
  constructor
  rintro ⟨current, ahead, ending⟩ ⟨opposite, beyond, last⟩ habreast
  have hopposite := habreast.opposite
  have hlength := habreast.length_eq hrows
  obtain ⟨⟨number, hfirst, hsecond⟩, rfl, rfl⟩ := habreast
  cases ahead with
  | nil =>
      -- The last token is never passed: both streams stay where they are.
      obtain rfl : beyond = [] := List.length_eq_zero_iff.mp hlength.symm
      exact .ok hopposite ⟨⟨number, hfirst, hsecond⟩, rfl, rfl⟩
  | cons token ahead =>
      obtain ⟨other, beyond, rfl⟩ := List.exists_cons_of_length_eq_add_one hlength.symm
      refine .ok hopposite ⟨⟨number + 1, ?_, ?_⟩, rfl, rfl⟩
      · rw [← List.tail_drop, ← hfirst]
        rfl
      · rw [← List.tail_drop, ← hsecond]
        rfl

theorem concurs_expect (expected : Token.Kind) :
    Concurs left right (expect expected) (expect expected) (Opposite left right) := by
  refine concurs_current.bind fun token other h => ?_
  rw [(h.same hrows).kind_eq]
  split
  · exact concurs_advance hrows
  · exact .refuse (.expectedToken expected other.kind token.span) h

/-! ## Readings -/

theorem concurs_arguments {argument : ParseM Expr}
    (hargument : Concurs left right argument argument Eq) (bound : Nat) :
    Concurs left right (arguments argument bound) (arguments argument bound) Eq := by
  induction bound with
  | zero => exact .pure rfl
  | succ bound ih =>
      refine (concurs_kind hrows).bind_eq fun kind => ?_
      split
      · exact .pure rfl
      · exact .pure rfl
      refine hargument.bind_eq fun first => ?_
      refine (concurs_kind hrows).bind_eq fun kind => ?_
      have hrest : Concurs left right
          (arguments argument bound >>= fun rest => pure (first :: rest))
          (arguments argument bound >>= fun rest => pure (first :: rest)) Eq :=
        ih.bind_eq fun rest => .pure rfl
      dsimp only
      split
      · exact (concurs_advance hrows).discard.bind fun _ _ _ => hrest
      · exact hrest

theorem concurs_named {argument : ParseM Expr}
    (hargument : Concurs left right argument argument Eq) (name : String) :
    Concurs left right (named argument name) (named argument name) Eq := by
  refine (concurs_kind hrows).bind_eq fun kind => ?_
  split
  · refine (concurs_advance hrows).discard.bind fun _ _ _ => ?_
    refine (concurs_stepBound hrows).bind_eq fun bound => ?_
    refine (concurs_arguments hrows hargument bound).bind_eq fun list => ?_
    exact (concurs_expect hrows .rightParen).discard.bind fun _ _ _ => .pure rfl
  · exact .pure rfl

theorem concurs_primary {inner argument : ParseM Expr}
    (hinner : Concurs left right inner inner Eq)
    (hargument : Concurs left right argument argument Eq) :
    Concurs left right (primary inner argument) (primary inner argument) Eq := by
  refine concurs_current.bind fun token other h => ?_
  rw [(h.same hrows).kind_eq, (h.same hrows).text_eq]
  split
  · exact (concurs_advance hrows).discard.bind fun _ _ _ => concurs_named hrows hargument _
  · refine (concurs_advance hrows).discard.bind fun _ _ _ => hinner.bind_eq fun expr => ?_
    exact (concurs_expect hrows .rightParen).discard.bind fun _ _ _ => .pure rfl
  · split
    · exact (concurs_advance hrows).discard.bind fun _ _ _ => .pure rfl
    · exact .refuse (.unexpectedToken other.kind token.span) h

omit hrows in
theorem concurs_applyUnary (op : UnaryOp) (operand : Expr) (h : Opposite left right token other) :
    Concurs left right (applyUnary op operand token) (applyUnary op operand other) Eq := by
  unfold applyUnary
  split
  · exact .refuse (.invalidStepTarget op token.span) h
  · exact .pure rfl

theorem concurs_unary {operand : ParseM Expr} (hoperand : Concurs left right operand operand Eq) :
    Concurs left right (unary operand) (unary operand) Eq := by
  refine (concurs_kind hrows).bind_eq fun kind => ?_
  split
  next op _ =>
    refine (concurs_advance hrows).bind fun token other h => hoperand.bind_eq fun expr => ?_
    exact concurs_applyUnary op expr h
  next =>
    refine hoperand.bind_eq fun expr => ?_
    refine (concurs_kind hrows).bind_eq fun kind => ?_
    split
    next op _ =>
      exact (concurs_advance hrows).bind fun token other h => concurs_applyUnary op expr h
    next => exact .pure rfl

theorem concurs_branches {branch : ParseM Expr} (hbranch : Concurs left right branch branch Eq)
    (bound : Nat) (condition : Expr) :
    Concurs left right (branches branch bound condition) (branches branch bound condition) Eq := by
  induction bound generalizing condition with
  | zero => exact .pure rfl
  | succ bound ih =>
      refine (concurs_kind hrows).bind_eq fun kind => ?_
      split
      · refine (concurs_advance hrows).discard.bind fun _ _ _ => hbranch.bind_eq fun ifTrue => ?_
        refine (concurs_expect hrows .colon).discard.bind fun _ _ _ => ?_
        refine hbranch.bind_eq fun ifFalse => ?_
        exact ih (.ternary condition ifTrue ifFalse)
      · exact .pure rfl

theorem concurs_declarationOr {expr : ParseM Expr} (hexpr : Concurs left right expr expr Eq) :
    Concurs left right (declarationOr expr) (declarationOr expr) Eq := by
  refine (concurs_kind hrows).bind_eq fun kind => ?_
  split
  · refine (concurs_advance hrows).discard.bind fun _ _ _ => ?_
    refine (concurs_expect hrows .identifier).bind fun token other h => .pure ?_
    rw [(h.same hrows).text_eq]
  · exact hexpr

omit hrows in
theorem concurs_checkTarget (op : AssignOp) (target : Expr) (h : Opposite left right token other) :
    Concurs left right (checkTarget op target token) (checkTarget op target other)
      fun _ _ => True := by
  unfold checkTarget
  split <;> split
  · exact .pure trivial
  · exact .refuse (.compoundDeclaration op token.span) h
  · exact .pure trivial
  · exact .refuse (.invalidAssignmentTarget op token.span) h

/-- The mutually recursive readings with the same number of levels concur. -/
structure Concurrent (left right : List Token) (levels : Nat) : Prop where
  assignment : Concurs left right (assignment levels) (assignment levels) Eq
  ternary : Concurs left right (ternary levels) (ternary levels) Eq
  binary : ∀ floor, Concurs left right (binary levels floor) (binary levels floor) Eq
  operators : ∀ floor expr,
    Concurs left right (operators levels floor expr) (operators levels floor expr) Eq
  suffixes : ∀ target, Concurs left right (suffixes levels target) (suffixes levels target) Eq

theorem concurrent_zero : Concurrent left right 0 where
  assignment := concurs_refuseDepth
  ternary := concurs_refuseDepth
  binary _ := concurs_refuseDepth
  operators floor expr := by
    refine (concurs_kind hrows).bind_eq fun kind => ?_
    split
    · split
      · exact .pure rfl
      · exact concurs_refuseDepth
    · exact .pure rfl
  suffixes target := by
    refine (concurs_kind hrows).bind_eq fun kind => ?_
    split
    · exact concurs_refuseDepth
    · exact concurs_refuseDepth
    · exact .pure rfl

theorem concurrent_succ (h : Concurrent left right levels) :
    Concurrent left right (levels + 1) where
  assignment := by
    refine (concurs_declarationOr hrows h.ternary).bind_eq fun target => ?_
    refine (concurs_kind hrows).bind_eq fun kind => ?_
    split
    next => exact .pure rfl
    next op _ =>
      refine (concurs_advance hrows).bind fun token other htokens => ?_
      refine (concurs_checkTarget op target htokens).bind fun _ _ _ => ?_
      refine h.assignment.bind_eq fun value => ?_
      exact .pure rfl
  ternary := by
    refine (h.binary 0).bind_eq fun condition => ?_
    refine (concurs_stepBound hrows).bind_eq fun bound => ?_
    exact concurs_branches hrows h.ternary bound condition
  binary floor := by
    have hoperand := (concurs_primary hrows h.ternary h.assignment).bind_eq h.suffixes
    exact (concurs_unary hrows hoperand).bind_eq (h.operators floor)
  operators floor expr := by
    refine (concurs_kind hrows).bind_eq fun kind => ?_
    split
    next op _ =>
      split
      · exact .pure rfl
      refine (concurs_advance hrows).discard.bind fun _ _ _ => ?_
      refine (h.binary op.rightFloor).bind_eq fun operand => ?_
      exact h.operators floor (.binary op expr operand)
    next => exact .pure rfl
  suffixes target := by
    refine (concurs_kind hrows).bind_eq fun kind => ?_
    split
    · refine (concurs_advance hrows).discard.bind fun _ _ _ => ?_
      refine (h.binary 0).bind_eq fun position => ?_
      exact (concurs_expect hrows .rightBracket).discard.bind fun _ _ _ =>
        h.suffixes (.index target position)
    · refine (concurs_advance hrows).discard.bind fun _ _ _ => ?_
      refine (concurs_expect hrows .identifier).bind fun token other htokens => ?_
      rw [(htokens.same hrows).text_eq]
      refine (concurs_named hrows h.assignment other.text).bind_eq fun part => ?_
      exact h.suffixes (.member target part)
    · exact .pure rfl

theorem concurrent (levels : Nat) : Concurrent left right levels := by
  induction levels with
  | zero => exact concurrent_zero hrows
  | succ levels ih => exact concurrent_succ hrows ih

theorem concurs_wholeExpression : Concurs left right wholeExpression wholeExpression Eq := by
  refine (concurrent hrows nestingLimit).assignment.bind_eq fun expr => ?_
  refine concurs_current.bind fun token other h => ?_
  rw [(h.same hrows).kind_eq]
  split
  · exact .pure rfl
  · exact .refuse (.trailingInput other.kind token.span) h

end Rows

end Grammar

/-! ## Texts -/

theorem Token.Lexeme.IsLexeme.mem_symbols {kind : Kind} {lexeme : List Char}
    (h : IsLexeme kind lexeme none) : (lexeme, kind) ∈ Kind.symbols := by
  cases h with
  | symbol hmem => exact hmem

/-- The kind and the value of a lexeme tell its text, since a symbol has only one spelling. -/
theorem Token.text_eq_of_isLexeme {first second : Token} (hfirst : first.word.IsLexeme)
    (hsecond : second.word.IsLexeme) (hkind : first.kind = second.kind)
    (hvalue : first.value = second.value) : first.text = second.text := by
  rw [Token.text, Token.text, ← hvalue]
  cases hnone : first.value with
  | some value => rfl
  | none =>
      -- A lexeme without a value is a symbol, and no two of these are of one kind.
      have hall : ∀ entry ∈ Kind.symbols, ∀ other ∈ Kind.symbols,
          entry.2 = other.2 → entry.1 = other.1 := by decide
      rw [Word.IsLexeme, Token.word, hnone] at hfirst
      rw [Word.IsLexeme, Token.word, ← hvalue, hnone] at hsecond
      exact String.toList_inj.mp (hall _ hfirst.mem_symbols _ hsecond.mem_symbols hkind)

variable {first second : String} {tokens others : List Token}

theorem text_eq_of_tokenize (hfirst : tokenize first = .ok tokens)
    (hsecond : tokenize second = .ok others) {token other : Token} (htoken : token ∈ tokens)
    (hother : other ∈ others) (hkind : token.kind = other.kind)
    (hvalue : token.value = other.value) : token.text = other.text := by
  by_cases heof : token.kind = .eof
  · -- The end of a text is no lexeme, but its text is always empty.
    have htext {source : String} {row : List Token} {token : Token}
        (h : tokenize source = .ok row) (hmem : token ∈ row) (hkind : token.kind = .eof) :
        token.text = "" := by
      obtain ⟨front, stop, rfl, hfront⟩ := exists_row_of_tokenize h
      rcases List.mem_append.mp hmem with hmem | hmem
      · exact absurd hkind (hfront token hmem).kind_ne_eof
      · rw [List.mem_singleton.mp hmem]
        rfl
    rw [htext hfirst htoken heof, htext hsecond hother (hkind ▸ heof)]
  · exact Token.text_eq_of_isLexeme (isLexeme_of_tokenize hfirst token htoken heof)
      (isLexeme_of_tokenize hsecond other hother (hkind ▸ heof)) hkind hvalue

/-- Tokens of texts with the same kinds and values look the same to the parser. -/
theorem forall₂_same_of_tokenize (hfirst : tokenize first = .ok tokens)
    (hsecond : tokenize second = .ok others)
    (hsame : tokens.map (fun token => (token.kind, token.value)) =
      others.map fun token => (token.kind, token.value)) :
    List.Forall₂ Token.Same tokens others := by
  rw [← List.forall₂_eq_eq_eq, List.forall₂_map_left_iff, List.forall₂_map_right_iff,
    List.forall₂_iff_zip] at hsame
  refine List.forall₂_iff_zip.mpr ⟨hsame.1, fun {token other} hpair => ?_⟩
  obtain ⟨hkind, hvalue⟩ := Prod.mk.inj (hsame.2 hpair)
  obtain ⟨htoken, hother⟩ := List.of_mem_zip hpair
  exact ⟨hkind, text_eq_of_tokenize hfirst hsecond htoken hother hkind hvalue⟩

open Grammar in
/-- Texts whose tokens look the same are parsed to the same expression, or refused with the same
error at tokens of the same number. -/
theorem parse_of_forall₂_same (hfirst : tokenize first = .ok tokens)
    (hsecond : tokenize second = .ok others) (hrows : List.Forall₂ Token.Same tokens others) :
    (∃ expr, parse first = .ok expr ∧ parse second = .ok expr) ∨
      ∃ (error : GrammarError) (token other : Token), Opposite tokens others token other ∧
        parse first = .error (.grammatical (error.relocate token.span)) ∧
        parse second = .error (.grammatical (error.relocate other.span)) := by
  obtain ⟨left, hleft, hlefthead, hleftall⟩ := TokenStream.exists_ofText_of_tokenize hfirst
  obtain ⟨right, hright, hrighthead, hrightall⟩ := TokenStream.exists_ofText_of_tokenize hsecond
  rw [parse_eq_run hleft, parse_eq_run hright]
  have hopposite : Opposite tokens others left.current right.current :=
    ⟨0, by rw [← List.head?_eq_getElem?, hlefthead], by rw [← List.head?_eq_getElem?, hrighthead]⟩
  have hkind := (hopposite.same hrows).kind_eq
  -- Texts without tokens are refused before anything is read, so they need a case of their own.
  by_cases heof : left.current.kind = .eof
  · rw [run_wholeExpression_of_eof heof, run_wholeExpression_of_eof (hkind ▸ heof)]
    exact .inr ⟨.unexpectedToken .eof left.current.span, _, _, hopposite, rfl, rfl⟩
  · obtain ⟨hlefttokens, hleftending⟩ := hleftall heof
    obtain ⟨hrighttokens, hrightending⟩ := hrightall (hkind ▸ heof)
    have habreast : Abreast tokens others left right :=
      ⟨⟨0, hlefttokens, hrighttokens⟩, hleftending, hrightending⟩
    have hmatches := (concurs_wholeExpression hrows).outcome habreast
    generalize wholeExpression.run left = outcome, wholeExpression.run right = twin at hmatches
    cases hmatches with
    | ok h _ => exact .inl ⟨_, rfl, by rw [h]⟩
    | error error h => exact .inr ⟨error, _, _, h, rfl, rfl⟩

/-- Blanks between tokens do not matter. The tokens of a text are those of every text that consists
of their spellings with blanks between any two of them, but for their places. Two texts whose tokens
have the same kinds and values are parsed to the same expression, or refused with the same error at
tokens of the same number. -/
theorem tokenize_and_parse_of_spacing :
    (∀ source tokens, tokenize source = .ok tokens →
      ∃ (row : List Token) (stop : Nat), tokens = row ++ [Token.eof stop] ∧
        ∀ text : String, Word.Spaces (row.map Token.word) text.toList →
          ∃ (others : List Token) (stop : Nat),
            tokenize text = .ok (others ++ [Token.eof stop]) ∧
              others.map Token.word = row.map Token.word) ∧
      ∀ first second tokens others, tokenize first = .ok tokens → tokenize second = .ok others →
        tokens.map (fun token => (token.kind, token.value)) =
            others.map (fun token => (token.kind, token.value)) →
          (∃ expr, parse first = .ok expr ∧ parse second = .ok expr) ∨
            ∃ (error : GrammarError) (number : Nat) (token other : Token),
              tokens[number]? = some token ∧ others[number]? = some other ∧
                parse first = .error (.grammatical (error.relocate token.span)) ∧
                parse second = .error (.grammatical (error.relocate other.span)) := by
  refine ⟨fun source tokens h => ?_, fun first second tokens others hfirst hsecond hsame => ?_⟩
  · obtain ⟨row, stop, hsplit, hrow⟩ := exists_row_of_tokenize h
    refine ⟨row, stop, hsplit, fun text hspaces => tokenize_of_spaces hspaces ?_⟩
    exact List.forall_mem_map.mpr hrow
  · have hrows := forall₂_same_of_tokenize hfirst hsecond hsame
    rcases parse_of_forall₂_same hfirst hsecond hrows with hparse | hparse
    · exact .inl hparse
    · obtain ⟨error, token, other, ⟨number, htoken, hother⟩, hleft, hright⟩ := hparse
      exact .inr ⟨error, number, token, other, htoken, hother, hleft, hright⟩

theorem tokenize_and_parse_of_spacing_decimal :
    let row : List Token :=
      [⟨.decimal, "1.", some "1.", ⟨0, 2⟩⟩, ⟨.identifier, "x", some "x", ⟨2, 1⟩⟩]
    let spaced : List Token :=
      [⟨.decimal, "1.", some "1.", ⟨1, 2⟩⟩, ⟨.identifier, "x", some "x", ⟨5, 1⟩⟩]
    tokenize "1.x" = .ok (row ++ [Token.eof 3]) ∧
      tokenize " 1.\t\nx" = .ok (spaced ++ [Token.eof 6]) ∧
      Word.Spaces (row.map Token.word) " 1.\t\nx".toList ∧
      (∃ (others : List Token) (stop : Nat),
        tokenize " 1.\t\nx" = .ok (others ++ [Token.eof stop]) ∧
          others.map Token.word = row.map Token.word) ∧
      ((∃ expr, parse "1.x" = .ok expr ∧ parse " 1.\t\nx" = .ok expr) ∨
        ∃ (error : GrammarError) (number : Nat) (token other : Token),
          (row ++ [Token.eof 3])[number]? = some token ∧
            (spaced ++ [Token.eof 6])[number]? = some other ∧
            parse "1.x" = .error (.grammatical (error.relocate token.span)) ∧
            parse " 1.\t\nx" = .error (.grammatical (error.relocate other.span))) := by
  intro row spaced
  have hfirst : tokenize "1.x" = .ok (row ++ [Token.eof 3]) := by cbv
  have hsecond : tokenize " 1.\t\nx" = .ok (spaced ++ [Token.eof 6]) := by cbv
  have hspaces : Word.Spaces (row.map Token.word) " 1.\t\nx".toList := by
    have hspace : [' '].all Text.isBlank = true := by decide
    have hgap : ['\t', '\n'].all Text.isBlank = true := by decide
    have hlast : Word.Spaces [Token.word ⟨.identifier, "x", some "x", ⟨2, 1⟩⟩]
        (['\t', '\n'] ++ ("x".toList ++ [])) :=
      .cons (List.all_eq_true.mp hgap) (by simp) (.nil (List.forall_mem_nil _))
    refine .cons (List.all_eq_true.mp hspace) ?_ hlast
    rintro c ⟨⟩
    decide
  obtain ⟨others, stop, hsplit, hothers⟩ := tokenize_and_parse_of_spacing.1 _ _ hfirst
  obtain rfl := (List.append_inj' hsplit rfl).1
  exact ⟨hfirst, hsecond, hspaces, hothers _ hspaces,
    tokenize_and_parse_of_spacing.2 _ _ _ _ hfirst hsecond rfl⟩

end ExprLang
