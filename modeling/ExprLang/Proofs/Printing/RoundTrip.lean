import ExprLang.Proofs.Grammar.Parsed
import ExprLang.Proofs.Printing.Completeness

/-!
# Parsing what was printed

The text of an expression of the grammar's shape is parsed to this expression, or refused for its
depth and for nothing else. What comes from a text is never too deep to be printed and parsed again.
-/

namespace ExprLang

open Text Grammar TokenStream

/-! ## Names and literals of a parsed text -/

namespace Expr

variable {expr : Expr}

theorem text_eq_lexeme {token : Token}
    (h : token.value.map String.toList = some token.lexeme.toList) : token.text = token.lexeme := by
  obtain ⟨value, hvalue, hsame⟩ := Option.map_eq_some_iff.mp h
  rw [Token.text, hvalue]
  exact String.toList_inj.mp hsame

theorem isName_of_token {token : Token} (hkind : token.kind = .identifier)
    (h : token.word.IsLexeme) : IsName token.text := by
  have hlexeme : Token.Lexeme.IsLexeme token.kind token.lexeme.toList
    (token.value.map String.toList) := h
  obtain ⟨-, hvalue⟩ := hlexeme.eq_ofWord (.inl hkind)
  rw [hkind, hvalue] at hlexeme
  rw [IsName, text_eq_lexeme hvalue]
  exact hlexeme

/-- The two truth values are spelled as their keywords. -/
theorem eq_keyword_of_ofWord {lexeme : List Char} {kind : Token.Kind}
    (h : kind = Token.Kind.ofWord lexeme) (hkind : kind = .true ∨ kind = .false) :
    lexeme = "true".toList ∨ lexeme = "false".toList := by
  have hall : ∀ entry ∈ Token.Kind.keywords, entry.2 = .true ∨ entry.2 = .false →
      entry.1 = "true".toList ∨ entry.1 = "false".toList := by decide
  subst h
  rcases Token.Lexeme.ofWord_eq_identifier_or_mem lexeme with hname | hmem
  · rw [hname] at hkind
    exact absurd hkind (by decide)
  · exact hall _ hmem hkind

theorem admits_of_token {token : Token} {kind : LiteralKind}
    (hkind : LiteralKind.ofToken? token.kind = some kind) (h : token.word.IsLexeme) :
    Admits kind token.text := by
  have hlexeme : Token.Lexeme.IsLexeme token.kind token.lexeme.toList
    (token.value.map String.toList) := h
  cases htoken : token.kind <;> rw [htoken] at hkind hlexeme <;> cases hkind
  case int =>
    have hvalue := hlexeme.value_of_number (.inl rfl)
    rw [Admits, text_eq_lexeme hvalue]
    exact hvalue ▸ hlexeme
  case decimal =>
    have hvalue := hlexeme.value_of_number (.inr rfl)
    rw [Admits, text_eq_lexeme hvalue]
    exact hvalue ▸ hlexeme
  case string => trivial
  all_goals
    obtain ⟨hword, hvalue⟩ := hlexeme.eq_ofWord (by decide)
    rw [Admits, text_eq_lexeme hvalue, ← String.toList_inj, ← String.toList_inj]
    exact eq_keyword_of_ofWord hword (by decide)

/-- What an expression shows itself of a row of tokens: its name or literal, and the parenthesis of
a call. -/
def DrawnFrom (tokens : List Token) : Expr → Prop
  | constant kind text => ∃ token ∈ tokens,
    LiteralKind.ofToken? token.kind = some kind ∧ token.text = text
  | var name | declaration _ name => ∃ token ∈ tokens,
    token.kind = .identifier ∧ token.text = name
  | call name _ => (∃ token ∈ tokens, token.kind = .identifier ∧ token.text = name) ∧
    ∃ token ∈ tokens, token.kind = .leftParen
  | _ => True

/-- Everything in an expression is drawn from the tokens that spell it. -/
theorem Spelled.drawnFrom {tokens row : List Token} (h : expr.Spelled tokens)
    (hrow : ∀ token ∈ tokens, token ∈ row) : expr.Everywhere (DrawnFrom row) := by
  induction h with
  | constant hkind =>
      exact .intro ⟨_, hrow _ (by simp), hkind, rfl⟩ (List.forall_mem_nil _)
  | var hname => exact .intro ⟨_, hrow _ (by simp), hname, rfl⟩ (List.forall_mem_nil _)
  | declaration _ hname =>
      exact .intro ⟨_, hrow _ (by simp), hname, rfl⟩ (List.forall_mem_nil _)
  | group _ _ _ ih =>
      have hinner := ih fun token hmem => hrow token (by simp [hmem])
      exact .intro trivial (List.forall_mem_singleton.mpr hinner)
  | before _ _ ih =>
      have hoperand := ih fun token hmem => hrow token (by simp [hmem])
      exact .intro trivial (List.forall_mem_singleton.mpr hoperand)
  | after _ _ ih =>
      have hoperand := ih fun token hmem => hrow token (by simp [hmem])
      exact .intro trivial (List.forall_mem_singleton.mpr hoperand)
  | binary _ _ _ ihleft ihright =>
      have hleft := ihleft fun token hmem => hrow token (by simp [hmem])
      have hright := ihright fun token hmem => hrow token (by simp [hmem])
      exact .intro trivial (Everywhere.pair hleft hright)
  | ternary _ _ _ _ _ ihcondition ihtrue ihfalse =>
      have hcondition := ihcondition fun token hmem => hrow token (by simp [hmem])
      have htrue := ihtrue fun token hmem => hrow token (by simp [hmem])
      have hfalse := ihfalse fun token hmem => hrow token (by simp [hmem])
      exact .intro trivial (List.forall_mem_cons.mpr ⟨hcondition, Everywhere.pair htrue hfalse⟩)
  | assignment _ _ _ ihtarget ihvalue =>
      have htarget := ihtarget fun token hmem => hrow token (by simp [hmem])
      have hvalue := ihvalue fun token hmem => hrow token (by simp [hmem])
      exact .intro trivial (Everywhere.pair htarget hvalue)
  | @call _ _ _ arguments hname hopening _ _ _ ih =>
      refine .intro ⟨⟨_, hrow _ (by simp), hname, rfl⟩, _, hrow _ (by simp), hopening⟩ ?_
      intro child hchild
      obtain ⟨argument, hargument, rfl⟩ := List.mem_map.mp hchild
      refine ih argument hargument ?_
      intro token hmem
      have hrows : token ∈ arguments.flatMap Argument.row :=
        List.mem_flatMap.mpr ⟨argument, hargument, List.mem_append_left _ hmem⟩
      exact hrow token (by simp [hrows])
  | member _ _ _ ihtarget ihpart =>
      have htarget := ihtarget fun token hmem => hrow token (by simp [hmem])
      have hpart := ihpart fun token hmem => hrow token (by simp [hmem])
      exact .intro trivial (Everywhere.pair htarget hpart)
  | index _ _ _ _ ihtarget ihposition =>
      have htarget := ihtarget fun token hmem => hrow token (by simp [hmem])
      have hposition := ihposition fun token hmem => hrow token (by simp [hmem])
      exact .intro trivial (Everywhere.pair htarget hposition)

theorem DrawnFrom.hasText {tokens : List Token} (h : expr.DrawnFrom tokens)
    (htokens : ∀ token ∈ tokens, token.word.IsLexeme) : expr.HasText := by
  cases expr with
  | constant kind text =>
      obtain ⟨token, htoken, hkind, rfl⟩ := h
      exact admits_of_token hkind (htokens token htoken)
  | var name | declaration kind name =>
      obtain ⟨token, htoken, hkind, rfl⟩ := h
      exact isName_of_token hkind (htokens token htoken)
  | call name arguments =>
      obtain ⟨⟨token, htoken, hkind, rfl⟩, -⟩ := h
      exact isName_of_token hkind (htokens token htoken)
  | _ => trivial

/-- The names and literals of an expression that tokens spell can be written. -/
theorem Spelled.lexical {tokens : List Token} (h : expr.Spelled tokens)
    (htokens : ∀ token ∈ tokens, token.word.IsLexeme) : expr.Lexical :=
  (h.drawnFrom fun _ hmem => hmem).imp fun _ hdrawn => hdrawn.hasText htokens

end Expr

variable {source : String} {expr : Expr}

theorem lexical_of_parse (h : parse source = .ok expr) : expr.Lexical := by
  obtain ⟨-, -, tokens, eof, htokens, -, hspelled⟩ := spelled_of_parse h
  refine hspelled.lexical ?_
  intro token hmem
  exact isLexeme_of_tokenize htokens token (List.mem_append_left _ hmem)
    (hspelled.kind_ne_eof token hmem)

/-! ## Printing and parsing -/

/-- The outcome of parsing the text of an expression. -/
theorem exists_stream_of_print (hshape : expr.Grammatical) (htext : expr.Lexical) :
    ∃ stream next, TokenStream.ofText expr.print = .ok stream ∧ next.current.kind = .eof ∧
      Leads expression stream (expr.assignmentRoom ≤ nestingLimit) (pure expr) next := by
  obtain ⟨word, rest, hwords, hbegins⟩ := Expr.exists_words_eq_cons hshape htext
  obtain ⟨tokens, stop, htokenize, hsame⟩ := tokenize_spaced (Expr.isLexeme_words htext)
  have hsplit := hsame.trans hwords
  obtain ⟨first, others, rfl, rfl, -⟩ := List.map_eq_cons_iff.mp hsplit
  have hstream := ofText_of_tokenize htokenize hbegins.ne_eof
  refine ⟨_, ⟨.eof stop, [], .settled⟩, hstream, rfl, ?_⟩
  refine (Expr.reads hshape htext).assignment ?_ (endsAssignment_of_mem (by simp [Token.eof]))
  exact ⟨first :: others, ⟨rfl, rfl⟩, hsame⟩

/-- An expression that leaves room within the nesting limit is parsed from its text. -/
theorem parse_print_of_le (hshape : expr.Grammatical) (htext : expr.Lexical)
    (hroom : expr.assignmentRoom ≤ nestingLimit) : parse expr.print = .ok expr := by
  obtain ⟨stream, next, hstream, hnext, hleads⟩ := exists_stream_of_print hshape htext
  exact parse_eq_ok_iff.mpr ⟨stream, next, hstream, hleads.run_eq hroom, hnext⟩

/-- An expression that needs more levels than there are is refused for its depth. -/
theorem parse_print_of_not_le (hshape : expr.Grammatical) (htext : expr.Lexical)
    (hroom : ¬ expr.assignmentRoom ≤ nestingLimit) :
    ∃ span, parse expr.print = .error (.grammatical (.tooDeep span)) := by
  obtain ⟨stream, next, hstream, -, hleads⟩ := exists_stream_of_print hshape htext
  obtain ⟨span, last, hrun⟩ := hleads.tooDeep hroom
  exact ⟨span, parse_eq_error hstream hrun⟩

/-- The text of an expression is parsed to the expression if it is not too deep, and the text of an
expression that was parsed never is. -/
theorem parse_print :
    (∀ expr : Expr, expr.Grammatical → expr.Lexical →
      parse expr.print = .ok expr ∨
        ∃ span, parse expr.print = .error (.grammatical (.tooDeep span))) ∧
    ∀ (source : String) (expr : Expr), parse source = .ok expr → parse expr.print = .ok expr := by
  constructor
  · intro expr hshape htext
    by_cases hroom : expr.assignmentRoom ≤ nestingLimit
    · exact .inl (parse_print_of_le hshape htext hroom)
    · exact .inr (parse_print_of_not_le hshape htext hroom)
  · intro source expr h
    obtain ⟨hshape, hroom, -⟩ := spelled_of_parse h
    exact parse_print_of_le hshape (lexical_of_parse h) hroom

theorem parse_print_sum :
    (Expr.binary .add (.constant .string "/") (.constant .string "")).Grammatical ∧
      (Expr.binary .add (.constant .string "/") (.constant .string "")).Lexical ∧
      (parse (Expr.binary .add (.constant .string "/") (.constant .string "")).print =
          .ok (.binary .add (.constant .string "/") (.constant .string "")) ∨
        ∃ span, parse (Expr.binary .add (.constant .string "/") (.constant .string "")).print =
          .error (.grammatical (.tooDeep span))) ∧
      parse "\"//\"+\"\"" = .ok (.binary .add (.constant .string "/") (.constant .string "")) ∧
      parse (Expr.binary .add (.constant .string "/") (.constant .string "")).print =
        .ok (.binary .add (.constant .string "/") (.constant .string "")) := by
  have hshape : (Expr.binary .add (.constant .string "/") (.constant .string "")).Grammatical :=
    .intro ⟨rfl, rfl⟩ (Expr.Everywhere.pair (.intro trivial (List.forall_mem_nil _))
      (.intro trivial (List.forall_mem_nil _)))
  have htext : (Expr.binary .add (.constant .string "/") (.constant .string "")).Lexical :=
    .intro trivial (Expr.Everywhere.pair (.intro trivial (List.forall_mem_nil _))
      (.intro trivial (List.forall_mem_nil _)))
  have hparse : parse "\"//\"+\"\"" =
      .ok (.binary .add (.constant .string "/") (.constant .string "")) := by cbv
  exact ⟨hshape, htext, parse_print.1 _ hshape htext, hparse, parse_print.2 _ _ hparse⟩

end ExprLang
