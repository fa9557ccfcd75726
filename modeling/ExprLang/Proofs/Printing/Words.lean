import ExprLang.Proofs.Grammar.Shape
import ExprLang.Proofs.Lexical.Separated

/-!
# Printing expressions

The words of an expression in the order in which they are written, with a comma between any two
arguments of a call. Nothing is put in parentheses that is no group, so the text of a tree means the
tree only if its shape is that of the grammar.
-/

namespace ExprLang

/-! ## Words -/

namespace Word

/-- A symbol. -/
def ofSymbol (spelling : String) : Word :=
  ⟨(Token.Kind.symbols.lookup spelling.toList).getD .eof, spelling, none⟩

/-- A name or a keyword. -/
def ofLetters (spelling : String) : Word :=
  ⟨Token.Kind.ofWord spelling.toList, spelling, some spelling⟩

/-- A character of a string as it is written between the quotes. -/
def escaped (c : Char) : List Char :=
  if c = '"' ∨ c = '\\' ∨ c = '/' then ['\\', c] else [c]

/-- A string between quotes. -/
def ofString (text : String) : Word :=
  ⟨.string, .ofList ('"' :: (text.toList.flatMap escaped ++ ['"'])), some text⟩

/-- A literal. -/
def ofLiteral : LiteralKind → String → Word
  | .int, text => ⟨.int, text, some text⟩
  | .decimal, text => ⟨.decimal, text, some text⟩
  | .string, text => ofString text
  | .bool, text => ofLetters text

theorem isLexeme_ofSymbol {spelling : String}
    (h : (Token.Kind.symbols.lookup spelling.toList).isSome = true) :
    (ofSymbol spelling).IsLexeme := by
  obtain ⟨kind, hkind⟩ := Option.isSome_iff_exists.mp h
  obtain ⟨before, after, hsplit, -⟩ := List.lookup_eq_some_iff.mp hkind
  rw [IsLexeme, ofSymbol, hkind]
  exact .symbol (by simp [hsplit])

theorem isLexeme_ofLetters {spelling : String}
    (hhead : spelling.toList.head?.any Text.isLetter = true)
    (htail : spelling.toList.tail.all Token.isWordChar = true) :
    (ofLetters spelling).IsLexeme := by
  obtain ⟨c, hc, hletter⟩ := (Option.any_eq_true _ _).mp hhead
  obtain ⟨tail, hsplit⟩ := List.head?_eq_some_iff.mp hc
  rw [IsLexeme, ofLetters, hsplit]
  rw [hsplit, List.tail_cons, List.all_eq_true] at htail
  simpa [hsplit] using Token.Lexeme.IsLexeme.word hletter htail

/-- A string is spelled by its characters, each escaped where it has to be. -/
theorem isBody_escaped (list : List Char) : Token.Lexeme.IsBody (list.flatMap escaped) list := by
  induction list with
  | nil => exact .nil
  | cons c list ih =>
      rw [List.flatMap_cons, escaped]
      split
      next => exact .escaped (.inl rfl) ih
      next hplain =>
        obtain ⟨hquote, hescape⟩ := not_or.mp hplain
        exact .plain hquote hescape ih

theorem isLexeme_ofString (text : String) : (ofString text).IsLexeme := by
  simpa [IsLexeme, ofString] using Token.Lexeme.IsLexeme.string (isBody_escaped text.toList)

end Word

namespace Expr

/-! ## Expressions -/

mutual

/-- The words of an expression as it is written. -/
def words : Expr → List Word
  | constant kind text => [.ofLiteral kind text]
  | var name => [.ofLetters name]
  | declaration kind name => [.ofLetters kind.keyword, .ofLetters name]
  | group inner => .ofSymbol "(" :: (inner.words ++ [.ofSymbol ")"])
  | unary op operand =>
    if op.isAfter then operand.words ++ [.ofSymbol op.symbol]
    else .ofSymbol op.symbol :: operand.words
  | binary op left right => left.words ++ .ofSymbol op.symbol :: right.words
  | ternary condition ifTrue ifFalse =>
    condition.words ++ .ofSymbol "?" :: (ifTrue.words ++ .ofSymbol ":" :: ifFalse.words)
  | assignment op target value => target.words ++ .ofSymbol op.symbol :: value.words
  | call name arguments =>
    .ofLetters name :: .ofSymbol "(" :: (wordsAll arguments ++ [.ofSymbol ")"])
  | member target part => target.words ++ .ofSymbol "." :: part.words
  | index target position =>
    target.words ++ .ofSymbol "[" :: (position.words ++ [.ofSymbol "]"])
termination_by structural expr => expr

/-- The words of the arguments of a call, with a comma between any two of them. -/
def wordsAll : List Expr → List Word
  | [] => []
  | first :: rest =>
    first.words ++ if rest.isEmpty then [] else .ofSymbol "," :: wordsAll rest
termination_by structural list => list

end

/-- The text of an expression: its words with single spaces between them. -/
def print (expr : Expr) : String :=
  Word.spaced expr.words

example : print (.call "f" [.constant .string "a/b", .group (.var "x")]) =
    "f ( \"a\\/b\" , ( x ) )" := by decide

/-! ## Names and literals -/

/-- Whether a text is a name. -/
def IsName (text : String) : Prop :=
  Token.Lexeme.IsLexeme .identifier text.toList (some text.toList)

/-- Whether a text is a literal of a kind. The text of a string can be any. -/
def Admits : LiteralKind → String → Prop
  | .int, text => Token.Lexeme.IsLexeme .int text.toList (some text.toList)
  | .decimal, text => Token.Lexeme.IsLexeme .decimal text.toList (some text.toList)
  | .string, _ => True
  | .bool, text => text = "true" ∨ text = "false"

/-- Whether the name or the literal text that an expression holds itself can be written. -/
def HasText : Expr → Prop
  | constant kind text => Admits kind text
  | var name | declaration _ name | call name _ => IsName name
  | _ => True

/-- Whether all names and literal texts in an expression can be written. -/
def Lexical (expr : Expr) : Prop :=
  expr.Everywhere HasText

theorem IsName.kind_eq {name : String} (h : IsName name) :
    (Word.ofLetters name).kind = .identifier :=
  (h.eq_ofWord (.inl rfl)).1.symm

/-- A letter with word characters after it is a name unless it is a keyword. -/
theorem isName_of_letters {name : String}
    (hhead : name.toList.head?.any Text.isLetter = true)
    (htail : name.toList.tail.all Token.isWordChar = true)
    (hkind : (Word.ofLetters name).kind = .identifier) : IsName name := by
  have hlexeme := Word.isLexeme_ofLetters hhead htail
  rw [Word.IsLexeme, hkind] at hlexeme
  exact hlexeme

theorem IsName.isLexeme {name : String} (h : IsName name) : (Word.ofLetters name).IsLexeme := by
  rw [Word.IsLexeme, h.kind_eq]
  exact h

theorem isLexeme_keyword (kind : DeclarationKind) :
    (Word.ofLetters kind.keyword).IsLexeme := by
  cases kind <;> exact Word.isLexeme_ofLetters (by decide) (by decide)

theorem Admits.isLexeme {kind : LiteralKind} {text : String} (h : Admits kind text) :
    (Word.ofLiteral kind text).IsLexeme := by
  cases kind with
  | int => exact h
  | decimal => exact h
  | string => exact Word.isLexeme_ofString text
  | bool => rcases h with rfl | rfl <;> exact Word.isLexeme_ofLetters (by decide) (by decide)

theorem mem_wordsAll {list : List Expr} {word : Word} (h : word ∈ wordsAll list) :
    (∃ expr ∈ list, word ∈ expr.words) ∨ word = .ofSymbol "," := by
  induction list with
  | nil => cases h
  | cons first rest ih =>
      rw [wordsAll, List.mem_append] at h
      rcases h with hfirst | hrest
      · exact .inl ⟨first, List.mem_cons_self, hfirst⟩
      split at hrest
      · cases hrest
      rcases List.mem_cons.mp hrest with rfl | hrest
      · exact .inr rfl
      rcases ih hrest with ⟨expr, hexpr, hmem⟩ | rfl
      · exact .inl ⟨expr, List.mem_cons_of_mem _ hexpr, hmem⟩
      · exact .inr rfl

variable {expr : Expr}

/-- The words of an expression with names and literals that can be written are lexemes. -/
theorem isLexeme_words (h : expr.Lexical) : ∀ word ∈ expr.words, word.IsLexeme := by
  induction h with
  | @intro expr htext _ ih =>
      cases expr with
      | constant kind text => simpa [words] using htext.isLexeme
      | var name => simpa [words] using htext.isLexeme
      | declaration kind name =>
          simpa [words] using ⟨isLexeme_keyword kind, htext.isLexeme⟩
      | group inner =>
          have hinner := ih inner (by simp [children])
          have hopening : (Word.ofSymbol "(").IsLexeme := Word.isLexeme_ofSymbol (by decide)
          have hclosing : (Word.ofSymbol ")").IsLexeme := Word.isLexeme_ofSymbol (by decide)
          simpa [words, hopening, hclosing, or_imp, forall_and] using hinner
      | unary op operand =>
          have hoperand := ih operand (by simp [children])
          have hsign : (Word.ofSymbol op.symbol).IsLexeme :=
            Word.isLexeme_ofSymbol (by cases op <;> decide)
          rw [words]
          split <;> simpa [hsign, or_imp, forall_and] using hoperand
      | binary op left right =>
          have hleft := ih left (by simp [children])
          have hright := ih right (by simp [children])
          have hsign : (Word.ofSymbol op.symbol).IsLexeme :=
            Word.isLexeme_ofSymbol (by cases op <;> decide)
          simpa [words, hsign, or_imp, forall_and] using ⟨hleft, hright⟩
      | ternary condition ifTrue ifFalse =>
          have hcondition := ih condition (by simp [children])
          have htrue := ih ifTrue (by simp [children])
          have hfalse := ih ifFalse (by simp [children])
          have hquestion : (Word.ofSymbol "?").IsLexeme := Word.isLexeme_ofSymbol (by decide)
          have hcolon : (Word.ofSymbol ":").IsLexeme := Word.isLexeme_ofSymbol (by decide)
          simpa [words, hquestion, hcolon, or_imp, forall_and] using ⟨hcondition, htrue, hfalse⟩
      | assignment op target value =>
          have htarget := ih target (by simp [children])
          have hvalue := ih value (by simp [children])
          have hsign : (Word.ofSymbol op.symbol).IsLexeme :=
            Word.isLexeme_ofSymbol (by cases op <;> decide)
          simpa [words, hsign, or_imp, forall_and] using ⟨htarget, hvalue⟩
      | call name arguments =>
          have harguments : ∀ word ∈ wordsAll arguments, word.IsLexeme := by
            intro word hword
            rcases mem_wordsAll hword with ⟨argument, hargument, hmem⟩ | rfl
            · exact ih argument hargument word hmem
            · exact Word.isLexeme_ofSymbol (by decide)
          have hopening : (Word.ofSymbol "(").IsLexeme := Word.isLexeme_ofSymbol (by decide)
          have hclosing : (Word.ofSymbol ")").IsLexeme := Word.isLexeme_ofSymbol (by decide)
          simpa [words, htext.isLexeme, hopening, hclosing, or_imp, forall_and] using harguments
      | member target part =>
          have htarget := ih target (by simp [children])
          have hpart := ih part (by simp [children])
          have hdot : (Word.ofSymbol ".").IsLexeme := Word.isLexeme_ofSymbol (by decide)
          simpa [words, hdot, or_imp, forall_and] using ⟨htarget, hpart⟩
      | index target position =>
          have htarget := ih target (by simp [children])
          have hposition := ih position (by simp [children])
          have hopening : (Word.ofSymbol "[").IsLexeme := Word.isLexeme_ofSymbol (by decide)
          have hclosing : (Word.ofSymbol "]").IsLexeme := Word.isLexeme_ofSymbol (by decide)
          simpa [words, hopening, hclosing, or_imp, forall_and] using ⟨htarget, hposition⟩

/-! ## First words -/

/-- What the first word of an expression cannot be, by the level of the expression. -/
structure Begins (expr : Expr) (kind : Token.Kind) : Prop where
  before?_eq_none : expr.isOperand = true → UnaryOp.before? kind = none
  ofToken?_eq_none : expr.isTernary = true → DeclarationKind.ofToken? kind = none
  ne_rightParen : kind ≠ .rightParen
  ne_eof : kind ≠ .eof

namespace Begins

/-- An expression begins as its leftmost part does. -/
theorem of_leftmost {head : Expr} {kind : Token.Kind} (h : head.Begins kind)
    (hoperand : expr.isOperand = true → head.isOperand = true)
    (hternary : expr.isTernary = true → head.isTernary = true) : expr.Begins kind where
  before?_eq_none := fun hexpr => h.before?_eq_none (hoperand hexpr)
  ofToken?_eq_none := fun hexpr => h.ofToken?_eq_none (hternary hexpr)
  ne_rightParen := h.ne_rightParen
  ne_eof := h.ne_eof

/-- An expression can begin with a word that stands before no operand and declares nothing. -/
theorem of_eq_none {kind : Token.Kind} (hbefore : UnaryOp.before? kind = none)
    (hdeclaration : DeclarationKind.ofToken? kind = none) (hparen : kind ≠ .rightParen)
    (heof : kind ≠ .eof) : expr.Begins kind :=
  ⟨fun _ => hbefore, fun _ => hdeclaration, hparen, heof⟩

theorem name {name : String} (h : IsName name) : expr.Begins (Word.ofLetters name).kind := by
  rw [h.kind_eq]
  exact .of_eq_none rfl rfl (by decide) (by decide)

end Begins

/-- The first word of an expression. -/
theorem exists_words_eq_cons (hshape : expr.Grammatical) (htext : expr.Lexical) :
    ∃ word rest, expr.words = word :: rest ∧ expr.Begins word.kind := by
  induction hshape with
  | @intro expr hfits hparts ih =>
      have hchild (child : Expr) (hmem : child ∈ expr.children) :=
        ih child hmem (htext.parts child hmem)
      have hnode := htext.node
      cases expr with
      | constant kind text =>
          refine ⟨_, _, rfl, ?_⟩
          cases kind with
          | int => exact (.of_eq_none rfl rfl (by decide) (by decide) : Begins _ .int)
          | decimal => exact (.of_eq_none rfl rfl (by decide) (by decide) : Begins _ .decimal)
          | string => exact (.of_eq_none rfl rfl (by decide) (by decide) : Begins _ .string)
          | bool =>
              rcases hnode with rfl | rfl <;>
                exact .of_eq_none (by decide) (by decide) (by decide) (by decide)
      | var name => exact ⟨_, _, rfl, .name hnode⟩
      | declaration kind name =>
          refine ⟨_, _, rfl, ?_⟩
          constructor
          · intro h
            cases h
          · intro h
            cases h
          · cases kind <;> decide
          · cases kind <;> decide
      | group inner =>
          exact ⟨_, _, rfl, .of_eq_none (by decide) (by decide) (by decide) (by decide)⟩
      | unary op operand =>
          obtain ⟨word, rest, hwords, hbegins⟩ := hchild operand (by simp [children])
          rw [words, hwords]
          split
          next =>
            exact ⟨_, _, rfl, hbegins.of_leftmost (fun h => by cases h) fun _ =>
              isTernary_of_isOperand hfits.1⟩
          next =>
            refine ⟨_, _, rfl, ?_⟩
            constructor
            · intro h
              cases h
            · intro _
              cases op <;> decide
            · cases op <;> decide
            · cases op <;> decide
      | binary op left right =>
          obtain ⟨word, rest, hwords, hbegins⟩ := hchild left (by simp [children])
          rw [words, hwords]
          exact ⟨_, _, rfl, hbegins.of_leftmost (fun h => by cases h) fun _ =>
            isTernary_of_bindsAt hfits.1⟩
      | ternary condition ifTrue ifFalse =>
          obtain ⟨word, rest, hwords, hbegins⟩ := hchild condition (by simp [children])
          rw [words, hwords]
          exact ⟨_, _, rfl, hbegins.of_leftmost (fun h => by cases h) fun _ =>
            isTernary_of_bindsAt hfits.1⟩
      | assignment op target value =>
          obtain ⟨word, rest, hwords, hbegins⟩ := hchild target (by simp [children])
          rw [words, hwords]
          exact ⟨_, _, rfl, hbegins.of_leftmost (fun h => by cases h) fun h => by cases h⟩
      | call name arguments => exact ⟨_, _, rfl, .name hnode⟩
      | member target part =>
          obtain ⟨word, rest, hwords, hbegins⟩ := hchild target (by simp [children])
          rw [words, hwords]
          exact ⟨_, _, rfl, hbegins.of_leftmost (fun _ => hfits.1) fun _ =>
            isTernary_of_isOperand hfits.1⟩
      | index target position =>
          obtain ⟨word, rest, hwords, hbegins⟩ := hchild target (by simp [children])
          rw [words, hwords]
          exact ⟨_, _, rfl, hbegins.of_leftmost (fun _ => hfits.1) fun _ =>
            isTernary_of_isOperand hfits.1⟩

end Expr

end ExprLang
