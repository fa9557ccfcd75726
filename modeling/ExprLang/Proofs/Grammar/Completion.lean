import ExprLang.Proofs.Grammar.Shape
import ExprLang.Proofs.Printing.Words

/-!
# Completing a row of tokens

A row of tokens that an expression of the grammar's shape begins with can be completed. What is open
in it is closed from the inside out: a name stands for what is missing, a step that has no place to
work on gets a member of its operand, a condition its last branch, and every open pair its closing
half.
-/

namespace ExprLang

/-- A token that is spelled as a word. -/
def Token.ofWord (word : Word) : Token :=
  ⟨word.kind, word.lexeme, word.value, ⟨0, 0⟩⟩

/-- The name that stands for what is missing. -/
def Token.placeholder : Token :=
  .ofWord (.ofLetters "x")

/-- An expression of the grammar's shape that is spelled by some tokens with lexemes after them. -/
structure Expr.Completes (expr : Expr) (front : List Token) : Prop where
  grammatical : expr.Grammatical
  exists_spelled : ∃ more, expr.Spelled (front ++ more) ∧ ∀ token ∈ more, token.word.IsLexeme

/-- Arguments of a call that are written as some tokens with lexemes after them. -/
structure Argument.Complete (row : List Argument) (front : List Token) : Prop where
  pieces : ∀ piece ∈ row, piece.expr.Spelled piece.tokens ∧ piece.expr.Grammatical
  commas : ∀ piece ∈ row, ∀ comma ∈ piece.comma, comma.kind = .comma
  exists_eq : ∃ more, row.flatMap Argument.row = front ++ more ∧
    ∀ token ∈ more, token.word.IsLexeme

namespace Expr

variable {expr : Expr} {front tokens : List Token} {opening sign : Token}

theorem isLexeme_placeholder : Token.placeholder.word.IsLexeme :=
  (Word.isLexeme_ofLetters (by decide) (by decide) : (Word.ofLetters "x").IsLexeme)

theorem isLexeme_closing {spelling : String}
    (h : (Token.Kind.symbols.lookup spelling.toList).isSome = true) :
    (Token.ofWord (.ofSymbol spelling)).word.IsLexeme :=
  Word.isLexeme_ofSymbol h

theorem grammatical_var (name : String) : (var name).Grammatical :=
  .intro trivial (List.forall_mem_nil _)

/-- An expression completes the tokens that spell it. -/
theorem Spelled.completes (h : expr.Spelled tokens) (hgrammatical : expr.Grammatical) :
    expr.Completes tokens :=
  ⟨hgrammatical, [], by simpa using h, List.forall_mem_nil _⟩

namespace Completes

variable {inner whole left right target part : Expr} {first second : List Token}

/-! ## What is missing -/

/-- A name completes nothing. -/
theorem placeholder : (var Token.placeholder.text).Completes [] where
  grammatical := grammatical_var _
  exists_spelled := ⟨_, .var rfl, List.forall_mem_singleton.mpr isLexeme_placeholder⟩

theorem declaration {word : Token} {kind : DeclarationKind}
    (hword : DeclarationKind.ofToken? word.kind = some kind) :
    (Expr.declaration kind Token.placeholder.text).Completes [word] where
  grammatical := .intro trivial (List.forall_mem_nil _)
  exists_spelled :=
    ⟨_, .declaration hword rfl, List.forall_mem_singleton.mpr isLexeme_placeholder⟩

/-! ## What is open -/

/-- An expression around one that completes some tokens completes these after its own. -/
theorem wrap (before after : List Token) (h : inner.Completes front)
    (hgrammatical : whole.Grammatical) (hafter : ∀ token ∈ after, token.word.IsLexeme)
    (hspelled : ∀ tokens, inner.Spelled tokens → whole.Spelled (before ++ (tokens ++ after))) :
    whole.Completes (before ++ front) where
  grammatical := hgrammatical
  exists_spelled := by
    obtain ⟨more, hinner, hmore⟩ := h.exists_spelled
    refine ⟨more ++ after, ?_, List.forall_mem_append.mpr ⟨hmore, hafter⟩⟩
    simpa using hspelled _ hinner

/-- A member of an expression completes what the expression does. -/
theorem toMember (h : expr.Completes front) (hshape : expr.isOperand = true) :
    (Expr.member expr (var Token.placeholder.text)).Completes front := by
  refine wrap [] [.ofWord (.ofSymbol "."), .placeholder] h
    (.intro ⟨hshape, rfl⟩ (Everywhere.pair h.grammatical (grammatical_var _))) ?_ ?_
  · exact List.forall_mem_cons.mpr
      ⟨isLexeme_closing (by decide), List.forall_mem_singleton.mpr isLexeme_placeholder⟩
  · exact fun _ hinner => .member hinner rfl (.var rfl)

theorem group (hopening : opening.kind = .leftParen) (h : inner.Completes front)
    (hshape : inner.isTernary = true) : (Expr.group inner).Completes (opening :: front) := by
  refine wrap [opening] [.ofWord (.ofSymbol ")")] h
    (.intro hshape (List.forall_mem_singleton.mpr h.grammatical)) ?_ ?_
  · exact List.forall_mem_singleton.mpr (isLexeme_closing (by decide))
  · exact fun _ hinner => .group hopening hinner rfl

/-- An operator can stand before what completes its operand, or before a member of that. -/
theorem before {op : UnaryOp} (hsign : UnaryOp.before? sign.kind = some op)
    (h : inner.Completes front) (hshape : inner.isOperand = true) :
    ∃ operand, (Expr.unary op operand).Completes (sign :: front) := by
  have hplace {operand : Expr} (h : operand.Completes front)
      (hfits : (Expr.unary op operand).Fits) : (Expr.unary op operand).Completes (sign :: front) :=
    wrap [sign] [] h (.intro hfits (List.forall_mem_singleton.mpr h.grammatical))
      (List.forall_mem_nil _) fun _ hoperand => by simpa using Spelled.before hsign hoperand
  -- A member is a place, so that a step may work on it whatever the operand is.
  exact ⟨_, hplace (h.toMember hshape) ⟨rfl, fun _ => rfl⟩⟩

theorem binary {op : BinaryOp} (hleft : left.Spelled first) (hgrammatical : left.Grammatical)
    (hsign : BinaryOp.ofToken? sign.kind = some op) (h : right.Completes front)
    (hfits : (Expr.binary op left right).Fits) :
    (Expr.binary op left right).Completes (first ++ [sign] ++ front) :=
  wrap _ [] h (.intro hfits (Everywhere.pair hgrammatical h.grammatical)) (List.forall_mem_nil _)
    fun _ hright => by simpa using Spelled.binary hleft hsign hright

/-- A condition gets the branch that is missing. -/
theorem ifTrue {question : Token} (hcondition : left.Spelled first)
    (hgrammatical : left.Grammatical) (hbinds : left.bindsAt 0 = true)
    (hquestion : question.kind = .question) (h : inner.Completes front)
    (hshape : inner.isTernary = true) :
    (Expr.ternary left inner (var Token.placeholder.text)).Completes
      (first ++ [question] ++ front) := by
  refine wrap _ [.ofWord (.ofSymbol ":"), .placeholder] h (.intro ⟨hbinds, hshape, rfl⟩ ?_) ?_ ?_
  · exact List.forall_mem_cons.mpr
      ⟨hgrammatical, Everywhere.pair h.grammatical (grammatical_var _)⟩
  · exact List.forall_mem_cons.mpr
      ⟨isLexeme_closing (by decide), List.forall_mem_singleton.mpr isLexeme_placeholder⟩
  · intro tokens hinner
    simpa using Spelled.ternary hcondition hquestion hinner rfl (.var rfl)

theorem ifFalse {question colon : Token} (hcondition : left.Spelled first)
    (hquestion : question.kind = .question) (htrue : right.Spelled second)
    (hcolon : colon.kind = .colon) (hgrammatical : left.Grammatical)
    (htrueGood : right.Grammatical) (h : inner.Completes front)
    (hfits : (Expr.ternary left right inner).Fits) :
    (Expr.ternary left right inner).Completes
      (first ++ [question] ++ second ++ [colon] ++ front) := by
  refine wrap _ [] h (.intro hfits ?_) (List.forall_mem_nil _) ?_
  · exact List.forall_mem_cons.mpr ⟨hgrammatical, Everywhere.pair htrueGood h.grammatical⟩
  · intro tokens hinner
    simpa using Spelled.ternary hcondition hquestion htrue hcolon hinner

theorem assignment {op : AssignOp} (htarget : target.Spelled first)
    (hgrammatical : target.Grammatical) (hsign : AssignOp.ofToken? sign.kind = some op)
    (h : inner.Completes front) (hfits : (Expr.assignment op target inner).Fits) :
    (Expr.assignment op target inner).Completes (first ++ [sign] ++ front) :=
  wrap _ [] h (.intro hfits (Everywhere.pair hgrammatical h.grammatical)) (List.forall_mem_nil _)
    fun _ hvalue => by simpa using Spelled.assignment htarget hsign hvalue

theorem member {dot : Token} (htarget : target.Spelled first) (hgrammatical : target.Grammatical)
    (hdot : dot.kind = .dot) (h : part.Completes front) (hfits : (Expr.member target part).Fits) :
    (Expr.member target part).Completes (first ++ [dot] ++ front) :=
  wrap _ [] h (.intro hfits (Everywhere.pair hgrammatical h.grammatical)) (List.forall_mem_nil _)
    fun _ hpart => by simpa using Spelled.member htarget hdot hpart

theorem index (htarget : target.Spelled first) (hgrammatical : target.Grammatical)
    (hopening : opening.kind = .leftBracket) (h : inner.Completes front)
    (hfits : (Expr.index target inner).Fits) :
    (Expr.index target inner).Completes (first ++ [opening] ++ front) := by
  refine wrap _ [.ofWord (.ofSymbol "]")] h
    (.intro hfits (Everywhere.pair hgrammatical h.grammatical)) ?_ ?_
  · exact List.forall_mem_singleton.mpr (isLexeme_closing (by decide))
  · intro tokens hinner
    simpa using Spelled.index htarget hopening hinner rfl

theorem call {name : Token} {row : List Argument} (hname : name.kind = .identifier)
    (hopening : opening.kind = .leftParen) (h : Argument.Complete row front) :
    (Expr.call name.text (row.map Argument.expr)).Completes (name :: opening :: front) where
  grammatical := by
    refine .intro trivial (List.forall_mem_map.mpr fun piece hmem => ?_)
    exact (h.pieces piece hmem).2
  exists_spelled := by
    obtain ⟨more, hrow, hmore⟩ := h.exists_eq
    refine ⟨more ++ [.ofWord (.ofSymbol ")")], ?_, ?_⟩
    · have hcall := Spelled.call hname hopening (fun piece hmem => (h.pieces piece hmem).1)
        h.commas (rfl : (Token.ofWord (.ofSymbol ")")).kind = .rightParen)
      rw [hrow] at hcall
      simpa using hcall
    · exact List.forall_mem_append.mpr
        ⟨hmore, List.forall_mem_singleton.mpr (isLexeme_closing (by decide))⟩

end Completes

end Expr

namespace Argument.Complete

variable {expr : Expr} {row : List Argument} {front : List Token} {piece : Argument}

theorem of_forall
    (hpieces : ∀ piece ∈ row, piece.expr.Spelled piece.tokens ∧ piece.expr.Grammatical)
    (hcommas : ∀ piece ∈ row, ∀ comma ∈ piece.comma, comma.kind = .comma) :
    Complete row (row.flatMap Argument.row) :=
  ⟨hpieces, hcommas, [], by simp, List.forall_mem_nil _⟩

/-- What completes some tokens is the last argument of a row that does. -/
theorem single (h : expr.Completes front) : ∃ row, Complete row front := by
  obtain ⟨more, hspelled, hmore⟩ := h.exists_spelled
  refine ⟨[⟨expr, front ++ more, none⟩], ?_, ?_, more, ?_, hmore⟩
  · exact List.forall_mem_singleton.mpr ⟨hspelled, h.grammatical⟩
  · exact List.forall_mem_singleton.mpr nofun
  · simp [Argument.row]

theorem cons (hpiece : piece.expr.Spelled piece.tokens ∧ piece.expr.Grammatical)
    (hcomma : ∀ comma ∈ piece.comma, comma.kind = .comma) (h : Complete row front) :
    Complete (piece :: row) (piece.row ++ front) := by
  obtain ⟨more, hrow, hmore⟩ := h.exists_eq
  refine ⟨List.forall_mem_cons.mpr ⟨hpiece, h.pieces⟩, List.forall_mem_cons.mpr ⟨hcomma, h.commas⟩,
    more, ?_, hmore⟩
  rw [List.flatMap_cons, hrow, List.append_assoc]

end Argument.Complete

end ExprLang
