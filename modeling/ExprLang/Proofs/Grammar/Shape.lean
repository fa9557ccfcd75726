import ExprLang.Grammar.Reading

/-!
# The shape of expressions that the grammar allows

Trees of every shape exist, but a text only spells those in which each construct holds what binds
at least as tightly as its place demands. `Grammatical` says this at every node, and `Spelled` which
rows of tokens spell a tree.
-/

namespace ExprLang

namespace BinaryOp

/-- The least precedence that the left operand may have without parentheses. -/
def leftFloor (op : BinaryOp) : Nat :=
  if op.groupsRight then op.precedence + 1 else op.precedence

/-- After an operand that is read to the right of one operator, the next operator can take both. -/
theorem leftFloor_le_precedence {op next : BinaryOp} (h : next.precedence < op.rightFloor) :
    next.leftFloor ≤ op.precedence := by
  unfold rightFloor groupsRight at h
  unfold leftFloor groupsRight
  split at h
  next hop =>
    rw [beq_iff_eq] at hop
    subst hop
    split
    next hnext =>
      rw [beq_iff_eq] at hnext
      subst hnext
      exact absurd h (by decide)
    next => omega
  next hop =>
    split
    next hnext =>
      rw [beq_iff_eq] at hnext
      subst hnext
      cases op <;> simp_all [precedence]
    next => omega

theorem precedence_le_leftFloor (op : BinaryOp) : op.precedence ≤ op.leftFloor := by
  unfold leftFloor
  split <;> omega

theorem leftFloor_le_succ (op : BinaryOp) : op.leftFloor ≤ op.precedence + 1 := by
  unfold leftFloor
  split <;> omega

/-- An operator that can take another one as its left operand ends the right operand of that. -/
theorem precedence_lt_rightFloor {op next : BinaryOp} (h : next.leftFloor ≤ op.precedence) :
    next.precedence < op.rightFloor := by
  unfold leftFloor groupsRight at h
  unfold rightFloor groupsRight
  split
  next hop =>
    rw [beq_iff_eq] at hop
    subst hop
    cases next <;> simp_all [precedence]
  next =>
    have hle := next.precedence_le_leftFloor
    unfold leftFloor groupsRight at hle
    omega

end BinaryOp

namespace Expr

/-! ## Levels -/

/-- Whether the expression can have suffixes and be the operand of a sign. -/
def isOperand : Expr → Bool
  | constant .. | var .. | group .. | call .. | member .. | index .. => true
  | _ => false

/-- Whether the expression is an operand with at most one operator at it. -/
def isUnary : Expr → Bool
  | unary .. => true
  | expr => expr.isOperand

/-- Whether the expression is a chain of operators of at least the given precedence. -/
def bindsAt (floor : Nat) : Expr → Bool
  | binary op _ _ => floor ≤ op.precedence
  | expr => expr.isUnary

/-- Whether the expression is a condition with its branches or something that binds tighter. -/
def isTernary : Expr → Bool
  | ternary .. => true
  | expr => expr.bindsAt 0

/-- Whether the expression declares a name. -/
def isDeclaration : Expr → Bool
  | declaration .. => true
  | _ => false

/-- Whether the expression can stand after a point. -/
def isPart : Expr → Bool
  | var .. | call .. => true
  | _ => false

variable {expr : Expr} {floor : Nat}

theorem isUnary_of_isOperand (h : expr.isOperand = true) : expr.isUnary = true := by
  cases expr <;> first | exact h | cases h

theorem bindsAt_of_isUnary (h : expr.isUnary = true) : expr.bindsAt floor = true := by
  cases expr <;> first | exact h | cases h

theorem bindsAt_mono {lower upper : Nat} (h : expr.bindsAt upper = true) (hle : lower ≤ upper) :
    expr.bindsAt lower = true := by
  cases expr with
  | binary op left right => exact decide_eq_true (Nat.le_trans hle (of_decide_eq_true h))
  | _ => exact h

theorem isTernary_of_bindsAt (h : expr.bindsAt floor = true) : expr.isTernary = true := by
  cases expr <;> first | rfl | exact h

theorem isTernary_of_isOperand (h : expr.isOperand = true) : expr.isTernary = true :=
  isTernary_of_bindsAt (bindsAt_of_isUnary (isUnary_of_isOperand h) : expr.bindsAt 0 = true)

theorem isOperand_of_isPart (h : expr.isPart = true) : expr.isOperand = true := by
  cases expr <;> first | rfl | cases h

theorem isOperand_of_isPlace (h : expr.isPlace = true) : expr.isOperand = true := by
  cases expr <;> first | rfl | cases h

theorem isUnary_or_binary (h : expr.bindsAt floor = true) :
    expr.isUnary = true ∨ ∃ op left right, expr = binary op left right := by
  cases expr <;> first | exact .inr ⟨_, _, _, rfl⟩ | exact .inl h

theorem bindsAt_or_ternary (h : expr.isTernary = true) : expr.bindsAt 0 = true ∨
    ∃ condition ifTrue ifFalse, expr = ternary condition ifTrue ifFalse := by
  cases expr <;> first | exact .inr ⟨_, _, _, rfl⟩ | exact .inl h

theorem isTernary_or_assignment (expr : Expr) : expr.isTernary = true ∨
    (∃ kind name, expr = declaration kind name) ∨
      ∃ op target value, expr = assignment op target value := by
  cases expr <;>
    first | exact .inl rfl | exact .inr (.inl ⟨_, _, rfl⟩) | exact .inr (.inr ⟨_, _, _, rfl⟩)

/-! ## The grammar at every node -/

/-- A property of an expression and of everything in it. -/
inductive Everywhere (p : Expr → Prop) : Expr → Prop
  | intro {expr : Expr} (node : p expr)
      (parts : ∀ child ∈ expr.children, Everywhere p child) : Everywhere p expr

namespace Everywhere

variable {p : Expr → Prop}

theorem node (h : Everywhere p expr) : p expr := by
  cases h with
  | intro node _ => exact node

theorem parts (h : Everywhere p expr) : ∀ child ∈ expr.children, Everywhere p child := by
  cases h with
  | intro _ parts => exact parts

theorem imp {weaker : Expr → Prop} (h : Everywhere p expr)
    (himp : ∀ inner, p inner → weaker inner) : Everywhere weaker expr := by
  induction h with
  | intro node _ ih => exact .intro (himp _ node) ih

theorem pair {first second : Expr} (hfirst : Everywhere p first) (hsecond : Everywhere p second) :
    ∀ child ∈ [first, second], Everywhere p child :=
  List.forall_mem_cons.mpr ⟨hfirst, List.forall_mem_singleton.mpr hsecond⟩

end Everywhere

/-- Whether the parts of an expression fit the places where they stand. -/
def Fits : Expr → Prop
  | constant .. | var .. | declaration .. | call .. => True
  | group inner => inner.isTernary = true
  | unary op operand => operand.isOperand = true ∧ (op.mutates = true → operand.isPlace = true)
  | binary op left right =>
    left.bindsAt op.leftFloor = true ∧ right.bindsAt op.rightFloor = true
  | ternary condition ifTrue ifFalse =>
    condition.bindsAt 0 = true ∧ ifTrue.isTernary = true ∧ ifFalse.isTernary = true
  | assignment op target _ =>
    target.isPlace = true ∨ target.isDeclaration = true ∧ op = .assign
  | member target part => target.isOperand = true ∧ part.isPart = true
  | index target position => target.isOperand = true ∧ position.bindsAt 0 = true

/-- Whether an expression has the shape of the grammar at every node. -/
def Grammatical (expr : Expr) : Prop :=
  expr.Everywhere Fits

end Expr

/-! ## Spelling -/

/-- An argument of a call as it is written: the tokens that spell it and perhaps a comma. -/
structure Argument where
  expr : Expr
  tokens : List Token
  comma : Option Token

namespace Argument

/-- The tokens of an argument with its comma. -/
def row (argument : Argument) : List Token :=
  argument.tokens ++ argument.comma.toList

end Argument

/-- The rows of tokens that spell an expression. The commas in calls may be left out. -/
inductive Expr.Spelled : Expr → List Token → Prop
  | constant {token : Token} {kind : LiteralKind}
      (hkind : LiteralKind.ofToken? token.kind = some kind) :
      Spelled (.constant kind token.text) [token]
  | var {name : Token} (hname : name.kind = .identifier) : Spelled (.var name.text) [name]
  | declaration {word name : Token} {kind : DeclarationKind}
      (hword : DeclarationKind.ofToken? word.kind = some kind) (hname : name.kind = .identifier) :
      Spelled (.declaration kind name.text) [word, name]
  | group {opening closing : Token} {inner : Expr} {tokens : List Token}
      (hopening : opening.kind = .leftParen) (hinner : Spelled inner tokens)
      (hclosing : closing.kind = .rightParen) :
      Spelled (.group inner) (opening :: (tokens ++ [closing]))
  | before {sign : Token} {op : UnaryOp} {operand : Expr} {tokens : List Token}
      (hsign : UnaryOp.before? sign.kind = some op) (hoperand : Spelled operand tokens) :
      Spelled (.unary op operand) (sign :: tokens)
  | after {sign : Token} {op : UnaryOp} {operand : Expr} {tokens : List Token}
      (hoperand : Spelled operand tokens) (hsign : UnaryOp.after? sign.kind = some op) :
      Spelled (.unary op operand) (tokens ++ [sign])
  | binary {sign : Token} {op : BinaryOp} {left right : Expr} {first second : List Token}
      (hleft : Spelled left first) (hsign : BinaryOp.ofToken? sign.kind = some op)
      (hright : Spelled right second) : Spelled (.binary op left right) (first ++ sign :: second)
  | ternary {question colon : Token} {condition ifTrue ifFalse : Expr}
      {first second third : List Token} (hcondition : Spelled condition first)
      (hquestion : question.kind = .question) (htrue : Spelled ifTrue second)
      (hcolon : colon.kind = .colon) (hfalse : Spelled ifFalse third) :
      Spelled (.ternary condition ifTrue ifFalse)
        (first ++ question :: (second ++ colon :: third))
  | assignment {sign : Token} {op : AssignOp} {target value : Expr} {first second : List Token}
      (htarget : Spelled target first) (hsign : AssignOp.ofToken? sign.kind = some op)
      (hvalue : Spelled value second) :
      Spelled (.assignment op target value) (first ++ sign :: second)
  | call {name opening closing : Token} {arguments : List Argument}
      (hname : name.kind = .identifier) (hopening : opening.kind = .leftParen)
      (harguments : ∀ argument ∈ arguments, Spelled argument.expr argument.tokens)
      (hcommas : ∀ argument ∈ arguments, ∀ comma ∈ argument.comma, comma.kind = .comma)
      (hclosing : closing.kind = .rightParen) :
      Spelled (.call name.text (arguments.map Argument.expr))
        (name :: opening :: (arguments.flatMap Argument.row ++ [closing]))
  | member {dot : Token} {target part : Expr} {first second : List Token}
      (htarget : Spelled target first) (hdot : dot.kind = .dot) (hpart : Spelled part second) :
      Spelled (.member target part) (first ++ dot :: second)
  | index {opening closing : Token} {target position : Expr} {first second : List Token}
      (htarget : Spelled target first) (hopening : opening.kind = .leftBracket)
      (hposition : Spelled position second) (hclosing : closing.kind = .rightBracket) :
      Spelled (.index target position) (first ++ opening :: (second ++ [closing]))

end ExprLang
