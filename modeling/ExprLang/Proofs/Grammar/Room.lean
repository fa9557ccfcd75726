import ExprLang.Proofs.Grammar.Shape

/-!
# Levels that reading an expression takes

A construct is read with a number of levels left for nesting. The room of an expression is the least
number with which it can be read: chains of operators and of suffixes take one level for each link,
counted from the head of the chain on, and what stands in a link is read with the levels that are
left there. The head itself is read before any link has been counted.
-/

namespace ExprLang.Expr

/-- The number of operators in the chain that ends with the expression. -/
def operatorCount : Expr → Nat
  | binary _ left _ => left.operatorCount + 1
  | _ => 0

/-- The number of suffixes in the chain that ends with the expression. -/
def suffixCount : Expr → Nat
  | member target _ | index target _ => target.suffixCount + 1
  | _ => 0

/-- The levels between a branch of a condition and the construct that stands there. -/
def ternaryLevels : Expr → Nat
  | ternary .. => 1
  | _ => 2

/-- The levels between an argument of a call and the construct that stands there. -/
def assignmentLevels : Expr → Nat
  | declaration .. | assignment .. => 1
  | ternary .. => 2
  | _ => 3

mutual

/-- The levels that must be left where the construct itself is read. -/
def room : Expr → Nat
  | constant .. | var .. | declaration .. => 0
  | group inner => inner.room + inner.ternaryLevels
  | unary _ operand => operand.room
  -- The left operand is read before this operator takes its level, the right one after it.
  | binary _ left right => max left.room (left.operatorCount + 1 + (right.room + 1))
  | ternary condition ifTrue ifFalse =>
    max (condition.room + 1)
      (max (ifTrue.room + ifTrue.ternaryLevels) (ifFalse.room + ifFalse.ternaryLevels))
  | assignment _ target value =>
    max (if target.isDeclaration then 0 else target.room + target.ternaryLevels)
      (value.room + value.assignmentLevels)
  | call _ arguments => roomAll arguments
  | member target part => max target.room (target.suffixCount + 1 + part.room)
  | index target position =>
    max target.room (target.suffixCount + 1 + (position.room + 1))
termination_by structural expr => expr

/-- The levels that must be left where the arguments of a call are read. -/
def roomAll : List Expr → Nat
  | [] => 0
  | first :: rest => max (first.room + first.assignmentLevels) (roomAll rest)
termination_by structural list => list

end

/-- The levels that must be left where the expression is read as a branch of a condition. -/
def ternaryRoom (expr : Expr) : Nat :=
  expr.room + expr.ternaryLevels

/-- The levels that must be left where the expression is read as a whole. -/
def assignmentRoom (expr : Expr) : Nat :=
  expr.room + expr.assignmentLevels

theorem roomAll_le_iff {list : List Expr} {levels : Nat} :
    roomAll list ≤ levels ↔ ∀ expr ∈ list, expr.assignmentRoom ≤ levels := by
  induction list with
  | nil => simp [roomAll]
  | cons first rest ih =>
      rw [roomAll, List.forall_mem_cons, ← ih]
      exact Nat.max_le

variable {expr : Expr} {floor : Nat}

theorem ternaryLevels_of_bindsAt (h : expr.bindsAt floor = true) : expr.ternaryLevels = 2 := by
  cases expr <;> first | rfl | cases h

theorem assignmentLevels_of_isTernary (h : expr.isTernary = true) :
    expr.assignmentLevels = expr.ternaryLevels + 1 := by
  cases expr <;> first | rfl | cases h

theorem suffixCount_of_isPart (h : expr.isPart = true) : expr.suffixCount = 0 := by
  cases expr <;> first | rfl | cases h

theorem operatorCount_of_isUnary (h : expr.isUnary = true) : expr.operatorCount = 0 := by
  cases expr <;> first | rfl | cases h

end ExprLang.Expr
