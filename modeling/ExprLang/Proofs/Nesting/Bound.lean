import ExprLang.Proofs.Grammar.Room
import Mathlib.Order.Monotone.Basic

/-!
# How deep a tree a number of levels allows

Levels are counted while an expression is read, and given back where a chain of operators or of
suffixes ends. A chain is folded around its head, so the steps to the head add up over all chains
on a path, while the levels that are needed for them do not.
-/

namespace ExprLang.Expr

/-! ## Steps on a path -/

mutual

/-- The greatest number of steps on a path to a leaf: steps inside a group, to a branch of a
condition, to an assigned value, to an operand of a binary operator, to the target of a member, and
to the target or the position of an index. -/
def nesting : Expr → Nat
  | constant .. | var .. | declaration .. => 0
  | group inner => inner.nesting + 1
  | unary _ operand => operand.nesting
  | binary _ left right => max left.nesting right.nesting + 1
  | ternary condition ifTrue ifFalse =>
    max condition.nesting (max ifTrue.nesting ifFalse.nesting + 1)
  | assignment _ target value => max target.nesting (value.nesting + 1)
  | call _ arguments => nestingAll arguments
  | member target part => max (target.nesting + 1) part.nesting
  | index target position => max target.nesting position.nesting + 1
termination_by structural expr => expr

/-- The greatest number of steps on a path from an argument of a call to a leaf. -/
def nestingAll : List Expr → Nat
  | [] => 0
  | first :: rest => max first.nesting (nestingAll rest)
termination_by structural list => list

end

mutual

/-- The greatest number of steps on a path to a leaf, those to a left operand and to the target of a
suffix left out. -/
def descent : Expr → Nat
  | constant .. | var .. | declaration .. => 0
  | group inner => inner.descent + 1
  | unary _ operand => operand.descent
  | binary _ left right => max left.descent (right.descent + 1)
  | ternary condition ifTrue ifFalse =>
    max condition.descent (max ifTrue.descent ifFalse.descent + 1)
  | assignment _ target value => max target.descent (value.descent + 1)
  | call _ arguments => descentAll arguments
  | member target part => max target.descent part.descent
  | index target position => max target.descent (position.descent + 1)
termination_by structural expr => expr

/-- The greatest number of such steps from an argument of a call. -/
def descentAll : List Expr → Nat
  | [] => 0
  | first :: rest => max first.descent (descentAll rest)
termination_by structural list => list

end

mutual

/-- The greatest number of steps of all kinds on a path to a leaf. -/
def height : Expr → Nat
  | constant .. | var .. | declaration .. => 0
  | group inner => inner.height + 1
  | unary _ operand => operand.height + 1
  | binary _ left right => max left.height right.height + 1
  | ternary condition ifTrue ifFalse =>
    max condition.height (max ifTrue.height ifFalse.height) + 1
  | assignment _ target value => max target.height value.height + 1
  | call _ arguments => heightAll arguments
  | member target part => max target.height part.height + 1
  | index target position => max target.height position.height + 1
termination_by structural expr => expr

/-- The greatest number of steps on a path from a call through one of its arguments to a leaf. -/
def heightAll : List Expr → Nat
  | [] => 0
  | first :: rest => max (first.height + 1) (heightAll rest)
termination_by structural list => list

end

theorem nestingAll_le_iff {list : List Expr} {bound : Nat} :
    nestingAll list ≤ bound ↔ ∀ expr ∈ list, expr.nesting ≤ bound := by
  induction list with
  | nil => simp [nestingAll]
  | cons first rest ih =>
      rw [nestingAll, List.forall_mem_cons, ← ih]
      exact Nat.max_le

theorem one_le_ternaryLevels (expr : Expr) : 1 ≤ expr.ternaryLevels := by
  unfold ternaryLevels
  split <;> decide

theorem one_le_assignmentLevels (expr : Expr) : 1 ≤ expr.assignmentLevels := by
  unfold assignmentLevels
  split <;> decide

mutual

/-- The levels bound the steps that the parser itself goes down. -/
theorem descent_le_room (expr : Expr) : expr.descent ≤ expr.room := by
  cases expr with
  | constant kind text => exact Nat.le_refl _
  | var name => exact Nat.le_refl _
  | declaration kind name => exact Nat.le_refl _
  | group inner =>
      have hinner := descent_le_room inner
      have hlevels := one_le_ternaryLevels inner
      rw [descent, room]
      omega
  | unary op operand => exact descent_le_room operand
  | binary op left right =>
      have hleft := descent_le_room left
      have hright := descent_le_room right
      rw [descent, room]
      omega
  | ternary condition ifTrue ifFalse =>
      have hcondition := descent_le_room condition
      have htrue := descent_le_room ifTrue
      have hfalse := descent_le_room ifFalse
      have hfirst := one_le_ternaryLevels ifTrue
      have hsecond := one_le_ternaryLevels ifFalse
      rw [descent, room]
      omega
  | assignment op target value =>
      have htarget := descent_le_room target
      have hvalue := descent_le_room value
      have hlevels := one_le_assignmentLevels value
      have hdeclaration : target.isDeclaration = true → target.descent = 0 := by
        intro h
        cases target <;> first | rfl | cases h
      rw [descent, room]
      split
      next h =>
        rw [hdeclaration h]
        omega
      next => omega
  | call name arguments => exact descentAll_le_roomAll arguments
  | member target part =>
      have htarget := descent_le_room target
      have hpart := descent_le_room part
      rw [descent, room]
      omega
  | index target position =>
      have htarget := descent_le_room target
      have hposition := descent_le_room position
      rw [descent, room]
      omega
termination_by structural expr

theorem descentAll_le_roomAll (list : List Expr) : descentAll list ≤ roomAll list := by
  cases list with
  | nil => exact Nat.le_refl _
  | cons first rest =>
      have hfirst := descent_le_room first
      have hrest := descentAll_le_roomAll rest
      rw [descentAll, roomAll]
      omega
termination_by structural list

end

/-! ## The bounds -/

/-- The deepest nesting of the head of a chain with the given levels. Nothing is deeper than a
group, which holds a chain with two levels less. -/
def headBound : Nat → Nat
  | 0 | 1 => 0
  | levels + 2 => (2 * levels - 1) + headBound levels + 1

/-- The deepest nesting of a chain with the given levels. All but one of them can go to operators,
and then all of them again to suffixes of the leftmost operand. -/
def chainBound (levels : Nat) : Nat :=
  (2 * levels - 1) + headBound levels

/-- The deepest nesting of an expression that is read as a whole with the given levels. Each of them
can go to an assignment; all but three are left to a chain. -/
def wholeBound (levels : Nat) : Nat :=
  max (levels - 1) (chainBound (levels - 3))

theorem headBound_succ_succ (levels : Nat) : headBound (levels + 2) = chainBound levels + 1 := rfl

theorem headBound_mono : Monotone headBound := by
  apply monotone_nat_of_le_succ
  intro levels
  fun_induction headBound levels with
  | case1 => exact Nat.le_refl _
  | case2 => exact Nat.zero_le _
  | case3 levels ih =>
      rw [headBound]
      omega

theorem chainBound_strictMono : StrictMono chainBound := by
  apply strictMono_nat_of_lt_succ
  intro levels
  have hhead : headBound levels ≤ headBound (levels + 1) := headBound_mono (Nat.le_succ _)
  unfold chainBound
  omega

theorem le_chainBound (levels : Nat) : levels ≤ chainBound levels := by
  unfold chainBound
  omega

theorem wholeBound_mono : Monotone wholeBound := by
  intro fewer levels hle
  have hchain : chainBound (fewer - 3) ≤ chainBound (levels - 3) :=
    chainBound_strictMono.monotone (Nat.sub_le_sub_right hle 3)
  unfold wholeBound
  omega

/-! ## The bounds hold -/

/-- The bounds on the nesting of an expression on each level that it has. -/
structure Bounded (expr : Expr) : Prop where
  operand : expr.isOperand = true →
    expr.suffixCount ≤ expr.room ∧ expr.nesting ≤ expr.suffixCount + headBound expr.room
  chain : expr.bindsAt 0 = true →
    expr.operatorCount ≤ expr.room - 1 ∧
      expr.nesting ≤ expr.operatorCount + expr.room + headBound expr.room
  ternary : expr.isTernary = true →
    2 ≤ expr.ternaryRoom ∧ expr.nesting ≤ chainBound (expr.ternaryRoom - 2)
  whole : expr.nesting ≤ wholeBound expr.assignmentRoom

variable {expr : Expr}

theorem Bounded.chain_le (h : expr.Bounded) {floor : Nat} (hbinds : expr.bindsAt floor = true) :
    expr.nesting ≤ chainBound expr.room := by
  obtain ⟨hcount, hnesting⟩ := h.chain (bindsAt_mono hbinds (Nat.zero_le _))
  unfold chainBound
  omega

/-- What stands in a call is not deeper than what stands in a group. -/
theorem Bounded.le_headBound (h : expr.Bounded) {levels : Nat}
    (hroom : expr.assignmentRoom ≤ levels) : expr.nesting ≤ headBound levels := by
  have hnesting := h.whole
  unfold wholeBound at hnesting
  have hlevels := expr.one_le_assignmentLevels
  have hpositive : 1 ≤ expr.assignmentRoom := by
    rw [assignmentRoom]
    omega
  refine le_trans ?_ (headBound_mono hroom)
  rcases hcase : expr.assignmentRoom with _ | _ | fewer
  · omega
  · rw [hcase] at hnesting
    exact hnesting
  · rw [hcase] at hnesting
    rw [headBound_succ_succ]
    have hle := le_chainBound fewer
    have hmono : chainBound (fewer + 1 + 1 - 3) ≤ chainBound fewer :=
      chainBound_strictMono.monotone (by omega)
    omega

theorem operand_bounded (hoperand : expr.isOperand = true) (hfits : expr.Fits)
    (hchildren : ∀ child ∈ expr.children, child.Bounded) :
    expr.suffixCount ≤ expr.room ∧ expr.nesting ≤ expr.suffixCount + headBound expr.room := by
  cases expr with
  | constant kind text => exact ⟨Nat.zero_le _, Nat.zero_le _⟩
  | var name => exact ⟨Nat.zero_le _, Nat.zero_le _⟩
  | group inner =>
      obtain ⟨hroom, hnesting⟩ := (hchildren inner (by simp [children])).ternary hfits
      obtain ⟨fewer, hfewer⟩ := Nat.exists_eq_add_of_le' hroom
      have hsame : (group inner).room = fewer + 2 := hfewer
      rw [hfewer, Nat.add_sub_cancel] at hnesting
      have hcount : (group inner).suffixCount = 0 := rfl
      rw [nesting, hcount, hsame, headBound_succ_succ]
      omega
  | call name list =>
      have hcount : (call name list).suffixCount = 0 := rfl
      refine ⟨Nat.zero_le _, ?_⟩
      rw [nesting, hcount, Nat.zero_add, nestingAll_le_iff]
      intro argument hargument
      refine (hchildren argument hargument).le_headBound ?_
      rw [room]
      exact roomAll_le_iff.mp (Nat.le_refl _) argument hargument
  | member target part =>
      have hpart := isOperand_of_isPart hfits.2
      have hcount := suffixCount_of_isPart hfits.2
      obtain ⟨htargetCount, htarget⟩ := (hchildren target (by simp [children])).operand hfits.1
      obtain ⟨-, hpart⟩ := (hchildren part (by simp [children])).operand hpart
      have hroom : (member target part).room =
          max target.room (target.suffixCount + 1 + part.room) := by rw [room]
      have hleft : headBound target.room ≤ headBound (member target part).room :=
        headBound_mono (by omega)
      have hright : headBound part.room ≤ headBound (member target part).room :=
        headBound_mono (by omega)
      rw [nesting, suffixCount]
      omega
  | index target position =>
      obtain ⟨htargetCount, htarget⟩ := (hchildren target (by simp [children])).operand hfits.1
      -- What stands in brackets is a chain of its own, as what stands in a group is.
      have hposition := (hchildren position (by simp [children])).chain_le hfits.2
      have hroom : (index target position).room =
          max target.room (target.suffixCount + 1 + (position.room + 1)) := by rw [room]
      have hleft : headBound target.room ≤ headBound (index target position).room :=
        headBound_mono (by omega)
      have hright : headBound (position.room + 2) ≤ headBound (index target position).room :=
        headBound_mono (by omega)
      rw [headBound_succ_succ] at hright
      rw [nesting, suffixCount]
      omega
  | _ => cases hoperand

theorem chain_bounded (hchain : expr.bindsAt 0 = true) (hfits : expr.Fits)
    (hchildren : ∀ child ∈ expr.children, child.Bounded) :
    expr.operatorCount ≤ expr.room - 1 ∧
      expr.nesting ≤ expr.operatorCount + expr.room + headBound expr.room := by
  rcases isUnary_or_binary hchain with hunary | ⟨op, left, right, rfl⟩
  · have hbound : ∃ count, count ≤ expr.room ∧ expr.nesting ≤ count + headBound expr.room := by
      cases expr with
      | unary op operand => exact ⟨_, (hchildren operand (by simp [children])).operand hfits.1⟩
      | _ => exact ⟨_, operand_bounded hunary hfits hchildren⟩
    obtain ⟨count, hcount, hnesting⟩ := hbound
    rw [operatorCount_of_isUnary hunary]
    omega
  · obtain ⟨hleftCount, hleft⟩ := (hchildren left (by simp [children])).chain
      (bindsAt_mono hfits.1 (Nat.zero_le _))
    -- The right operand has two levels less, so it is not deeper than what a group would hold.
    have hright := (hchildren right (by simp [children])).chain_le hfits.2
    have hroom : (binary op left right).room =
        max left.room (left.operatorCount + 1 + (right.room + 1)) := by rw [room]
    have hfirst : headBound left.room ≤ headBound (binary op left right).room :=
      headBound_mono (by omega)
    have hsecond : headBound (right.room + 2) ≤ headBound (binary op left right).room :=
      headBound_mono (by omega)
    rw [headBound_succ_succ] at hsecond
    rw [nesting, operatorCount]
    omega

theorem ternary_bounded (hternary : expr.isTernary = true) (hfits : expr.Fits)
    (hchildren : ∀ child ∈ expr.children, child.Bounded) :
    2 ≤ expr.ternaryRoom ∧ expr.nesting ≤ chainBound (expr.ternaryRoom - 2) := by
  rcases bindsAt_or_ternary hternary with hchain | ⟨condition, ifTrue, ifFalse, rfl⟩
  · obtain ⟨hcount, hnesting⟩ := chain_bounded hchain hfits hchildren
    rw [ternaryRoom, ternaryLevels_of_bindsAt hchain, Nat.add_sub_cancel, chainBound]
    omega
  · have hcondition := (hchildren condition (by simp [children])).chain_le hfits.1
    obtain ⟨htrueRoom, htrue⟩ := (hchildren ifTrue (by simp [children])).ternary hfits.2.1
    obtain ⟨hfalseRoom, hfalse⟩ := (hchildren ifFalse (by simp [children])).ternary hfits.2.2
    have hroom : (ternary condition ifTrue ifFalse).ternaryRoom =
        max (condition.room + 1) (max ifTrue.ternaryRoom ifFalse.ternaryRoom) + 1 := rfl
    have hfirst : chainBound condition.room ≤
        chainBound ((ternary condition ifTrue ifFalse).ternaryRoom - 2) :=
      chainBound_strictMono.monotone (by omega)
    have hsecond : chainBound (ifTrue.ternaryRoom - 2) <
        chainBound ((ternary condition ifTrue ifFalse).ternaryRoom - 2) :=
      chainBound_strictMono (by omega)
    have hthird : chainBound (ifFalse.ternaryRoom - 2) <
        chainBound ((ternary condition ifTrue ifFalse).ternaryRoom - 2) :=
      chainBound_strictMono (by omega)
    rw [nesting]
    omega

theorem assignment_bounded (hfits : expr.Fits)
    (hchildren : ∀ child ∈ expr.children, child.Bounded) :
    expr.nesting ≤ wholeBound expr.assignmentRoom := by
  rcases isTernary_or_assignment expr with hternary | ⟨kind, name, rfl⟩ | ⟨op, target, value, rfl⟩
  · obtain ⟨hroom, hnesting⟩ := ternary_bounded hternary hfits hchildren
    have hsame : expr.assignmentRoom = expr.ternaryRoom + 1 := by
      rw [assignmentRoom, assignmentLevels_of_isTernary hternary]
      rfl
    rw [hsame]
    exact hnesting.trans (Nat.le_max_right _ _)
  · exact Nat.zero_le _
  · have hvalue := (hchildren value (by simp [children])).whole
    unfold wholeBound at hvalue ⊢
    have hpositive : 1 ≤ value.assignmentRoom :=
      (one_le_assignmentLevels value).trans (Nat.le_add_left _ _)
    have hroom : (assignment op target value).assignmentRoom =
        max (if target.isDeclaration then 0 else target.ternaryRoom) value.assignmentRoom + 1 :=
      rfl
    have htarget : target.nesting ≤
        chainBound ((assignment op target value).assignmentRoom - 3) := by
      rcases hfits with hplace | ⟨hdeclaration, -⟩
      · have hnot : ¬ target.isDeclaration = true := by
          cases target <;> first | exact Bool.false_ne_true | cases hplace
        obtain ⟨-, hnesting⟩ := (hchildren target (by simp [children])).ternary
          (isTernary_of_isOperand (isOperand_of_isPlace hplace))
        rw [if_neg hnot] at hroom
        exact hnesting.trans (chainBound_strictMono.monotone (by omega))
      · cases target <;> first | exact Nat.zero_le _ | cases hdeclaration
    have hless : chainBound (value.assignmentRoom - 3) <
        max (value.assignmentRoom) (chainBound (value.assignmentRoom - 2)) := by
      by_cases hsmall : value.assignmentRoom ≤ 2
      · have hzero : value.assignmentRoom - 3 = 0 := by omega
        rw [hzero]
        exact Nat.lt_of_lt_of_le hpositive (Nat.le_max_left _ _)
      · exact Nat.lt_of_lt_of_le (chainBound_strictMono (by omega)) (Nat.le_max_right _ _)
    have hmono : chainBound (value.assignmentRoom - 2) ≤
        chainBound ((assignment op target value).assignmentRoom - 3) :=
      chainBound_strictMono.monotone (by omega)
    rw [nesting]
    omega

/-- An expression of the grammar's shape is nested no deeper than its room allows. -/
theorem bounded (hshape : expr.Grammatical) : expr.Bounded := by
  induction hshape with
  | intro hfits _ ih =>
      exact ⟨fun hoperand => operand_bounded hoperand hfits ih,
        fun hchain => chain_bounded hchain hfits ih,
        fun hternary => ternary_bounded hternary hfits ih, assignment_bounded hfits ih⟩

/-! ## All steps -/

theorem heightAll_le_iff {list : List Expr} {bound : Nat} :
    heightAll list ≤ bound ↔ ∀ expr ∈ list, expr.height + 1 ≤ bound := by
  induction list with
  | nil => simp [heightAll]
  | cons first rest ih =>
      rw [heightAll, List.forall_mem_cons, ← ih]
      exact Nat.max_le

/-- A step that is not counted takes a level, but for the one from an operator to its operand. -/
theorem height_le (hshape : expr.Grammatical) :
    expr.height ≤ 2 * expr.nesting + 2 * expr.room + (if expr.isOperand then 0 else 1) := by
  induction hshape with
  | @intro expr hfits _ ih =>
      have hchild (child : Expr) (hmem : child ∈ expr.children) :
          child.height ≤ 2 * child.nesting + 2 * child.room + 1 := by
        have hle := ih child hmem
        split at hle <;> omega
      cases expr with
      | constant kind text => exact Nat.zero_le _
      | var name => exact Nat.zero_le _
      | declaration kind name => exact Nat.zero_le _
      | group inner =>
          have hinner := hchild inner (by simp [children])
          rw [height, nesting, room]
          omega
      | unary op operand =>
          -- This step takes no level, but the operand has no operator at it.
          have hoperand := ih operand (by simp [children])
          rw [if_pos hfits.1] at hoperand
          have hnone : (if (unary op operand).isOperand then 0 else 1) = 1 := rfl
          rw [height, nesting, room, hnone]
          omega
      | binary op left right =>
          have hleft := hchild left (by simp [children])
          have hright := hchild right (by simp [children])
          rw [height, nesting, room]
          omega
      | ternary condition ifTrue ifFalse =>
          have hcondition := hchild condition (by simp [children])
          have htrue := hchild ifTrue (by simp [children])
          have hfalse := hchild ifFalse (by simp [children])
          rw [height, nesting, room]
          omega
      | assignment op target value =>
          have hvalue := hchild value (by simp [children])
          have hlevels := value.one_le_assignmentLevels
          have htarget : target.height ≤ 2 * target.nesting +
              2 * (if target.isDeclaration then 0 else target.room + target.ternaryLevels) := by
            rcases hfits with hplace | ⟨hdeclaration, -⟩
            · have hle := ih target (by simp [children])
              have hnot : ¬ target.isDeclaration = true := by
                cases target <;> first | exact Bool.false_ne_true | cases hplace
              rw [if_pos (isOperand_of_isPlace hplace)] at hle
              rw [if_neg hnot]
              omega
            · cases target <;> first | exact Nat.zero_le _ | cases hdeclaration
          have hnone : (if (assignment op target value).isOperand then 0 else 1) = 1 := rfl
          rw [height, nesting, room, hnone]
          omega
      | call name list =>
          have hroom : (call name list).room = roomAll list := by rw [room]
          have hnesting : (call name list).nesting = nestingAll list := by rw [nesting]
          rw [height, heightAll_le_iff]
          intro argument hargument
          have hle := hchild argument hargument
          have hlevels := argument.one_le_assignmentLevels
          have hargumentRoom := roomAll_le_iff.mp (Nat.le_refl _) argument hargument
          have hargumentNesting := nestingAll_le_iff.mp (Nat.le_refl _) argument hargument
          rw [assignmentRoom] at hargumentRoom
          omega
      | member target part =>
          have htarget := ih target (by simp [children])
          have hpart := ih part (by simp [children])
          rw [if_pos hfits.1] at htarget
          rw [if_pos (isOperand_of_isPart hfits.2)] at hpart
          rw [height, nesting, room]
          omega
      | index target position =>
          have htarget := ih target (by simp [children])
          have hposition := hchild position (by simp [children])
          rw [if_pos hfits.1] at htarget
          rw [height, nesting, room]
          omega

end ExprLang.Expr
