import ExprLang.Proofs.Nesting.Bound
import ExprLang.Proofs.Printing.RoundTrip

/-!
# The deepest expressions

The bounds on the nesting of expressions are reached: by assignments inside assignments with few
levels, and else by chains of members inside chains of additions, each with all levels that are
left. So a text within the nesting limit can hold a tree that is far deeper than the limit.
-/

namespace ExprLang

namespace Expr

/-! ## Long chains -/

/-- The expression with a number of members after it. -/
def withMembers : Nat → Expr → Expr
  | 0, target => target
  | count + 1, target => .member (target.withMembers count) (.var "a")

/-- The expression with a number of variables added to it. -/
def withSummands : Nat → Expr → Expr
  | 0, left => left
  | count + 1, left => .binary .add (left.withSummands count) (.var "a")

theorem isName_a : IsName "a" := isName_of_letters (by decide) (by decide) (by decide)

theorem grammatical_a : (var "a").Grammatical := .intro trivial (List.forall_mem_nil _)

theorem lexical_a : (var "a").Lexical := .intro isName_a (List.forall_mem_nil _)

variable {expr : Expr} {levels : Nat}

section Members

theorem isOperand_withMembers (h : expr.isOperand = true) (count : Nat) :
    (expr.withMembers count).isOperand = true := by
  cases count with
  | zero => exact h
  | succ count => rfl

theorem grammatical_withMembers (h : expr.Grammatical) (hoperand : expr.isOperand = true)
    (count : Nat) : (expr.withMembers count).Grammatical := by
  induction count with
  | zero => exact h
  | succ count ih =>
      exact .intro ⟨isOperand_withMembers hoperand count, rfl⟩ (Everywhere.pair ih grammatical_a)

theorem lexical_withMembers (h : expr.Lexical) (count : Nat) :
    (expr.withMembers count).Lexical := by
  induction count with
  | zero => exact h
  | succ count ih => exact .intro trivial (Everywhere.pair ih lexical_a)

theorem suffixCount_withMembers (count : Nat) :
    (expr.withMembers count).suffixCount = expr.suffixCount + count := by
  induction count with
  | zero => rfl
  | succ count ih => rw [withMembers, suffixCount, ih, Nat.add_assoc]

theorem room_withMembers (hcount : expr.suffixCount = 0) {count : Nat} (hroom : expr.room ≤ levels)
    (h : count ≤ levels) : (expr.withMembers count).room ≤ levels := by
  induction count with
  | zero => exact hroom
  | succ count ih =>
      have hle := ih (Nat.le_of_succ_le h)
      rw [withMembers, room, suffixCount_withMembers, hcount, room]
      omega

theorem nesting_withMembers (count : Nat) :
    (expr.withMembers count).nesting = expr.nesting + count := by
  induction count with
  | zero => rfl
  | succ count ih =>
      rw [withMembers, nesting, ih, nesting]
      omega

end Members

section Summands

theorem bindsAt_withSummands (h : expr.isUnary = true) (count : Nat) :
    (expr.withSummands count).bindsAt BinaryOp.add.leftFloor = true := by
  cases count with
  | zero => exact bindsAt_of_isUnary h
  | succ count => rfl

theorem grammatical_withSummands (h : expr.Grammatical) (hunary : expr.isUnary = true)
    (count : Nat) : (expr.withSummands count).Grammatical := by
  induction count with
  | zero => exact h
  | succ count ih =>
      exact .intro ⟨bindsAt_withSummands hunary count, rfl⟩ (Everywhere.pair ih grammatical_a)

theorem lexical_withSummands (h : expr.Lexical) (count : Nat) :
    (expr.withSummands count).Lexical := by
  induction count with
  | zero => exact h
  | succ count ih => exact .intro trivial (Everywhere.pair ih lexical_a)

theorem operatorCount_withSummands (hunary : expr.isUnary = true) (count : Nat) :
    (expr.withSummands count).operatorCount = count := by
  induction count with
  | zero => exact operatorCount_of_isUnary hunary
  | succ count ih => rw [withSummands, operatorCount, ih]

theorem room_withSummands (hunary : expr.isUnary = true) {count : Nat} (hroom : expr.room ≤ levels)
    (h : count + 1 ≤ levels) : (expr.withSummands count).room ≤ levels := by
  induction count with
  | zero => exact hroom
  | succ count ih =>
      have hle := ih (Nat.le_of_succ_le h)
      rw [withSummands, room, operatorCount_withSummands hunary, room]
      omega

theorem nesting_withSummands (count : Nat) :
    (expr.withSummands count).nesting = expr.nesting + count := by
  induction count with
  | zero => rfl
  | succ count ih =>
      rw [withSummands, nesting, ih, nesting]
      omega

end Summands

/-! ## Chains inside chains -/

/-- A chain that is as deep as it can be with the given levels. -/
def deepest : Nat → Expr
  | 0 => .var "a"
  | 1 => withMembers 1 (.var "a")
  | levels + 2 => withSummands (levels + 1) (withMembers (levels + 2) (.group (deepest levels)))

/-- What makes a chain readable with a number of levels. -/
structure IsChain (levels : Nat) (expr : Expr) : Prop where
  bindsAt : expr.bindsAt BinaryOp.add.leftFloor = true
  grammatical : expr.Grammatical
  lexical : expr.Lexical
  room_le : expr.room ≤ levels

theorem isChain_deepest (levels : Nat) : IsChain levels (deepest levels) := by
  fun_induction deepest levels with
  | case1 => exact ⟨rfl, grammatical_a, lexical_a, Nat.zero_le _⟩
  | case2 =>
      exact ⟨rfl, grammatical_withMembers grammatical_a rfl 1, lexical_withMembers lexical_a 1,
        room_withMembers rfl (Nat.zero_le _) (Nat.le_refl _)⟩
  | case3 levels ih =>
      have hgroup : (group (deepest levels)).Grammatical :=
        .intro (isTernary_of_bindsAt ih.bindsAt) (List.forall_mem_singleton.mpr ih.grammatical)
      have hlexical : (group (deepest levels)).Lexical :=
        .intro trivial (List.forall_mem_singleton.mpr ih.lexical)
      have hroom : (group (deepest levels)).room ≤ levels + 2 := by
        rw [room, ternaryLevels_of_bindsAt ih.bindsAt]
        exact Nat.add_le_add_right ih.room_le 2
      have hunary : ((group (deepest levels)).withMembers (levels + 2)).isUnary = true :=
        isUnary_of_isOperand (isOperand_withMembers rfl _)
      exact ⟨bindsAt_withSummands hunary _,
        grammatical_withSummands (grammatical_withMembers hgroup rfl _) hunary _,
        lexical_withSummands (lexical_withMembers hlexical _) _,
        room_withSummands hunary (room_withMembers rfl hroom (Nat.le_refl _)) (Nat.le_refl _)⟩

theorem nesting_deepest (levels : Nat) : (deepest levels).nesting = chainBound levels := by
  fun_induction deepest levels with
  | case1 => rfl
  | case2 => rfl
  | case3 levels ih =>
      rw [nesting_withSummands, nesting_withMembers, nesting, ih]
      unfold chainBound
      rw [headBound]
      omega

theorem IsChain.assignmentRoom_le (h : IsChain levels expr) :
    expr.assignmentRoom ≤ levels + 3 := by
  have hroom := h.room_le
  rw [assignmentRoom, assignmentLevels_of_isTernary (isTernary_of_bindsAt h.bindsAt),
    ternaryLevels_of_bindsAt h.bindsAt]
  omega

/-! ## Assignments inside assignments -/

/-- A declaration with a number of declarations that it is assigned to. -/
def declarations : Nat → Expr
  | 0 => .declaration .let "a"
  | count + 1 => .assignment .assign (.declaration .let "a") (declarations count)

theorem grammatical_declarations (count : Nat) : (declarations count).Grammatical := by
  induction count with
  | zero => exact .intro trivial (List.forall_mem_nil _)
  | succ count ih =>
      exact .intro (.inr ⟨rfl, rfl⟩)
        (Everywhere.pair (.intro trivial (List.forall_mem_nil _)) ih)

theorem lexical_declarations (count : Nat) : (declarations count).Lexical := by
  induction count with
  | zero => exact .intro isName_a (List.forall_mem_nil _)
  | succ count ih =>
      exact .intro trivial (Everywhere.pair (.intro isName_a (List.forall_mem_nil _)) ih)

theorem assignmentRoom_declarations (count : Nat) :
    (declarations count).assignmentRoom = count + 1 := by
  induction count with
  | zero => rfl
  | succ count ih =>
      have hroom : (declarations (count + 1)).assignmentRoom =
          max 0 (declarations count).assignmentRoom + 1 := rfl
      rw [hroom, Nat.zero_max, ih]

theorem nesting_declarations (count : Nat) : (declarations count).nesting = count := by
  induction count with
  | zero => rfl
  | succ count ih => rw [declarations, nesting, ih, nesting, Nat.zero_max]

/-- The bound on the nesting of whole expressions is reached with every number of levels. -/
theorem exists_nesting_eq_wholeBound (h : 1 ≤ levels) : ∃ expr : Expr, expr.Grammatical ∧
    expr.Lexical ∧ expr.assignmentRoom ≤ levels ∧ expr.nesting = wholeBound levels := by
  by_cases hchain : levels - 1 < chainBound (levels - 3)
  · have hlevels : 3 ≤ levels := by
      by_contra hfew
      have hnone : levels - 3 = 0 := by omega
      rw [hnone] at hchain
      exact absurd hchain (Nat.not_lt_zero _)
    have hdeepest := isChain_deepest (levels - 3)
    have hroom := hdeepest.assignmentRoom_le
    rw [Nat.sub_add_cancel hlevels] at hroom
    refine ⟨deepest (levels - 3), hdeepest.grammatical, hdeepest.lexical, hroom, ?_⟩
    rw [nesting_deepest, wholeBound]
    omega
  · refine ⟨declarations (levels - 1), grammatical_declarations _, lexical_declarations _, ?_, ?_⟩
    · rw [assignmentRoom_declarations, Nat.sub_add_cancel h]
    · rw [nesting_declarations, wholeBound]
      omega

end Expr

/-! ## The nesting of parsed texts -/

theorem wholeBound_nestingLimit : Expr.wholeBound nestingLimit = 7937 := by decide

theorem wholeBound_le_nestingLimit_iff {levels : Nat} :
    Expr.wholeBound levels ≤ nestingLimit ↔ levels ≤ 18 := by
  constructor
  · intro h
    by_contra hmany
    have hmono : Expr.wholeBound 19 ≤ Expr.wholeBound levels := Expr.wholeBound_mono (by omega)
    exact absurd (hmono.trans h) (by decide)
  · intro h
    have hmono : Expr.wholeBound levels ≤ Expr.wholeBound 18 := Expr.wholeBound_mono h
    exact hmono.trans (by decide)

theorem nesting_le_of_parse {source : String} {expr : Expr} (h : parse source = .ok expr) :
    expr.nesting ≤ Expr.wholeBound expr.assignmentRoom :=
  (Expr.bounded (spelled_of_parse h).1).whole

theorem height_le_of_parse {source : String} {expr : Expr} (h : parse source = .ok expr) :
    expr.height ≤ 127 * nestingLimit := by
  obtain ⟨hshape, hroom, -⟩ := spelled_of_parse h
  have hnesting := (nesting_le_of_parse h).trans (Expr.wholeBound_mono hroom)
  rw [wholeBound_nestingLimit] at hnesting
  have hheight := Expr.height_le hshape
  have hlevels := expr.one_le_assignmentLevels
  rw [Expr.assignmentRoom] at hroom
  unfold nestingLimit at *
  split at hheight <;> omega

theorem forall_nesting_le_iff {levels : Nat} (hlevels : levels ≤ nestingLimit) (bound : Nat) :
    (∀ (source : String) (expr : Expr), parse source = .ok expr → expr.assignmentRoom ≤ levels →
      expr.nesting ≤ bound) ↔ Expr.wholeBound levels ≤ bound := by
  constructor
  · intro hall
    rcases Nat.eq_zero_or_pos levels with rfl | hpositive
    · exact Nat.zero_le _
    · -- The deepest expression is printed and parsed again.
      obtain ⟨expr, hshape, htext, hroom, hnesting⟩ := Expr.exists_nesting_eq_wholeBound hpositive
      rw [← hnesting]
      exact hall _ _ (parse_print_of_le hshape htext (hroom.trans hlevels)) hroom
  · intro hle source expr h hroom
    exact (nesting_le_of_parse h).trans ((Expr.wholeBound_mono hroom).trans hle)

/-- The limit bounds the steps that the parser goes down on, but not those to the head of a chain:
where a chain ends its levels are given back, and what is folded around it later is not counted
together with it. With these steps an expression that is read within some levels has at most
`wholeBound` of them on a path, and some expression has as many; so the limit bounds them for texts
that take up to 18 levels, and no further. -/
theorem nesting_of_parse {levels : Nat} (hlevels : levels ≤ nestingLimit) :
    (∀ (source : String) (expr : Expr), parse source = .ok expr →
      expr.assignmentRoom ≤ nestingLimit ∧ expr.descent ≤ expr.assignmentRoom ∧
        expr.height ≤ 127 * nestingLimit) ∧
    (∀ bound : Nat, (∀ (source : String) (expr : Expr), parse source = .ok expr →
      expr.assignmentRoom ≤ levels → expr.nesting ≤ bound) ↔ Expr.wholeBound levels ≤ bound) ∧
    ((∀ (source : String) (expr : Expr), parse source = .ok expr → expr.assignmentRoom ≤ levels →
      expr.nesting ≤ nestingLimit) ↔ levels ≤ 18) := by
  refine ⟨?_, forall_nesting_le_iff hlevels, ?_⟩
  · intro source expr h
    have hdescent := expr.descent_le_room
    exact ⟨(spelled_of_parse h).2.1, hdescent.trans (Nat.le_add_right _ _), height_le_of_parse h⟩
  · rw [forall_nesting_le_iff hlevels, wholeBound_le_nestingLimit_iff]

theorem nesting_of_parse_group :
    parse "(1)" = .ok (.group (.constant .int "1")) ∧
      (Expr.group (.constant .int "1")).assignmentRoom ≤ nestingLimit ∧
      (Expr.group (.constant .int "1")).descent ≤ (Expr.group (.constant .int "1")).assignmentRoom ∧
      (Expr.group (.constant .int "1")).height ≤ 127 * nestingLimit ∧
      (Expr.group (.constant .int "1")).nesting ≤ 4 := by
  have hparse : parse "(1)" = .ok (.group (.constant .int "1")) := by cbv
  have hroom : (Expr.group (.constant .int "1")).assignmentRoom ≤ 5 := by decide
  obtain ⟨hsteps, hbounds, -⟩ := nesting_of_parse (show 5 ≤ nestingLimit by decide)
  obtain ⟨hlimit, hdescent, hheight⟩ := hsteps _ _ hparse
  exact ⟨hparse, hlimit, hdescent, hheight, (hbounds 4).mpr (by decide) _ _ hparse hroom⟩

/-- A sum of members is parsed although it is nested deeper than the limit. -/
theorem nestingLimit_lt_nesting :
    parse (((Expr.var "a").withMembers 100).withSummands 100).print =
        .ok (((Expr.var "a").withMembers 100).withSummands 100) ∧
      nestingLimit < (((Expr.var "a").withMembers 100).withSummands 100).nesting := by
  have hunary : ((Expr.var "a").withMembers 100).isUnary = true := rfl
  have hchain : Expr.IsChain (nestingLimit - 3)
      (((Expr.var "a").withMembers 100).withSummands 100) :=
    ⟨Expr.bindsAt_withSummands hunary 100,
      Expr.grammatical_withSummands (Expr.grammatical_withMembers Expr.grammatical_a rfl 100)
        hunary 100,
      Expr.lexical_withSummands (Expr.lexical_withMembers Expr.lexical_a 100) 100,
      Expr.room_withSummands hunary (Expr.room_withMembers rfl (Nat.zero_le _) (by decide))
        (by decide)⟩
  have hroom : (((Expr.var "a").withMembers 100).withSummands 100).assignmentRoom ≤ nestingLimit :=
    hchain.assignmentRoom_le
  refine ⟨parse_print_of_le hchain.grammatical hchain.lexical hroom, ?_⟩
  rw [Expr.nesting_withSummands, Expr.nesting_withMembers]
  decide

end ExprLang
