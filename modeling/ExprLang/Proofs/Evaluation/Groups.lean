import ExprLang.Evaluation.Evaluate
import ExprLang.Expr.Node
import ExprLang.Proofs.Grammar.Parsed

/-!
# Groups are transparent

A group hands its place in the tree to what stands in it. Evaluation passes through a group wherever
it asks for a value; only under a step, before an assignment and after a point does it look at the
expression itself, and there no text spells a group. So a parsed expression and the same expression
without its groups have the same evaluation.
-/

namespace ExprLang.Expr

/-! ## Taking the groups out -/

mutual

/-- The expression with every group replaced by what stands in it. -/
def withoutGroups : Expr → Expr
  | constant kind text => constant kind text
  | var name => var name
  | declaration kind name => declaration kind name
  | group inner => inner.withoutGroups
  | unary op operand => unary op operand.withoutGroups
  | binary op left right => binary op left.withoutGroups right.withoutGroups
  | ternary condition ifTrue ifFalse =>
    ternary condition.withoutGroups ifTrue.withoutGroups ifFalse.withoutGroups
  | assignment op target value => assignment op target.withoutGroups value.withoutGroups
  | call name arguments => call name (withoutGroupsAll arguments)
  | member target part => member target.withoutGroups part.withoutGroups
  | index target position => index target.withoutGroups position.withoutGroups
termination_by structural expr => expr

/-- The arguments of a call, each without its groups. -/
def withoutGroupsAll : List Expr → List Expr
  | [] => []
  | argument :: rest => argument.withoutGroups :: withoutGroupsAll rest
termination_by structural exprs => exprs

end

variable {expr : Expr}

theorem withoutGroupsAll_eq_map (list : List Expr) :
    withoutGroupsAll list = list.map withoutGroups := by
  induction list with
  | nil => rfl
  | cons argument rest ih => rw [withoutGroupsAll, ih, List.map_cons]

theorem eq_group_of_kind (h : expr.kind = .group) : ∃ inner, expr = group inner := by
  cases expr <;> first | exact ⟨_, rfl⟩ | cases h

/-- Only a group changes its sort. -/
theorem kind_withoutGroups (h : expr.kind ≠ .group) : expr.withoutGroups.kind = expr.kind := by
  cases expr <;> first | rfl | exact absurd rfl h

theorem children_withoutGroups (h : expr.kind ≠ .group) :
    expr.withoutGroups.children = expr.children.map withoutGroups := by
  cases expr with
  | group inner => exact absurd rfl h
  | call name arguments => exact withoutGroupsAll_eq_map arguments
  | _ => rfl

/-- No group is left. -/
theorem everywhere_withoutGroups (expr : Expr) :
    expr.withoutGroups.Everywhere (·.kind ≠ .group) := by
  induction expr using of_children with
  | step expr ih =>
      by_cases hgroup : expr.kind = .group
      · obtain ⟨inner, rfl⟩ := eq_group_of_kind hgroup
        exact ih inner (List.mem_singleton_self inner)
      · refine .intro ((kind_withoutGroups hgroup).trans_ne hgroup) ?_
        rw [children_withoutGroups hgroup, List.forall_mem_map]
        exact ih

/-! ## Evaluation -/

/-- Whether no group stands where evaluation looks at the expression itself: under a step, before an
assignment and after a point. -/
def Bare : Expr → Prop
  | unary op operand => op.mutates = true → operand.kind ≠ .group
  | assignment _ target _ => target.kind ≠ .group
  | member _ part => part.kind ≠ .group
  | _ => True

/-- What has a property that no group has is none. -/
theorem kind_ne_group {p : Expr → Bool} (hgroup : ∀ inner, p (group inner) = false)
    (h : p expr = true) : expr.kind ≠ .group := by
  intro hkind
  obtain ⟨inner, rfl⟩ := eq_group_of_kind hkind
  exact absurd h (Bool.eq_false_iff.mp (hgroup inner))

/-- The grammar has no group in those places. -/
theorem Fits.bare (h : expr.Fits) : expr.Bare := by
  cases expr with
  | unary op operand => exact fun hmutates => kind_ne_group (fun _ => rfl) (h.2 hmutates)
  | assignment op target value =>
      rcases h with hplace | ⟨hdeclaration, -⟩
      · exact kind_ne_group (fun _ => rfl) hplace
      · exact kind_ne_group (fun _ => rfl) hdeclaration
  | member target part => exact kind_ne_group (fun _ => rfl) h.2
  | _ => trivial

section Mode

variable (mode : LogicMode)

mutual

/-- The evaluation is the same without the groups. -/
theorem evaluate_withoutGroups (expr : Expr) (h : expr.Everywhere Bare) :
    expr.withoutGroups.evaluate mode = expr.evaluate mode := by
  cases expr with
  | constant kind text => rfl
  | var name => rfl
  | declaration kind name => rfl
  | group inner => exact evaluate_withoutGroups inner (h.parts _ (.head _))
  | unary op operand =>
      rw [withoutGroups, evaluate, evaluate]
      split
      next hmutates =>
        rw [evaluatePlace_withoutGroups operand (h.parts _ (.head _)) (h.node hmutates)]
      next => rw [evaluate_withoutGroups operand (h.parts _ (.head _))]
  | binary op left right =>
      rw [withoutGroups, evaluate, evaluate, evaluate_withoutGroups left (h.parts _ (.head _)),
        evaluate_withoutGroups right (h.parts _ (.tail _ (.head _)))]
  | ternary condition ifTrue ifFalse =>
      rw [withoutGroups, evaluate, evaluate, evaluate_withoutGroups condition (h.parts _ (.head _)),
        evaluate_withoutGroups ifTrue (h.parts _ (.tail _ (.head _))),
        evaluate_withoutGroups ifFalse (h.parts _ (.tail _ (.tail _ (.head _))))]
  | assignment op target value =>
      rw [withoutGroups, evaluate, evaluate,
        evaluatePlace_withoutGroups target (h.parts _ (.head _)) h.node,
        evaluate_withoutGroups value (h.parts _ (.tail _ (.head _)))]
  | call name arguments =>
      rw [withoutGroups, evaluate, evaluate, evaluateAll_withoutGroups arguments h.parts]
  | member target part =>
      rw [withoutGroups, evaluate, evaluate, evaluate_withoutGroups target (h.parts _ (.head _))]
      -- What follows the point is not evaluated as an expression: it names or calls.
      cases part with
      | group inner => exact absurd rfl h.node
      | call name arguments =>
          have hpart := h.parts _ (.tail _ (.head _))
          simp only [withoutGroups, evaluateAll_withoutGroups arguments hpart.parts]
      | _ => rfl
  | index target position =>
      rw [withoutGroups, evaluate, evaluate, evaluate_withoutGroups target (h.parts _ (.head _)),
        evaluate_withoutGroups position (h.parts _ (.tail _ (.head _)))]
termination_by structural expr

theorem evaluatePlace_withoutGroups (target : Expr) (h : target.Everywhere Bare)
    (hgroup : target.kind ≠ .group) :
    target.withoutGroups.evaluatePlace mode = target.evaluatePlace mode := by
  cases target with
  | group inner => exact absurd rfl hgroup
  | member target part =>
      cases part with
      | group inner => exact absurd rfl h.node
      | var name =>
          rw [withoutGroups, withoutGroups, evaluatePlace, evaluatePlace,
            evaluate_withoutGroups target (h.parts _ (.head _))]
      | _ => rfl
  | index target position =>
      rw [withoutGroups, evaluatePlace, evaluatePlace,
        evaluate_withoutGroups target (h.parts _ (.head _)),
        evaluate_withoutGroups position (h.parts _ (.tail _ (.head _)))]
  | _ => rfl
termination_by structural target

theorem evaluateAll_withoutGroups (list : List Expr) (h : ∀ part ∈ list, part.Everywhere Bare) :
    evaluateAll mode (withoutGroupsAll list) = evaluateAll mode list := by
  cases list with
  | nil => rfl
  | cons argument rest =>
      rw [withoutGroupsAll, evaluateAll, evaluateAll,
        evaluate_withoutGroups argument (h _ (.head _)),
        evaluateAll_withoutGroups rest fun part hpart => h part (.tail _ hpart)]
termination_by structural list

end

end Mode

/-- A parsed expression has the same evaluation without its groups: the same value or error, and the
same environment and objects after it. -/
theorem run_withoutGroups_of_parse {source : String} (h : parse source = .ok expr) :
    expr.withoutGroups.Everywhere (·.kind ≠ .group) ∧
      ∀ (mode : LogicMode) (machine : Machine),
        (expr.withoutGroups.evaluate mode).run machine = (expr.evaluate mode).run machine := by
  have hbare : expr.Everywhere Bare := (spelled_of_parse h).1.imp fun _ => Fits.bare
  refine ⟨everywhere_withoutGroups expr, fun mode machine => ?_⟩
  rw [evaluate_withoutGroups mode expr hbare]

set_option maxRecDepth 4096 in
/-- Groups stand in the target of an index, in the index and around both operands of the value. -/
theorem run_withoutGroups_of_parse_index :
    let expr : Expr := .assignment .add (.index (.group (.var "a")) (.group (.var "i")))
      (.binary .multiply (.group (.group (.constant .int "1"))) (.group (.constant .int "2")))
    let bare : Expr := .assignment .add (.index (.var "a") (.var "i"))
      (.binary .multiply (.constant .int "1") (.constant .int "2"))
    parse "(a)[(i)] += ((1)) * (2)" = .ok expr ∧ expr.withoutGroups = bare ∧
      bare.Everywhere (·.kind ≠ .group) ∧
      ∀ (mode : LogicMode) (machine : Machine),
        (bare.evaluate mode).run machine = (expr.evaluate mode).run machine := by
  intro expr bare
  have hparse : parse "(a)[(i)] += ((1)) * (2)" = .ok expr := by cbv
  exact ⟨hparse, rfl, run_withoutGroups_of_parse hparse⟩

/-- A group under a step is refused, where the name in it would be stepped. -/
example : (unary .incrementAfter (group (var "i"))).evaluate .eager =
    throw (.notAssignable .group) := by
  rfl

end ExprLang.Expr
