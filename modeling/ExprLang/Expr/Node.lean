import ExprLang.Expr.Basic

/-!
# Nodes of a tree

Equal expressions may stand at several positions of a tree. A node is an expression together with
its position: the tree that it belongs to and the way down to it from the root. `walk` lists the
nodes under a node, and `parentOf?` finds the node that owns the one at a given position.
-/

namespace ExprLang.Expr

/-- The identity of a node: a number for its tree, and which child to take at each step down. -/
structure Position where
  tree : Nat
  path : List Nat
  deriving DecidableEq, Repr, Inhabited

namespace Position

/-- The position of a child. -/
def child (position : Position) (number : Nat) : Position :=
  { position with path := position.path ++ [number] }

end Position

/-- An expression at its position. -/
structure Node where
  position : Position
  expr : Expr
  deriving Repr, Inhabited

theorem sizeOf_lt_of_mem_children {expr child : Expr} (h : child ∈ expr.children) :
    sizeOf child < sizeOf expr := by
  cases expr with
  | call name arguments =>
    have := List.sizeOf_lt_of_mem (show child ∈ arguments from h)
    simp only [call.sizeOf_spec]
    omega
  | _ =>
    simp only [children, List.mem_cons, List.not_mem_nil, or_false] at h <;>
      simp only [group.sizeOf_spec, unary.sizeOf_spec, binary.sizeOf_spec, ternary.sizeOf_spec,
        assignment.sizeOf_spec, member.sizeOf_spec, index.sizeOf_spec] <;>
      grind

/-- What holds of an expression whenever it holds of the parts holds of every expression. -/
theorem of_children {p : Expr → Prop}
    (step : ∀ expr : Expr, (∀ child ∈ expr.children, p child) → p expr) (expr : Expr) : p expr :=
  step expr fun child _ => of_children step child
termination_by sizeOf expr
decreasing_by exact sizeOf_lt_of_mem_children ‹_›

namespace Node

/-- The root of a tree. -/
def root (tree : Nat) (expr : Expr) : Node :=
  ⟨⟨tree, []⟩, expr⟩

/-- The children of a node from left to right. -/
def children (node : Node) : List Node :=
  node.expr.children.mapIdx fun number expr => ⟨node.position.child number, expr⟩

theorem sizeOf_expr_lt_of_mem_children {node child : Node} (h : child ∈ node.children) :
    sizeOf child.expr < sizeOf node.expr := by
  obtain ⟨number, hnumber, rfl⟩ := List.mem_mapIdx.mp h
  exact sizeOf_lt_of_mem_children (List.getElem_mem hnumber)

/-- The node and all nodes under it, each before its children. -/
def walk (node : Node) : List Node :=
  node :: node.children.attach.flatMap fun ⟨child, _⟩ => child.walk
termination_by sizeOf node.expr
decreasing_by exact sizeOf_expr_lt_of_mem_children ‹_›

/-- The node that has a child at the given position, if one at or under this node does. -/
def parentOf? (node : Node) (position : Position) : Option Node :=
  if node.children.any (·.position == position) then some node
  else node.children.attach.findSome? fun ⟨child, _⟩ => child.parentOf? position
termination_by sizeOf node.expr
decreasing_by exact sizeOf_expr_lt_of_mem_children ‹_›

end Node

end ExprLang.Expr
