import ExprLang.Expr.Node

/-!
# Owners of nodes

A position leads to one expression of its tree, also where equal expressions stand at others. A walk
visits every position once, and in the order of a text: each node before what is under it, and that
from left to right. The owner that is found for a position is the node that has a child there, so
the root has none, nor has anything outside the tree.
-/

namespace ExprLang.Expr

/-- The expression at the end of a way down. -/
def part? (expr : Expr) : List Nat → Option Expr
  | [] => some expr
  | number :: path => expr.children[number]?.bind fun child => child.part? path

theorem Position.eq_of_child {position other : Position} {number another : Nat}
    (h : position.child number = other.child another) : position = other := by
  obtain ⟨tree, path⟩ := position
  obtain ⟨root, way⟩ := other
  obtain ⟨htree, hpath⟩ := Position.mk.inj h
  exact congr (congrArg mk htree) (List.append_inj_left' hpath rfl)

namespace Node

variable {node other owner : Node} {position : Position}

/-- What holds of a node whenever it holds of its children holds of every node. -/
theorem of_children {p : Node → Prop}
    (step : ∀ node : Node, (∀ child ∈ node.children, p child) → p node) (node : Node) : p node :=
  step node fun child _ => of_children step child
termination_by sizeOf node.expr
decreasing_by exact sizeOf_expr_lt_of_mem_children ‹_›

theorem walk_eq (node : Node) : node.walk = node :: node.children.flatMap walk := by
  rw [walk, List.flatMap_subtype (g := walk) fun _ _ => rfl, List.unattach_attach]

theorem parentOf?_eq (node : Node) (position : Position) : node.parentOf? position =
    if node.children.any (·.position == position) then some node
    else node.children.findSome? (·.parentOf? position) := by
  rw [parentOf?, List.findSome?_subtype (g := fun child => child.parentOf? position) fun _ _ => rfl,
    List.unattach_attach]

theorem mem_children_iff :
    other ∈ node.children ↔
      ∃ number, other.position = node.position.child number ∧
        node.expr.children[number]? = some other.expr := by
  obtain ⟨place, expr⟩ := other
  rw [children, List.mem_mapIdx]
  constructor
  · rintro ⟨number, hnumber, hchild⟩
    cases hchild
    exact ⟨number, rfl, List.getElem?_eq_getElem hnumber⟩
  · rintro ⟨number, rfl, hexpr⟩
    obtain ⟨hnumber, rfl⟩ := List.getElem?_eq_some_iff.mp hexpr
    exact ⟨number, hnumber, rfl⟩

/-! ## The walk -/

theorem self_mem_walk (node : Node) : node ∈ node.walk := by
  rw [walk_eq]
  exact List.mem_cons_self

theorem mem_walk_of_child {child : Node} (hchild : child ∈ node.children)
    (h : other ∈ child.walk) : other ∈ node.walk := by
  rw [walk_eq]
  exact List.mem_cons_of_mem _ (List.mem_flatMap.mpr ⟨child, hchild, h⟩)

theorem eq_or_exists_of_mem_walk (h : other ∈ node.walk) :
    other = node ∨ ∃ child ∈ node.children, other ∈ child.walk := by
  rw [walk_eq] at h
  exact (List.mem_cons.mp h).imp_right List.mem_flatMap.mp

/-- A node is visited exactly if it stands at the end of a way down. -/
theorem mem_walk_iff : other ∈ node.walk ↔ ∃ path,
    other.position = { node.position with path := node.position.path ++ path } ∧
      node.expr.part? path = some other.expr := by
  induction node using of_children with
  | step node ih =>
    constructor
    · intro h
      rcases eq_or_exists_of_mem_walk h with rfl | ⟨child, hchild, hother⟩
      · exact ⟨[], by rw [List.append_nil], rfl⟩
      · obtain ⟨path, hposition, hpart⟩ := (ih child hchild).mp hother
        obtain ⟨number, hplace, hexpr⟩ := mem_children_iff.mp hchild
        refine ⟨number :: path, ?_, ?_⟩
        · rw [hposition, hplace, Position.child, List.append_assoc]
          rfl
        · rw [part?, hexpr, Option.bind_some, hpart]
    · rintro ⟨path, hposition, hpart⟩
      cases path with
      | nil =>
          obtain ⟨place, expr⟩ := other
          rw [List.append_nil] at hposition
          obtain rfl : place = node.position := hposition
          cases hpart
          exact node.self_mem_walk
      | cons number path =>
          rw [part?] at hpart
          obtain ⟨inner, hinner, hpart⟩ := Option.bind_eq_some_iff.mp hpart
          have hchild : ⟨node.position.child number, inner⟩ ∈ node.children :=
            mem_children_iff.mpr ⟨number, rfl, hinner⟩
          refine mem_walk_of_child hchild ((ih _ hchild).mpr ⟨path, ?_, hpart⟩)
          rw [hposition, Position.child, List.append_assoc]
          rfl

/-- No two nodes that are visited have the same position. -/
theorem eq_of_position_eq (h : other ∈ node.walk) (howner : owner ∈ node.walk)
    (hposition : other.position = owner.position) : other = owner := by
  obtain ⟨path, hpath, hpart⟩ := mem_walk_iff.mp h
  obtain ⟨more, hmore, hpart'⟩ := mem_walk_iff.mp howner
  rw [hpath, hmore] at hposition
  obtain rfl := List.append_cancel_left (congrArg Position.path hposition)
  obtain ⟨place, expr⟩ := other
  obtain ⟨place', expr'⟩ := owner
  cases hpath.trans hmore.symm
  cases hpart.symm.trans hpart'
  rfl

/-- Each node is visited before what is under it, and that from left to right. -/
theorem pairwise_walk (node : Node) :
    node.walk.Pairwise fun first second => first.position.path < second.position.path := by
  induction node using of_children with
  | step node ih =>
    rw [walk_eq, List.pairwise_cons, List.pairwise_flatMap]
    refine ⟨?_, ih, ?_⟩
    · intro other hother
      obtain ⟨child, hchild, hother⟩ := List.mem_flatMap.mp hother
      obtain ⟨number, hplace, -⟩ := mem_children_iff.mp hchild
      obtain ⟨path, hposition, -⟩ := mem_walk_iff.mp hother
      rw [hposition, hplace, Position.child, List.append_assoc]
      have hless : node.position.path ++ [] < node.position.path ++ number :: path :=
        List.append_left_lt (List.nil_lt_cons number path)
      rwa [List.append_nil] at hless
    · rw [List.pairwise_iff_getElem]
      intro first second hfirst hsecond hless other hother another hanother
      obtain ⟨path, hposition, -⟩ := mem_walk_iff.mp hother
      obtain ⟨more, hmore, -⟩ := mem_walk_iff.mp hanother
      rw [hposition, hmore]
      simp only [children, List.getElem_mapIdx, Position.child, List.append_assoc]
      apply List.append_left_lt
      exact List.Lex.rel hless

/-! ## Owners -/

theorem exists_owner_of_mem_walk (h : other ∈ node.walk) :
    other = node ∨ ∃ owner ∈ node.walk, other ∈ owner.children := by
  induction node using of_children with
  | step node ih =>
    rcases eq_or_exists_of_mem_walk h with rfl | ⟨child, hchild, hother⟩
    · exact .inl rfl
    · rcases ih child hchild hother with rfl | ⟨owner, howner, hmem⟩
      · exact .inr ⟨node, node.self_mem_walk, hchild⟩
      · exact .inr ⟨owner, mem_walk_of_child hchild howner, hmem⟩

theorem mem_walk_of_mem_children (h : owner ∈ node.walk) (hother : other ∈ owner.children) :
    other ∈ node.walk := by
  induction node using of_children with
  | step node ih =>
    rcases eq_or_exists_of_mem_walk h with rfl | ⟨child, hchild, howner⟩
    · exact mem_walk_of_child hother other.self_mem_walk
    · exact mem_walk_of_child hchild (ih child hchild howner)

/-- What is found has a child at the position. -/
theorem of_parentOf? (h : node.parentOf? position = some owner) :
    owner ∈ node.walk ∧ ∃ child ∈ owner.children, child.position = position := by
  induction node using of_children with
  | step node ih =>
    rw [parentOf?_eq] at h
    split at h
    next hany =>
      cases h
      obtain ⟨child, hchild, hposition⟩ := List.any_eq_true.mp hany
      exact ⟨owner.self_mem_walk, child, hchild, eq_of_beq hposition⟩
    next =>
      obtain ⟨child, hchild, hfound⟩ := List.exists_of_findSome?_eq_some h
      obtain ⟨howner, hposition⟩ := ih child hchild hfound
      exact ⟨mem_walk_of_child hchild howner, hposition⟩

theorem isSome_parentOf? (h : owner ∈ node.walk) (hother : other ∈ owner.children) :
    (node.parentOf? other.position).isSome = true := by
  induction node using of_children with
  | step node ih =>
    rw [parentOf?_eq]
    split
    next => rfl
    next hany =>
      rcases eq_or_exists_of_mem_walk h with rfl | ⟨child, hchild, howner⟩
      · exact absurd (List.any_eq_true.mpr ⟨other, hother, beq_self_eq_true other.position⟩) hany
      · exact List.findSome?_isSome_iff.mpr ⟨child, hchild, ih child hchild howner⟩

/-- The owner of a position is the node that is visited and has a child there. -/
theorem parentOf?_eq_some_iff : node.parentOf? position = some owner ↔
    owner ∈ node.walk ∧ ∃ child ∈ owner.children, child.position = position := by
  refine ⟨of_parentOf?, ?_⟩
  rintro ⟨howner, child, hchild, rfl⟩
  obtain ⟨found, hfound⟩ := Option.isSome_iff_exists.mp (isSome_parentOf? howner hchild)
  -- What is found has a child at the same position, so it has the position of the owner.
  obtain ⟨hmem, same, hsame, hposition⟩ := of_parentOf? hfound
  obtain ⟨number, hnumber, -⟩ := mem_children_iff.mp hchild
  obtain ⟨another, hanother, -⟩ := mem_children_iff.mp hsame
  have heq : found.position = owner.position :=
    Position.eq_of_child (hanother.symm.trans (hposition.trans hnumber))
  rw [hfound, eq_of_position_eq hmem howner heq]

variable {tree : Nat} {expr : Expr}

theorem mem_walk_root_iff : node ∈ (root tree expr).walk ↔
    node.position.tree = tree ∧ expr.part? node.position.path = some node.expr := by
  rw [mem_walk_iff]
  constructor
  · rintro ⟨path, hposition, hpart⟩
    rw [hposition]
    exact ⟨rfl, hpart⟩
  · rintro ⟨rfl, hpart⟩
    exact ⟨node.position.path, rfl, hpart⟩

theorem parentOf?_root (tree : Nat) (expr : Expr) :
    (root tree expr).parentOf? (root tree expr).position = none := by
  rw [Option.eq_none_iff_forall_ne_some]
  intro owner hfound
  obtain ⟨-, child, hchild, hposition⟩ := of_parentOf? hfound
  obtain ⟨number, hnumber, -⟩ := mem_children_iff.mp hchild
  have hpath : owner.position.path ++ [number] = [] :=
    congrArg Position.path (hnumber.symm.trans hposition)
  exact List.append_ne_nil_of_right_ne_nil _ (List.cons_ne_nil number []) hpath

/-- What is no position of a node under a node has no owner there. -/
theorem parentOf?_eq_none (h : position ∉ node.walk.map Node.position) :
    node.parentOf? position = none := by
  rw [Option.eq_none_iff_forall_ne_some]
  intro owner hfound
  obtain ⟨howner, child, hchild, rfl⟩ := of_parentOf? hfound
  exact h (List.mem_map_of_mem (mem_walk_of_mem_children howner hchild))

/-- The nodes of a tree, the walk through them and their owners fit together. -/
structure Navigates (tree : Nat) (expr : Expr) : Prop where
  /-- The walk visits what stands at a position of the tree and nothing else. -/
  mem_walk_iff : ∀ node, node ∈ (root tree expr).walk ↔
    node.position.tree = tree ∧ expr.part? node.position.path = some node.expr
  nodup_positions : ((root tree expr).walk.map Node.position).Nodup
  /-- It visits a node before what is under it, and that from left to right. -/
  pairwise_walk : (root tree expr).walk.Pairwise fun first second =>
    first.position.path < second.position.path
  parentOf?_child : ∀ node ∈ (root tree expr).walk, ∀ child ∈ node.children,
    (root tree expr).parentOf? child.position = some node
  parentOf?_root : (root tree expr).parentOf? (root tree expr).position = none
  parentOf?_outside : ∀ position, position ∉ (root tree expr).walk.map Node.position →
    (root tree expr).parentOf? position = none
  /-- Nodes of another tree are outside, also where it is a copy. -/
  parentOf?_copy : ∀ other copy, other ≠ tree → ∀ node ∈ (root other copy).walk,
    (root tree expr).parentOf? node.position = none
  /-- Every node but the root is a child of a node. -/
  eq_root_or_exists : ∀ node ∈ (root tree expr).walk, node = root tree expr ∨
    ∃ owner ∈ (root tree expr).walk, node ∈ owner.children

/-- The position of a child leads back to the node that owns it, no other position leads to a node,
and the walk visits each position once. -/
theorem navigates (tree : Nat) (expr : Expr) : Navigates tree expr := by
  have hordered := (root tree expr).pairwise_walk
  refine ⟨fun _ => mem_walk_root_iff, ?_, hordered, ?_, parentOf?_root tree expr,
    fun _ => parentOf?_eq_none, ?_, fun _ => exists_owner_of_mem_walk⟩
  · rw [List.nodup_iff_pairwise_ne, List.pairwise_map]
    refine hordered.imp fun {first second} hless heq => ?_
    rw [heq] at hless
    exact List.lt_irrefl _ hless
  · intro node hnode child hchild
    exact parentOf?_eq_some_iff.mpr ⟨hnode, child, hchild, rfl⟩
  · intro other copy hne node hnode
    refine parentOf?_eq_none fun hmem => ?_
    obtain ⟨same, hsame, hposition⟩ := List.mem_map.mp hmem
    have htree : node.position.tree = tree := hposition ▸ (mem_walk_root_iff.mp hsame).1
    exact hne ((mem_walk_root_iff.mp hnode).1.symm.trans htree)

/-- Of two equal names in a sum, the one in parentheses belongs to the group. -/
example :
    let sum := Expr.binary .add (.var "x") (.group (.var "x"))
    ((root 0 sum).parentOf? ⟨0, [1, 0]⟩).map Node.position = some ⟨0, [1]⟩ := by cbv

end Node

end ExprLang.Expr
