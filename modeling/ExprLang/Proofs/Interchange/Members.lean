import ExprLang.Expr.Interchange
import ExprLang.Expr.Node
import ExprLang.Proofs.Interchange.Alike

/-!
# What the data of an expression holds

The object of an expression holds a text, an expression or a list of expressions under each name
that its sort has. A value describes an expression if it holds the same, whatever else it holds, and
that is the case if nothing but the order of members tells it from the object of the expression once
all other members are removed.
-/

namespace ExprLang.Expr

/-! ## Members by sort -/

/-- What stands under a name in the data of an expression. -/
inductive Role where
  | text
  | node
  | nodes

/-- The names that the data of a sort of expressions has, and what stands under them. -/
def Kind.roles : Kind → List (String × Role)
  | constant => [("type", .text), ("value", .text), ("kind", .text)]
  | var => [("type", .text), ("name", .text)]
  | declaration => [("type", .text), ("name", .text), ("kind", .text)]
  | group => [("type", .text), ("expression", .node)]
  | unary => [("type", .text), ("operand", .node), ("operator", .text)]
  | binary | assignment =>
    [("type", .text), ("left", .node), ("operator", .text), ("right", .node)]
  | ternary => [("type", .text), ("condition", .node), ("if_true", .node), ("if_false", .node)]
  | call => [("type", .text), ("name", .text), ("arguments", .nodes)]
  | member => [("type", .text), ("target", .node), ("member", .node)]
  | index => [("type", .text), ("target", .node), ("index", .node)]

/-- Every sort once. -/
def Kind.all : List Kind :=
  [constant, var, declaration, group, unary, binary, ternary, assignment, call, member, index]

/-- The sort of a given name. -/
def Kind.ofName? (name : String) : Option Kind :=
  Kind.all.find? (·.name == name)

/-- The sort that members of an object name. -/
def kindOf? (members : List (String × Json)) : Option Kind :=
  ((members.lookup "type").bind Json.string?).bind Kind.ofName?

mutual

/-- The value without the members that the sorts of its expressions do not have. -/
def prune : Json → Json
  | .object members =>
    match kindOf? members with
    | some kind => .object (pruneMembers kind members)
    | none => .object members
  | json => json

/-- The members that a sort has, each without what the sorts of its expressions do not have. -/
def pruneMembers (kind : Kind) : List (String × Json) → List (String × Json)
  | [] => []
  | (name, part) :: rest =>
    match kind.roles.lookup name with
    | none => pruneMembers kind rest
    | some .text => (name, part) :: pruneMembers kind rest
    | some .node => (name, prune part) :: pruneMembers kind rest
    | some .nodes => (name, pruneItems part) :: pruneMembers kind rest

/-- The array without the members that the sorts of its items do not have. -/
def pruneItems : Json → Json
  | .array items => .array (pruneAll items)
  | json => json

/-- The values without the members that their sorts do not have. -/
def pruneAll : List Json → List Json
  | [] => []
  | json :: rest => prune json :: pruneAll rest

end

/-- What the data of an expression holds under a name. -/
inductive Content where
  | text (value : String)
  | node (expr : Expr)
  | nodes (list : List Expr)

namespace Content

def role : Content → Role
  | text _ => .text
  | node _ => .node
  | nodes _ => .nodes

def toJson : Content → Json
  | text value => .string value
  | node expr => expr.toJson
  | nodes list => .array (list.map Expr.toJson)

/-- The expressions that stand under a name. -/
def exprs : Content → List Expr
  | text _ => []
  | node expr => [expr]
  | nodes list => list

/-- Whether a value is what stands under a name, up to which values are those of expressions. -/
inductive IsGivenBy (p : Json → Expr → Prop) : Content → Json → Prop
  | text (value : String) : IsGivenBy p (.text value) (.string value)
  | node {json : Json} {expr : Expr} (h : p json expr) : IsGivenBy p (.node expr) json
  | nodes {items : List Json} {list : List Expr} (h : List.Forall₂ p items list) :
      IsGivenBy p (.nodes list) (.array items)

end Content

/-- What the data of an expression holds, by name. -/
def members : Expr → List (String × Content)
  | constant kind text =>
    [("type", .text "Constant"), ("value", .text text), ("kind", .text kind.name)]
  | var name => [("type", .text "Variable"), ("name", .text name)]
  | declaration kind name =>
    [("type", .text "VariableDeclaration"), ("name", .text name), ("kind", .text kind.name)]
  | group inner => [("type", .text "Group"), ("expression", .node inner)]
  | unary op operand =>
    [("type", .text "Unary"), ("operand", .node operand), ("operator", .text op.name)]
  | binary op left right =>
    [("type", .text "Binary"), ("left", .node left), ("operator", .text op.name),
      ("right", .node right)]
  | ternary condition ifTrue ifFalse =>
    [("type", .text "Ternary"), ("condition", .node condition), ("if_true", .node ifTrue),
      ("if_false", .node ifFalse)]
  | assignment op target value =>
    [("type", .text "Assignment"), ("left", .node target), ("operator", .text op.name),
      ("right", .node value)]
  | call name arguments =>
    [("type", .text "FunctionCall"), ("name", .text name), ("arguments", .nodes arguments)]
  | member target part =>
    [("type", .text "MemberAccess"), ("target", .node target), ("member", .node part)]
  | index target position =>
    [("type", .text "ArrayAccess"), ("target", .node target), ("index", .node position)]

/-- Whether a value holds what the data of an expression holds, up to which values are those of the
parts. -/
def Describes (p : Json → Expr → Prop) (json : Json) (expr : Expr) : Prop :=
  ∀ name content, expr.members.lookup name = some content →
    ∃ part, json.part? name = some part ∧ content.IsGivenBy p part

theorem lookup_map_snd {α β : Type} (f : α → β) (list : List (String × α)) (name : String) :
    (list.map fun entry => (entry.1, f entry.2)).lookup name = (list.lookup name).map f := by
  induction list with
  | nil => rfl
  | cons entry list ih =>
      rw [List.map_cons, List.lookup_cons, List.lookup_cons]
      cases hname : name == entry.1 with
      | true => rfl
      | false => exact ih

theorem toJsonItems_eq_map (list : List Expr) : toJsonItems list = list.map toJson := by
  induction list with
  | nil => rfl
  | cons expr list ih => rw [toJsonItems, ih, List.map_cons]

/-- The object of an expression consists of its members. -/
theorem toJson_eq_object (expr : Expr) :
    expr.toJson = .object (expr.members.map fun entry => (entry.1, entry.2.toJson)) := by
  cases expr with
  | call name arguments =>
      rw [toJson, toJsonItems_eq_map]
      rfl
  | _ =>
      rw [toJson]
      rfl

/-- The sort of an expression has the names of its members. -/
theorem lookup_roles (expr : Expr) (name : String) :
    expr.kind.roles.lookup name = (expr.members.lookup name).map Content.role := by
  rw [← lookup_map_snd]
  cases expr <;> rfl

theorem lookup_type (expr : Expr) :
    expr.members.lookup "type" = some (.text expr.kind.name) := by
  cases expr <;> rfl

/-- The expressions among the members of an expression are its parts. -/
theorem exprs_subset_children {expr : Expr} {name : String} {content : Content}
    (h : expr.members.lookup name = some content) : content.exprs ⊆ expr.children := by
  obtain ⟨before, after, hsplit, -⟩ := List.lookup_eq_some_iff.mp h
  have hmem : (name, content) ∈ expr.members := by simp [hsplit]
  have hall : ∀ entry ∈ expr.members, entry.2.exprs ⊆ expr.children := by
    cases expr <;> simp [members, children, Content.exprs]
  exact hall _ hmem

/-- What describes an expression depends on what describes its parts. -/
theorem Describes.imp {p q : Json → Expr → Prop} {json : Json} {expr : Expr}
    (h : Describes p json expr)
    (himp : ∀ child ∈ expr.children, ∀ json, p json child → q json child) :
    Describes q json expr := by
  intro name content hcontent
  obtain ⟨part, hpart, hgiven⟩ := h name content hcontent
  have hsubset := exprs_subset_children hcontent
  refine ⟨part, hpart, ?_⟩
  cases hgiven with
  | text value => exact .text value
  | node hnode => exact .node (himp _ (hsubset (by simp [Content.exprs])) _ hnode)
  | nodes hnodes =>
      refine .nodes (List.forall₂_iff_zip.mpr ⟨hnodes.length_eq, fun hpair => ?_⟩)
      exact himp _ (hsubset (List.of_mem_zip hpair).2) _ (List.forall₂_zip hnodes hpair)

/-! ## Removing members -/

/-- The value under a name of a role without the members that sorts do not have. -/
def Role.prune : Role → Json → Json
  | text => id
  | node => Expr.prune
  | nodes => pruneItems

theorem pruneAll_eq_map (items : List Json) : pruneAll items = items.map prune := by
  induction items with
  | nil => rfl
  | cons item items ih => rw [pruneAll, ih, List.map_cons]

theorem pruneMembers_cons (kind : Kind) (name : String) (part : Json)
    (rest : List (String × Json)) :
    pruneMembers kind ((name, part) :: rest) =
      match kind.roles.lookup name with
      | none => pruneMembers kind rest
      | some role => (name, role.prune part) :: pruneMembers kind rest := by
  rw [pruneMembers]
  rcases kind.roles.lookup name with _ | (_ | _ | _) <;> rfl

/-- The members that are left are those whose names the sort has. -/
theorem lookup_pruneMembers (kind : Kind) (members : List (String × Json)) (name : String) :
    (pruneMembers kind members).lookup name =
      (kind.roles.lookup name).bind fun role => (members.lookup name).map role.prune := by
  induction members with
  | nil => cases kind.roles.lookup name <;> rfl
  | cons entry members ih =>
      obtain ⟨key, part⟩ := entry
      rw [pruneMembers_cons, List.lookup_cons]
      by_cases hkey : name = key
      · subst hkey
        cases hrole : kind.roles.lookup name with
        | none => simp [ih, hrole]
        | some role => simp
      · rw [beq_eq_false_iff_ne.mpr hkey]
        cases kind.roles.lookup key with
        | none => exact ih
        | some role => simpa [List.lookup_cons, beq_eq_false_iff_ne.mpr hkey] using ih

theorem Kind.ofName?_name (kind : Kind) : Kind.ofName? kind.name = some kind := by
  cases kind <;> decide

theorem Kind.lookup_roles_type (kind : Kind) : kind.roles.lookup "type" = some .text := by
  cases kind <;> rfl

theorem prune_of_type {json : Json} {kind : Kind}
    (h : json.part? "type" = some (.string kind.name)) :
    ∃ members, json = .object members ∧ prune json = .object (pruneMembers kind members) := by
  obtain ⟨members, rfl⟩ := Json.exists_object_of_part? h
  rw [Json.part?_object] at h
  have hkind : kindOf? members = some kind := by
    rw [kindOf?, h]
    exact kind.ofName?_name
  exact ⟨members, rfl, by rw [prune, hkind]⟩

/-- A value of a sort keeps what stands under the names of the sort. -/
theorem part?_prune {json : Json} {kind : Kind}
    (h : json.part? "type" = some (.string kind.name)) (name : String) :
    (prune json).part? name =
      (kind.roles.lookup name).bind fun role => (json.part? name).map role.prune := by
  obtain ⟨members, rfl, hprune⟩ := prune_of_type h
  rw [hprune, Json.part?_object, Json.part?_object, lookup_pruneMembers]

/-- A value keeps its sort. -/
theorem part?_type_of_prune {json part : Json} (h : (prune json).part? "type" = some part) :
    json.part? "type" = some part := by
  cases json with
  | object members =>
      rw [prune] at h
      split at h
      next kind hkind =>
        rw [Json.part?_object, lookup_pruneMembers, kind.lookup_roles_type] at h
        rw [Json.part?_object]
        simpa [Role.prune] using h
      next => exact h
  | _ => exact h

/-! ## Values like those of expressions -/

/-- Whether a value without the members that sorts do not have is the object of an expression, up
to order. -/
def Encodes (json : Json) (expr : Expr) : Prop :=
  (prune json).Alike expr.toJson

theorem Content.isGivenBy_encodes_iff {content : Content} {part : Json} :
    content.IsGivenBy Encodes part ↔ (content.role.prune part).Alike content.toJson := by
  cases content with
  | text value =>
      rw [toJson, Json.alike_string_iff]
      constructor
      · rintro ⟨⟩
        rfl
      · rintro rfl
        exact .text value
  | node expr =>
      constructor
      · rintro ⟨⟩
        assumption
      · intro h
        exact .node h
  | nodes list =>
      have hmap {items : List Json} :
          List.Forall₂ Json.Alike (items.map prune) (list.map Expr.toJson) ↔
            List.Forall₂ Encodes items list := by
        rw [List.forall₂_map_left_iff, List.forall₂_map_right_iff]
        rfl
      rw [toJson, Json.alike_array_iff]
      constructor
      · rintro ⟨⟩
        next items h =>
          refine ⟨_, ?_, hmap.mpr h⟩
          rw [role, Role.prune, pruneItems, pruneAll_eq_map]
      · rintro ⟨left, hleft, hitems⟩
        cases part with
        | array items =>
            rw [role, Role.prune, pruneItems, pruneAll_eq_map] at hleft
            obtain rfl := Json.array.inj hleft
            exact .nodes (hmap.mp hitems)
        | _ => cases hleft

variable {json : Json} {expr : Expr}

theorem Describes.type {p : Json → Expr → Prop} (h : Describes p json expr) :
    json.part? "type" = some (.string expr.kind.name) := by
  obtain ⟨part, hpart, hgiven⟩ := h "type" _ (lookup_type expr)
  cases hgiven
  exact hpart

theorem Encodes.type (h : Encodes json expr) :
    json.part? "type" = some (.string expr.kind.name) := by
  rw [Encodes, toJson_eq_object, Json.alike_object_iff] at h
  -- What is left holds the name of the sort, and nothing else is put there by removing members.
  have hname := h.2 "type"
  rw [lookup_map_snd, lookup_type, Option.map_some, Content.toJson] at hname
  generalize hpart : (prune json).part? "type" = part? at hname
  cases hname with
  | some halike =>
      rw [Json.alike_string_iff] at halike
      subst halike
      exact part?_type_of_prune hpart

/-- A value encodes an expression if and only if what it holds under each name does. -/
theorem encodes_iff_describes : Encodes json expr ↔ Describes Encodes json expr := by
  -- Once the sort is known, what is left are the names of the expression's own members.
  have hpart (htype : json.part? "type" = some (.string expr.kind.name)) (name : String) :
      (prune json).part? name = (expr.members.lookup name).bind fun content =>
        (json.part? name).map content.role.prune := by
    rw [part?_prune htype, lookup_roles, Option.bind_map]
    rfl
  constructor
  · intro h name content hcontent
    have htype := h.type
    rw [Encodes, toJson_eq_object, Json.alike_object_iff] at h
    have hname := h.2 name
    rw [hpart htype, lookup_map_snd, hcontent, Option.bind_some, Option.map_some] at hname
    cases hfound : json.part? name with
    | none =>
        rw [hfound] at hname
        cases hname
    | some part =>
        rw [hfound] at hname
        cases hname with
        | some halike => exact ⟨part, rfl, Content.isGivenBy_encodes_iff.mpr halike⟩
  · intro h
    obtain ⟨members, -, hprune⟩ := prune_of_type h.type
    rw [Encodes, toJson_eq_object, Json.alike_object_iff]
    refine ⟨⟨_, hprune⟩, fun name => ?_⟩
    rw [hpart h.type, lookup_map_snd]
    cases hcontent : expr.members.lookup name with
    | none => exact .none
    | some content =>
        obtain ⟨part, hfound, hgiven⟩ := h name content hcontent
        rw [hfound]
        exact .some (Content.isGivenBy_encodes_iff.mp hgiven)

end ExprLang.Expr
