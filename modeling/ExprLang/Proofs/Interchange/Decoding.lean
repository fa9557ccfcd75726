import ExprLang.Proofs.Interchange.Members

/-!
# Reading expressions from data

Reading a value looks up every name of the sort and nothing else, so a value is read as the
expressions that it describes. These are the expressions that it encodes: reading is the inverse of
writing, and it accepts what is written with any other members added and in any order.
-/

namespace ExprLang

/-! ## Names -/

/-- Looking up a name finds what has the name if no two things share one. -/
theorem find?_name_eq_some_iff {α : Type} {all : List α} {name : α → String} {text : String}
    {value : α} (hall : ∀ value, value ∈ all)
    (hinj : ∀ first ∈ all, ∀ second ∈ all, name first = name second → first = second) :
    all.find? (name · == text) = some value ↔ name value = text := by
  constructor
  · intro h
    simpa using List.find?_some h
  · rintro rfl
    have hsome : (all.find? (name · == name value)).isSome = true :=
      List.find?_isSome.mpr ⟨value, hall value, beq_self_eq_true (name value)⟩
    obtain ⟨found, hfound⟩ := Option.isSome_iff_exists.mp hsome
    have hname : name found = name value := by simpa using List.find?_some hfound
    rw [hfound, hinj found (hall found) value (hall value) hname]

theorem LiteralKind.ofName?_eq_some_iff {text : String} {kind : LiteralKind} :
    ofName? text = some kind ↔ kind.name = text :=
  find?_name_eq_some_iff (by rintro (_ | _) <;> decide) (by decide)

theorem DeclarationKind.ofName?_eq_some_iff {text : String} {kind : DeclarationKind} :
    ofName? text = some kind ↔ kind.name = text :=
  find?_name_eq_some_iff (by rintro (_ | _) <;> decide) (by decide)

theorem UnaryOp.ofName?_eq_some_iff {text : String} {op : UnaryOp} :
    ofName? text = some op ↔ op.name = text :=
  find?_name_eq_some_iff (by rintro (_ | _) <;> decide) (by decide)

theorem BinaryOp.ofName?_eq_some_iff {text : String} {op : BinaryOp} :
    ofName? text = some op ↔ op.name = text :=
  find?_name_eq_some_iff (by rintro (_ | _) <;> decide) (by decide)

theorem AssignOp.ofName?_eq_some_iff {text : String} {op : AssignOp} :
    ofName? text = some op ↔ op.name = text :=
  find?_name_eq_some_iff (by rintro (_ | _) <;> decide) (by decide)

/-! ## Parts of values -/

theorem mapM_eq_some_iff {α β : Type} {f : α → Option β} {list : List α} {others : List β} :
    list.mapM f = some others ↔
      List.Forall₂ (fun item other => f item = some other) list others := by
  induction list generalizing others with
  | nil => simp [eq_comm]
  | cons item list ih =>
      simp only [List.mapM_cons, Option.bind_eq_bind, Option.pure_def, Option.bind_eq_some_iff,
        Option.some.injEq, List.forall₂_cons_left_iff, ih]
      constructor
      · rintro ⟨first, hfirst, rest, hrest, rfl⟩
        exact ⟨first, rest, hfirst, hrest, rfl⟩
      · rintro ⟨first, rest, hfirst, hrest, rfl⟩
        exact ⟨first, hfirst, rest, hrest, rfl⟩

namespace Json

variable {json part : Json} {name text : String}

theorem part?_eq_some_iff :
    json.part? name = some part ↔ ∃ hlt, json.member? name = some ⟨part, hlt⟩ := by
  rw [part?, Option.map_eq_some_iff]
  constructor
  · rintro ⟨⟨_, hlt⟩, h, rfl⟩
    exact ⟨hlt, h⟩
  · rintro ⟨hlt, h⟩
    exact ⟨_, h, rfl⟩

theorem items?_eq_some {items : List { item : Json // sizeOf item < sizeOf json }}
    (h : json.items? = some items) : json = .array (items.map (·.val)) := by
  cases json with
  | array list =>
      obtain rfl := Option.some.inj h
      simp
  | _ => cases h

theorem exists_items?_array (list : List Json) :
    ∃ items, (Json.array list).items? = some items ∧ items.map (·.val) = list :=
  ⟨_, rfl, by simp⟩

end Json

namespace Expr

variable {json : Json} {expr : Expr} {name : String}

theorem text?_eq_some_iff {text : String} :
    text? json name = some text ↔ json.part? name = some (.string text) := by
  have hstring {part : Json} : part.string? = some text ↔ part = .string text := by
    cases part <;> simp [Json.string?]
  simp [text?, Json.part?, Option.bind_eq_some_iff, hstring]

/-! ## Reading -/

/-- Whether a value is read as an expression. -/
def Decodes (json : Json) (expr : Expr) : Prop :=
  ofJson? json = some expr

theorem describes_of_forall_mem {p : Json → Expr → Prop}
    (h : ∀ entry ∈ expr.members,
      ∃ part, json.part? entry.1 = some part ∧ entry.2.IsGivenBy p part) :
    Describes p json expr := by
  intro name content hcontent
  obtain ⟨before, after, hsplit, -⟩ := List.lookup_eq_some_iff.mp hcontent
  exact h (name, content) (by simp [hsplit])

theorem exists_text {text : String} (h : text? json name = some text) :
    ∃ part, json.part? name = some part ∧ (Content.text text).IsGivenBy Decodes part :=
  ⟨_, text?_eq_some_iff.mp h, .text text⟩

theorem exists_node {node : { part : Json // sizeOf part < sizeOf json }}
    (hnode : json.member? name = some node) (h : ofJson? node.val = some expr) :
    ∃ part, json.part? name = some part ∧ (Content.node expr).IsGivenBy Decodes part :=
  ⟨_, Json.part?_eq_some_iff.mpr ⟨node.property, hnode⟩, .node h⟩

theorem exists_nodes {array : { part : Json // sizeOf part < sizeOf json }}
    {items : List { part : Json // sizeOf part < sizeOf array.val }} {list : List Expr}
    (harray : json.member? name = some array) (hitems : array.val.items? = some items)
    (h : items.mapM (fun item => ofJson? item.val) = some list) :
    ∃ part, json.part? name = some part ∧ (Content.nodes list).IsGivenBy Decodes part := by
  refine ⟨_, Json.part?_eq_some_iff.mpr ⟨array.property, harray⟩, ?_⟩
  rw [Json.items?_eq_some hitems]
  exact .nodes (List.forall₂_map_left_iff.mpr (mapM_eq_some_iff.mp h))

/-- A value that is read holds what the data of the expression holds. -/
theorem Decodes.describes (h : Decodes json expr) : Describes Decodes json expr := by
  apply describes_of_forall_mem
  rw [Decodes, ofJson?] at h
  simp only [Option.bind_eq_bind, Option.bind_eq_some_iff] at h
  obtain ⟨kind, htype, h⟩ := h
  -- One case for each sort, in the order in which reading tells them apart.
  split at h <;>
    simp only [Option.bind_eq_some_iff, Option.pure_def, Option.some.injEq,
      LiteralKind.ofName?_eq_some_iff, DeclarationKind.ofName?_eq_some_iff,
      UnaryOp.ofName?_eq_some_iff, BinaryOp.ofName?_eq_some_iff, AssignOp.ofName?_eq_some_iff,
      reduceCtorEq] at h
  case h_1 =>
    obtain ⟨_, hkind, kind, rfl, text, htext, rfl⟩ := h
    simpa [members] using ⟨exists_text htype, exists_text htext, exists_text hkind⟩
  case h_2 =>
    obtain ⟨name, hname, rfl⟩ := h
    simpa [members] using ⟨exists_text htype, exists_text hname⟩
  case h_3 =>
    obtain ⟨_, hkind, kind, rfl, name, hname, rfl⟩ := h
    simpa [members] using ⟨exists_text htype, exists_text hname, exists_text hkind⟩
  case h_4 =>
    obtain ⟨node, hnode, inner, hinner, rfl⟩ := h
    simpa [members] using ⟨exists_text htype, exists_node hnode hinner⟩
  case h_5 =>
    obtain ⟨node, hnode, _, hop, op, rfl, operand, hoperand, rfl⟩ := h
    simpa [members] using ⟨exists_text htype, exists_node hnode hoperand, exists_text hop⟩
  case h_6 =>
    obtain ⟨first, hfirst, second, hsecond, _, hop, op, rfl, left, hleft, right, hright, rfl⟩ := h
    simpa [members] using
      ⟨exists_text htype, exists_node hfirst hleft, exists_text hop, exists_node hsecond hright⟩
  case h_7 =>
    obtain ⟨first, hfirst, second, hsecond, third, hthird, condition, hcondition, ifTrue, htrue,
      ifFalse, hfalse, rfl⟩ := h
    simpa [members] using
      ⟨exists_text htype, exists_node hfirst hcondition, exists_node hsecond htrue,
        exists_node hthird hfalse⟩
  case h_8 =>
    obtain ⟨first, hfirst, second, hsecond, _, hop, op, rfl, left, hleft, right, hright, rfl⟩ := h
    simpa [members] using
      ⟨exists_text htype, exists_node hfirst hleft, exists_text hop, exists_node hsecond hright⟩
  case h_9 =>
    obtain ⟨array, harray, items, hitems, name, hname, list, hlist, rfl⟩ := h
    simpa [members] using
      ⟨exists_text htype, exists_text hname, exists_nodes harray hitems hlist⟩
  case h_10 | h_11 =>
    obtain ⟨first, hfirst, second, hsecond, left, hleft, right, hright, rfl⟩ := h
    simpa [members] using
      ⟨exists_text htype, exists_node hfirst hleft, exists_node hsecond hright⟩

theorem Describes.text?_eq_some {text : String} (h : Describes Decodes json expr) (name : String)
    (hcontent : expr.members.lookup name = some (.text text)) : text? json name = some text := by
  obtain ⟨part, hpart, hgiven⟩ := h name _ hcontent
  cases hgiven
  exact text?_eq_some_iff.mpr hpart

theorem Describes.exists_node {child : Expr} (h : Describes Decodes json expr) (name : String)
    (hcontent : expr.members.lookup name = some (.node child)) :
    ∃ node, json.member? name = some node ∧ ofJson? node.val = some child := by
  obtain ⟨part, hpart, hgiven⟩ := h name _ hcontent
  obtain ⟨hlt, hmember⟩ := Json.part?_eq_some_iff.mp hpart
  cases hgiven with
  | node hread => exact ⟨_, hmember, hread⟩

theorem Describes.exists_nodes {list : List Expr} (h : Describes Decodes json expr)
    (name : String) (hcontent : expr.members.lookup name = some (.nodes list)) :
    ∃ array items, json.member? name = some array ∧ array.val.items? = some items ∧
      items.mapM (fun item => ofJson? item.val) = some list := by
  obtain ⟨part, hpart, hgiven⟩ := h name _ hcontent
  obtain ⟨hlt, hmember⟩ := Json.part?_eq_some_iff.mp hpart
  cases hgiven with
  | @nodes found _ hread =>
      obtain ⟨items, hitems, hfound⟩ := Json.exists_items?_array found
      rw [← hfound] at hread
      refine ⟨_, items, hmember, hitems, mapM_eq_some_iff.mpr ?_⟩
      exact List.forall₂_map_left_iff.mp hread

/-- A value that holds what the data of an expression holds is read as the expression. -/
theorem Describes.decodes (h : Describes Decodes json expr) : Decodes json expr := by
  have htype := text?_eq_some_iff.mpr h.type
  rw [Decodes, ofJson?, htype]
  cases expr with
  | constant kind text =>
      have hkind := h.text?_eq_some "kind" rfl
      have htext := h.text?_eq_some "value" rfl
      simp [Expr.kind, Kind.name, hkind, htext, LiteralKind.ofName?_eq_some_iff.mpr rfl]
  | var name =>
      have hname := h.text?_eq_some "name" rfl
      simp [Expr.kind, Kind.name, hname]
  | declaration kind name =>
      have hkind := h.text?_eq_some "kind" rfl
      have hname := h.text?_eq_some "name" rfl
      simp [Expr.kind, Kind.name, hkind, hname, DeclarationKind.ofName?_eq_some_iff.mpr rfl]
  | group inner =>
      obtain ⟨node, hnode, hinner⟩ := h.exists_node "expression" rfl
      simp [Expr.kind, Kind.name, hnode, hinner]
  | unary op operand =>
      have hop := h.text?_eq_some "operator" rfl
      obtain ⟨node, hnode, hoperand⟩ := h.exists_node "operand" rfl
      simp [Expr.kind, Kind.name, hop, hnode, hoperand, UnaryOp.ofName?_eq_some_iff.mpr rfl]
  | binary op left right =>
      have hop := h.text?_eq_some "operator" rfl
      obtain ⟨first, hfirst, hleft⟩ := h.exists_node "left" rfl
      obtain ⟨second, hsecond, hright⟩ := h.exists_node "right" rfl
      simp [Expr.kind, Kind.name, hop, hfirst, hleft, hsecond, hright,
        BinaryOp.ofName?_eq_some_iff.mpr rfl]
  | ternary condition ifTrue ifFalse =>
      obtain ⟨first, hfirst, hcondition⟩ := h.exists_node "condition" rfl
      obtain ⟨second, hsecond, htrue⟩ := h.exists_node "if_true" rfl
      obtain ⟨third, hthird, hfalse⟩ := h.exists_node "if_false" rfl
      simp [Expr.kind, Kind.name, hfirst, hcondition, hsecond, htrue, hthird, hfalse]
  | assignment op target value =>
      have hop := h.text?_eq_some "operator" rfl
      obtain ⟨first, hfirst, htarget⟩ := h.exists_node "left" rfl
      obtain ⟨second, hsecond, hvalue⟩ := h.exists_node "right" rfl
      simp [Expr.kind, Kind.name, hop, hfirst, htarget, hsecond, hvalue,
        AssignOp.ofName?_eq_some_iff.mpr rfl]
  | call name arguments =>
      have hname := h.text?_eq_some "name" rfl
      obtain ⟨array, items, harray, hitems, hlist⟩ := h.exists_nodes "arguments" rfl
      simp only [Expr.kind, Kind.name, Option.bind_eq_bind, Option.bind_some, hname, harray, hitems,
        hlist, Option.pure_def]
  | member target part =>
      obtain ⟨first, hfirst, htarget⟩ := h.exists_node "target" rfl
      obtain ⟨second, hsecond, hpart⟩ := h.exists_node "member" rfl
      simp [Expr.kind, Kind.name, hfirst, htarget, hsecond, hpart]
  | index target position =>
      obtain ⟨first, hfirst, htarget⟩ := h.exists_node "target" rfl
      obtain ⟨second, hsecond, hposition⟩ := h.exists_node "index" rfl
      simp [Expr.kind, Kind.name, hfirst, htarget, hsecond, hposition]

/-! ## Reading and writing -/

/-- A value is read as the expressions that it encodes. -/
theorem decodes_iff_encodes (json : Json) (expr : Expr) :
    Decodes json expr ↔ Encodes json expr := by
  induction expr using of_children generalizing json with
  | step expr ih =>
      calc Decodes json expr
        _ ↔ Describes Decodes json expr := ⟨Decodes.describes, Describes.decodes⟩
        _ ↔ Describes Encodes json expr :=
          ⟨fun h => h.imp fun child hchild json => (ih child hchild json).mp,
            fun h => h.imp fun child hchild json => (ih child hchild json).mpr⟩
        _ ↔ Encodes json expr := encodes_iff_describes.symm

/-- The object of an expression holds what its data holds if that is so for the parts. -/
theorem describes_toJson {p : Json → Expr → Prop}
    (hparts : ∀ child ∈ expr.children, p child.toJson child) :
    Describes p expr.toJson expr := by
  intro name content hcontent
  have hsubset := exprs_subset_children hcontent
  refine ⟨content.toJson, ?_, ?_⟩
  · rw [toJson_eq_object, Json.part?_object, lookup_map_snd, hcontent, Option.map_some]
  cases content with
  | text value => exact .text value
  | node child => exact .node (hparts child (hsubset List.mem_cons_self))
  | nodes list =>
      refine .nodes (List.forall₂_map_left_iff.mpr (List.forall₂_same.mpr ?_))
      exact fun child hchild => hparts child (hsubset hchild)

theorem decodes_toJson (expr : Expr) : Decodes expr.toJson expr := by
  induction expr using of_children with
  | step expr ih => exact (describes_toJson ih).decodes

/-- Every expression is read back from its object. A value is read as an expression if and only if
it is the object of the expression, up to the order of members, once the members that the sorts of
its expressions do not have are removed. -/
theorem ofJson?_eq_some_iff :
    (∀ expr : Expr, ofJson? expr.toJson = some expr) ∧
      ∀ (json : Json) (expr : Expr),
        ofJson? json = some expr ↔ (prune json).Alike expr.toJson :=
  ⟨decodes_toJson, decodes_iff_encodes⟩

end Expr

end ExprLang
