import ExprLang.Expr.Basic
import ExprLang.Json.Basic

/-!
# Expressions as data

An expression is exchanged as a JSON object: the member `type` names its sort, and the others hold
its parts, operators and kinds being given by their names. Reading needs every member of the sort,
in any order, and passes over those that the sort does not have.
-/

namespace ExprLang.Expr

mutual

/-- The JSON object of an expression. -/
def toJson : Expr → Json
  | constant kind text =>
    .object [("type", .string "Constant"), ("value", .string text), ("kind", .string kind.name)]
  | var name => .object [("type", .string "Variable"), ("name", .string name)]
  | declaration kind name =>
    .object
      [("type", .string "VariableDeclaration"), ("name", .string name),
        ("kind", .string kind.name)]
  | group inner => .object [("type", .string "Group"), ("expression", toJson inner)]
  | unary op operand =>
    .object
      [("type", .string "Unary"), ("operand", toJson operand), ("operator", .string op.name)]
  | binary op left right =>
    .object
      [("type", .string "Binary"), ("left", toJson left), ("operator", .string op.name),
        ("right", toJson right)]
  | ternary condition ifTrue ifFalse =>
    .object
      [("type", .string "Ternary"), ("condition", toJson condition), ("if_true", toJson ifTrue),
        ("if_false", toJson ifFalse)]
  | assignment op target value =>
    .object
      [("type", .string "Assignment"), ("left", toJson target), ("operator", .string op.name),
        ("right", toJson value)]
  | call name arguments =>
    .object
      [("type", .string "FunctionCall"), ("name", .string name),
        ("arguments", .array (toJsonItems arguments))]
  | member target part =>
    .object
      [("type", .string "MemberAccess"), ("target", toJson target), ("member", toJson part)]
  | index target position =>
    .object
      [("type", .string "ArrayAccess"), ("target", toJson target), ("index", toJson position)]

/-- The JSON objects of the arguments of a call. -/
def toJsonItems : List Expr → List Json
  | [] => []
  | argument :: rest => toJson argument :: toJsonItems rest

end

/-- The text of a member of an object. -/
def text? (json : Json) (name : String) : Option String :=
  (json.member? name).bind (·.val.string?)

/-- The expression that a JSON object describes. -/
def ofJson? (json : Json) : Option Expr := do
  match ← text? json "type" with
  | "Constant" =>
    return constant (← LiteralKind.ofName? (← text? json "kind")) (← text? json "value")
  | "Variable" => return var (← text? json "name")
  | "VariableDeclaration" =>
    return declaration (← DeclarationKind.ofName? (← text? json "kind")) (← text? json "name")
  | "Group" =>
    let ⟨inner, _⟩ ← json.member? "expression"
    return group (← ofJson? inner)
  | "Unary" =>
    let ⟨operand, _⟩ ← json.member? "operand"
    return unary (← UnaryOp.ofName? (← text? json "operator")) (← ofJson? operand)
  | "Binary" =>
    let ⟨left, _⟩ ← json.member? "left"
    let ⟨right, _⟩ ← json.member? "right"
    return binary (← BinaryOp.ofName? (← text? json "operator")) (← ofJson? left)
      (← ofJson? right)
  | "Ternary" =>
    let ⟨condition, _⟩ ← json.member? "condition"
    let ⟨ifTrue, _⟩ ← json.member? "if_true"
    let ⟨ifFalse, _⟩ ← json.member? "if_false"
    return ternary (← ofJson? condition) (← ofJson? ifTrue) (← ofJson? ifFalse)
  | "Assignment" =>
    let ⟨target, _⟩ ← json.member? "left"
    let ⟨value, _⟩ ← json.member? "right"
    return assignment (← AssignOp.ofName? (← text? json "operator")) (← ofJson? target)
      (← ofJson? value)
  | "FunctionCall" =>
    let ⟨arguments, _⟩ ← json.member? "arguments"
    let items ← arguments.items?
    return call (← text? json "name") (← items.mapM fun ⟨item, _⟩ => ofJson? item)
  | "MemberAccess" =>
    let ⟨target, _⟩ ← json.member? "target"
    let ⟨part, _⟩ ← json.member? "member"
    return member (← ofJson? target) (← ofJson? part)
  | "ArrayAccess" =>
    let ⟨target, _⟩ ← json.member? "target"
    let ⟨position, _⟩ ← json.member? "index"
    return index (← ofJson? target) (← ofJson? position)
  | _ => none
termination_by json

end ExprLang.Expr
