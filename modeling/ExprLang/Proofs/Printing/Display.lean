import ExprLang.Expr.Display
import ExprLang.Expr.Node
import ExprLang.Proofs.Printing.Form
import ExprLang.Proofs.Printing.RoundTrip

/-!
# Displayed expressions

The text of an expression in parenthesized form is that of a form, and the expression is read back
from the form: the characters of a word show what sort of literal or name it is, and the head of a
list shows together with the number of its parts what the parts are for.
-/

namespace ExprLang

/-- The word before the displayed operand of an operator. -/
def UnaryOp.label (op : UnaryOp) : String :=
  (if op.isAfter then "post" else "") ++ op.symbol

namespace Expr

/-! ## Forms of expressions -/

mutual

/-- The form that displays an expression. -/
def form : Expr → Form
  | constant .string text => .quoted text.toList
  | constant _ text => .word text.toList
  | var name => .word name.toList
  | declaration kind name => .list kind.keyword.toList [.word name.toList]
  | group inner => .list "group".toList [form inner]
  | unary op operand => .list op.label.toList [form operand]
  | binary op left right => .list op.symbol.toList [form left, form right]
  | ternary condition ifTrue ifFalse =>
    .list "?".toList [form condition, form ifTrue, form ifFalse]
  | assignment op target value => .list op.symbol.toList [form target, form value]
  | call name arguments => .list "call".toList (.word name.toList :: formAll arguments)
  | member target part => .list ".".toList [form target, form part]
  | index target position => .list "[]".toList [form target, form position]

/-- The forms of the arguments of a call. -/
def formAll : List Expr → List Form
  | [] => []
  | argument :: rest => form argument :: formAll rest

end

theorem formAll_eq_map (list : List Expr) : formAll list = list.map form := by
  induction list with
  | nil => rfl
  | cons expr list ih => rw [formAll, ih, List.map_cons]

theorem toList_displayArguments {list : List Expr}
    (h : ∀ expr ∈ list, expr.display.toList = expr.form.render) :
    (displayArguments list).toList = Form.renderAll (formAll list) := by
  induction list with
  | nil => rfl
  | cons expr list ih =>
      obtain ⟨hexpr, hlist⟩ := List.forall_mem_cons.mp h
      simp [displayArguments, formAll, Form.renderAll, hexpr, ih hlist]

/-- The displayed text of an expression is the text of its form. -/
theorem toList_display (expr : Expr) : expr.display.toList = expr.form.render := by
  induction expr using of_children with
  | step expr ih =>
      cases expr with
      | constant kind text =>
          cases kind <;> simp [display, form, Form.render, Text.quoted]
      | var name => simp [display, form, Form.render]
      | declaration kind name => simp [display, form, Form.render, Form.renderAll]
      | call name arguments =>
          have harguments : (displayArguments arguments).toList = _ := toList_displayArguments ih
          simp [display, form, Form.render, Form.renderAll, harguments]
      | _ =>
          simp only [children, List.forall_mem_cons] at ih
          simp [display, form, Form.render, Form.renderAll, UnaryOp.label, ih]

/-! ## Words of expressions -/

open Token.Lexeme in
/-- The characters of a literal or a name are plain. -/
theorem isWord_of_isLexeme {kind : Token.Kind} {text : List Char}
    (h : IsLexeme kind text (some text)) (hstring : kind ≠ .string) : Form.IsWord text := by
  have hdigit {c : Char} (hc : c.isDigit = true) : Form.isPlain c = true := by
    simp only [Form.isPlain, Bool.and_eq_true, bne_iff_ne]
    refine ⟨⟨⟨?_, ?_⟩, ?_⟩, ?_⟩ <;> rintro rfl <;> exact absurd hc (by decide)
  have hword {c : Char} (hc : Token.isWordChar c = true) : Form.isPlain c = true := by
    simp only [Form.isPlain, Bool.and_eq_true, bne_iff_ne]
    refine ⟨⟨⟨?_, ?_⟩, ?_⟩, ?_⟩ <;> rintro rfl <;> exact absurd hc (by decide)
  refine ⟨h.ne_nil, ?_⟩
  generalize hvalue : some text = value at h
  cases h with
  | symbol _ => cases hvalue
  | int _ hdigits => exact fun c hc => hdigit (hdigits c hc)
  | decimal _ hwhole hfraction =>
      intro c hc
      rcases List.mem_append.mp hc with hmem | hmem
      · exact hdigit (hwhole c hmem)
      · rcases List.mem_cons.mp hmem with rfl | hmem
        · rfl
        · exact hdigit (hfraction c hmem)
  | word hletter htail =>
      refine List.forall_mem_cons.mpr ⟨hword ?_, fun c hc => hword (htail c hc)⟩
      rw [Token.isWordChar, hletter]
      rfl
  | string _ => exact absurd rfl hstring

/-- The form of an expression with names and literals that can be written is legible. -/
theorem legible_form {expr : Expr} (h : expr.Lexical) : expr.form.Legible := by
  have hname {name : String} (hname : IsName name) : (Form.word name.toList).Legible :=
    .word (isWord_of_isLexeme hname (by decide))
  induction h with
  | @intro expr htext _ ih =>
      cases expr with
      | constant kind text =>
          cases kind with
          | string => exact .quoted _
          | int | decimal => exact .word (isWord_of_isLexeme htext (by decide))
          | bool => rcases htext with rfl | rfl <;> exact .word (by decide)
      | var name => exact hname htext
      | declaration kind name =>
          refine .list ?_ (List.forall_mem_singleton.mpr (hname htext))
          cases kind <;> decide
      | group inner =>
          refine .list (by decide) (List.forall_mem_singleton.mpr ?_)
          exact ih inner (by simp [children])
      | unary op operand =>
          refine .list ?_ (List.forall_mem_singleton.mpr (ih operand (by simp [children])))
          rw [UnaryOp.label, String.toList_append]
          cases op <;> decide
      | call name arguments =>
          refine .list (by decide) (List.forall_mem_cons.mpr ⟨hname htext, ?_⟩)
          rw [formAll_eq_map]
          exact List.forall_mem_map.mpr ih
      | binary op left right =>
          refine .list ?_ ?_
          · cases op <;> decide
          · simpa [children] using ih
      | assignment op target value =>
          refine .list ?_ ?_
          · cases op <;> decide
          · simpa [children] using ih
      | ternary | member | index =>
          exact .list (by decide) (by simpa [children] using ih)

end Expr

/-! ## Reading forms -/

namespace Form

/-- The kind of token that a word is. -/
def wordKind (text : List Char) : Token.Kind :=
  if text.all Char.isDigit then .int
  else if '.' ∈ text then .decimal
  else .ofWord text

/-- The expression that a word displays. -/
def leaf (text : List Char) : Expr :=
  match wordKind text with
  | .int => .constant .int (.ofList text)
  | .decimal => .constant .decimal (.ofList text)
  | .identifier => .var (.ofList text)
  | _ => .constant .bool (.ofList text)

/-- The expression that is displayed with a head and parts. -/
def compose? (head : String) (parts : List Expr) : Option Expr :=
  match head, parts with
  -- No operator is displayed with one of these heads.
  | "call", .var name :: arguments => some (.call name arguments)
  | "let", [.var name] => some (.declaration .let name)
  | "const", [.var name] => some (.declaration .const name)
  | "group", [inner] => some (.group inner)
  | ".", [target, part] => some (.member target part)
  | "[]", [target, position] => some (.index target position)
  | "?", [condition, ifTrue, ifFalse] => some (.ternary condition ifTrue ifFalse)
  -- Signs stand before one operand or between two: the number of parts tells them apart.
  | head, [operand] => (UnaryOp.all.find? (·.label == head)).map (.unary · operand)
  | head, [left, right] =>
    match BinaryOp.all.find? (·.symbol == head) with
    | some op => some (.binary op left right)
    | none => (AssignOp.all.find? (·.symbol == head)).map (.assignment · left right)
  | _, _ => none

mutual

/-- The expression that a form displays. -/
def expr? : Form → Option Expr
  | word text => some (leaf text)
  | quoted text => some (.constant .string (.ofList text))
  | list head parts => (exprAll? parts).bind (compose? (.ofList head))

/-- The expressions that the parts of a form display. -/
def exprAll? : List Form → Option (List Expr)
  | [] => some []
  | part :: rest => do return (← expr? part) :: (← exprAll? rest)

end

variable {expr : Expr}

theorem expr?_list {head : String} {parts : List Form} {exprs : List Expr}
    (hparts : exprAll? parts = some exprs) :
    expr? (.list head.toList parts) = compose? head exprs := by
  rw [expr?, hparts, String.ofList_toList, Option.bind_some]

theorem exprAll?_map {exprs : List Expr} (h : ∀ expr ∈ exprs, expr.form.expr? = some expr) :
    exprAll? (exprs.map Expr.form) = some exprs := by
  induction exprs with
  | nil => rfl
  | cons expr exprs ih =>
      obtain ⟨hexpr, hexprs⟩ := List.forall_mem_cons.mp h
      rw [List.map_cons, exprAll?, hexpr, ih hexprs]
      rfl

open Token.Lexeme in
theorem wordKind_of_isLexeme {kind : Token.Kind} {text : List Char}
    (h : IsLexeme kind text (some text)) (hstring : kind ≠ .string) : wordKind text = kind := by
  generalize hvalue : some text = value at h
  cases h with
  | symbol _ => cases hvalue
  | int _ hdigits => exact if_pos (List.all_eq_true.mpr hdigits)
  | decimal _ _ _ => rw [wordKind, if_neg (by simp), if_pos (by simp)]
  | @word c tail hletter htail =>
      have hdigit : c.isDigit = false := by
        cases hc : c.isDigit with
        | false => rfl
        | true => exact absurd hletter (by simp [isLetter_eq_false_of_isDigit hc])
      have hdot : '.' ∉ c :: tail := by
        rw [List.mem_cons, not_or]
        refine ⟨?_, fun hmem => absurd (htail _ hmem) (by decide)⟩
        rintro rfl
        exact absurd hletter (by decide)
      rw [wordKind, if_neg (by simp [hdigit]), if_neg hdot]
  | string _ => exact absurd rfl hstring

/-- An expression with names and literals that can be written is read back from its form. -/
theorem expr?_form (h : expr.Lexical) : expr.form.expr? = some expr := by
  have hname {name : String} (hname : Expr.IsName name) :
      expr? (.word name.toList) = some (.var name) := by
    rw [expr?, leaf, wordKind_of_isLexeme hname (by decide), String.ofList_toList]
  induction h with
  | @intro expr htext _ ih =>
      have hparts := exprAll?_map ih
      cases expr with
      | constant kind text =>
          cases kind with
          | string => rw [Expr.form, expr?, String.ofList_toList]
          | int | decimal =>
              rw [Expr.form, expr?, leaf, wordKind_of_isLexeme htext (by decide),
                String.ofList_toList]
              nofun
          | bool => rcases htext with rfl | rfl <;> rfl
      | var name => exact hname htext
      | declaration kind name =>
          have hparts : exprAll? [.word name.toList] = some [.var name] := by
            rw [exprAll?, hname htext]
            rfl
          refine (expr?_list hparts).trans ?_
          cases kind <;> rfl
      | group inner => exact expr?_list hparts
      | unary op operand =>
          -- The operand is split because a declaration too has one part, which has to be a name.
          refine (expr?_list hparts).trans ?_
          cases op <;> cases operand <;> rfl
      | call name arguments =>
          have harguments : exprAll? (arguments.map Expr.form) = some arguments := hparts
          have hall : exprAll? (.word name.toList :: Expr.formAll arguments) =
              some (.var name :: arguments) := by
            rw [exprAll?, hname htext, Expr.formAll_eq_map, harguments]
            rfl
          exact expr?_list hall
      | binary op left right =>
          refine (expr?_list hparts).trans ?_
          cases op <;> cases left <;> rfl
      | assignment op target value =>
          refine (expr?_list hparts).trans ?_
          cases op <;> cases target <;> rfl
      | ternary | member | index =>
          exact expr?_list hparts

end Form

/-! ## Parsed expressions -/

variable {first second : String} {left right : Expr}

/-- Two texts that are parsed to expressions with the same parenthesized form are parsed to the same
expression. -/
theorem eq_of_display_eq (hfirst : parse first = .ok left) (hsecond : parse second = .ok right)
    (h : left.display = right.display) : left = right := by
  have hleft := lexical_of_parse hfirst
  have hright := lexical_of_parse hsecond
  have hrender : left.form.render = right.form.render := by
    rw [← Expr.toList_display, h, Expr.toList_display]
  have hform : left.form = right.form :=
    Form.render_inj (Expr.legible_form hleft) (Expr.legible_form hright) hrender
  have hsome : some left = some right := by
    rw [← Form.expr?_form hleft, hform, Form.expr?_form hright]
  exact Option.some.inj hsome

set_option maxRecDepth 2048 in
theorem eq_of_display_eq_escaped :
    parse "\")\\\"\"+a" = .ok (.binary .add (.constant .string ")\"") (.var "a")) ∧
      parse "\")/\"\" +a" = .ok (.binary .add (.constant .string ")\"") (.var "a")) ∧
      (Expr.binary .add (.constant .string ")\"") (.var "a")).display = "(+ \")\\\"\" a)" ∧
      Expr.binary .add (.constant .string ")\"") (.var "a") =
        .binary .add (.constant .string ")\"") (.var "a") := by
  have hfirst : parse "\")\\\"\"+a" =
      .ok (.binary .add (.constant .string ")\"") (.var "a")) := by cbv
  have hsecond : parse "\")/\"\" +a" =
      .ok (.binary .add (.constant .string ")\"") (.var "a")) := by cbv
  exact ⟨hfirst, hsecond, by decide, eq_of_display_eq hfirst hsecond rfl⟩

end ExprLang
