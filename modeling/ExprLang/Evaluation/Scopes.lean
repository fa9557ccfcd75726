import ExprLang.Expr.Operator
import ExprLang.Value.Basic
import Std.Data.ExtTreeMap

/-!
# Scopes

Scopes lie inside one another, and a name means its binding in the innermost scope that has one.
The lemmas tell what a name means after a binding is made or changed; in both cases the one name
gets the binding and every other name keeps its own.
-/

namespace ExprLang

/-- A name with its value, which may still be missing. -/
structure Binding where
  kind : DeclarationKind
  value : Option Value
  deriving Repr, Inhabited

namespace Binding

/-- Whether the binding never takes another value. -/
def isFixed (binding : Binding) : Bool :=
  binding.kind == .const && binding.value.isSome

end Binding

/-- The bindings of one scope. -/
abbrev Scope := Std.ExtTreeMap String Binding compare

/-- Scopes inside one another, around all of which is the global one. -/
inductive Scopes where
  | global (scope : Scope)
  | inner (scope : Scope) (outer : Scopes)

namespace Scopes

/-- The number of scopes inside the global one. -/
def depth : Scopes → Nat
  | global _ => 0
  | inner _ outer => outer.depth + 1

/-- The binding that a name means. -/
def find? (name : String) : Scopes → Option Binding
  | global scope => scope[name]?
  | inner scope outer =>
    match scope[name]? with
    | some binding => some binding
    | none => outer.find? name

/-- Binds a name in the innermost scope. -/
def insert (name : String) (binding : Binding) : Scopes → Scopes
  | global scope => global (scope.insert name binding)
  | inner scope outer => inner (scope.insert name binding) outer

/-- Changes the binding that a name means. -/
def update (name : String) (binding : Binding) : Scopes → Scopes
  | global scope => global (scope.insert name binding)
  | inner scope outer =>
    if scope.contains name then inner (scope.insert name binding) outer
    else inner scope (outer.update name binding)

/-- Leaves the innermost scope; the global one stays. -/
def pop : Scopes → Scopes
  | global scope => global scope
  | inner _ outer => outer

theorem find?_insert (name other : String) (binding : Binding) (scopes : Scopes) :
    (scopes.insert name binding).find? other =
      if name = other then some binding else scopes.find? other := by
  cases scopes with
  | global scope =>
    simp only [insert, find?, Std.ExtTreeMap.getElem?_insert, Std.LawfulEqCmp.compare_eq_iff_eq]
  | inner scope outer =>
    simp only [insert, find?, Std.ExtTreeMap.getElem?_insert, Std.LawfulEqCmp.compare_eq_iff_eq]
    by_cases hname : name = other
    · simp only [if_pos hname]
    · simp only [if_neg hname]

theorem find?_update (name other : String) (binding : Binding) (scopes : Scopes) :
    (scopes.update name binding).find? other =
      if name = other then some binding else scopes.find? other := by
  induction scopes with
  | global scope => exact find?_insert name other binding (.global scope)
  | inner scope outer ih =>
    simp only [update]
    split
    next => exact find?_insert name other binding (.inner scope outer)
    next hmem =>
      rw [Std.ExtTreeMap.contains_eq_isSome_getElem?, Option.not_isSome_iff_eq_none] at hmem
      by_cases hname : name = other
      · subst hname
        simp only [find?, hmem, ih]
      · simp only [find?, ih, if_neg hname]

@[simp]
theorem depth_insert (name : String) (binding : Binding) (scopes : Scopes) :
    (scopes.insert name binding).depth = scopes.depth := by
  cases scopes <;> rfl

@[simp]
theorem depth_update (name : String) (binding : Binding) (scopes : Scopes) :
    (scopes.update name binding).depth = scopes.depth := by
  induction scopes with
  | global scope => rfl
  | inner scope outer ih =>
    simp only [update]
    split
    next => rfl
    next => simp [depth, ih]

end Scopes

end ExprLang
