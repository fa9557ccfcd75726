import Mathlib.Data.Set.Basic
import ExprLang.Proofs.Evaluation.Writes

/-!
# What an evaluation leaves alone

An evaluation opens and leaves no scope and defines no function. It only touches bindings of names
that the expression writes to, it removes none, and in the scopes around the innermost one it
neither makes a binding nor declares one anew.
-/

namespace ExprLang

/-- One environment differs from another in the values of the given names and in what the innermost
scope declares for them. -/
structure Environment.Frames (names : Set String) (environment next : Environment) : Prop where
  depth_eq : next.depth = environment.depth
  functions_eq : next.functions = environment.functions
  untouched : ∀ name, name ∉ names → ∀ depth,
    next.bindingAt? depth name = environment.bindingAt? depth name
  kept : ∀ depth name, (environment.bindingAt? depth name).isSome = true →
    (next.bindingAt? depth name).isSome = true
  outer : ∀ depth, depth < environment.depth → ∀ name,
    (next.bindingAt? depth name).map Binding.kind =
      (environment.bindingAt? depth name).map Binding.kind

namespace Environment.Frames

variable {names : Set String} {environment next last : Environment} {depth : Nat} {name : String}
  {binding : Binding}

theorem refl (names : Set String) (environment : Environment) :
    environment.Frames names environment :=
  ⟨rfl, rfl, fun _ _ _ => rfl, fun _ _ h => h, fun _ _ _ => rfl⟩

/-- A binding may be put for one of the names into the innermost scope, and into another scope if
its kind is that of the binding there. -/
theorem puts (h : environment.Frames names next) (hputs : next.Puts depth name binding last)
    (hname : name ∈ names)
    (hplace : depth = next.depth ∨
      (next.bindingAt? depth name).map Binding.kind = some binding.kind) :
    environment.Frames names last where
  depth_eq := hputs.depth_eq.trans h.depth_eq
  functions_eq := hputs.functions_eq.trans h.functions_eq
  untouched other hother otherDepth := by
    have hne : ¬ (otherDepth = depth ∧ name = other) := fun hboth => hother (hboth.2 ▸ hname)
    rw [hputs.bindingAt?_eq, if_neg hne]
    exact h.untouched other hother otherDepth
  kept otherDepth other hsome := by
    rw [hputs.bindingAt?_eq]
    split
    next => rfl
    next => exact h.kept otherDepth other hsome
  outer otherDepth hlt other := by
    rw [← h.outer otherDepth hlt other, hputs.bindingAt?_eq]
    split
    next hsame =>
      obtain ⟨rfl, rfl⟩ := hsame
      have hdepth := h.depth_eq
      rw [hplace.resolve_left (by omega)]
      rfl
    next => rfl

end Environment.Frames

namespace Expr

/-- The names that an expression writes to somewhere: variables that are assigned to or stepped, and
declarations that are assigned to. -/
def writeTargets (expr : Expr) : Set String :=
  {name | (∃ inner, expr.Contains inner ∧ inner.target? = some (.var name)) ∨
    ∃ op kind source, expr.Contains (.assignment op (.declaration kind name) source)}

/-- Whether it succeeds or fails, an evaluation keeps the scopes, the functions and every binding of
a name that is not written to; it removes no binding, and new ones and other kinds of bindings only
come into the innermost scope. -/
theorem frames_evaluate (mode : LogicMode) (expr : Expr) (machine : Machine) :
    machine.environment.Frames expr.writeTargets
      ((expr.evaluate mode).after machine).environment := by
  apply environment_after_evaluate (machine.environment.Frames expr.writeTargets)
  case h => exact .refl _ _
  case hassign =>
    intro inner start name value environment next hvisits htarget hassign hframes
    have hname : name ∈ expr.writeTargets := .inl ⟨inner, hvisits.contains, htarget⟩
    rcases Environment.puts_of_assign hassign with ⟨home, binding, -, hbinding, -, hputs⟩ |
      ⟨-, hputs⟩
    · exact hframes.puts hputs hname (.inr (congrArg _ hbinding))
    · exact hframes.puts hputs hname (.inl rfl)
  case hdeclare =>
    intro op kind name source start value result last environment hvisits hrun hframes
    have hname : name ∈ expr.writeTargets := .inr ⟨op, kind, source, hvisits.contains⟩
    exact hframes.puts (environment.puts_declare name kind (some value)) hname (.inl rfl)

end Expr

end ExprLang
