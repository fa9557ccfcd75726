import ExprLang.Proofs.Environment.Constants
import ExprLang.Proofs.Evaluation.Agreement
import ExprLang.Proofs.Evaluation.Frame

/-!
# Compound assignments

`x += r` reads `x` after it has evaluated `r`, and `x = x + r` reads it before. So the one stands
for the other where `r` leaves `x` alone, whatever else `r` changes and wherever it fails.
-/

namespace ExprLang

theorem Environment.lookup_eq_ok_iff {environment : Environment} {name : String} {value : Value} :
    environment.lookup name = .ok value ↔ environment.get? name = some value := by
  rw [lookup, get?]
  cases environment.scopes.find? name with
  | none => simp
  | some binding =>
      obtain ⟨kind, found⟩ := binding
      cases found <;> simp

/-- The operator of a compound assignment evaluates both of its operands. -/
theorem BinaryOp.decided?_of_binary? {op : AssignOp} {compound : BinaryOp}
    (h : op.binary? = some compound) (mode : LogicMode) (first : Value) :
    compound.decided? mode first = none := by
  cases op <;> cases h <;> rfl

namespace Expr

variable {machine next : Machine} {name : String} {old value : Value} {op : AssignOp}
  {compound : BinaryOp} {source : Expr}

/-- What a name means stays the same where the name is not written to. -/
theorem find?_after_evaluate {expr : Expr} (h : name ∉ expr.writeTargets) (mode : LogicMode)
    (machine : Machine) :
    ((expr.evaluate mode).after machine).environment.scopes.find? name =
      machine.environment.scopes.find? name := by
  apply environment_after_evaluate fun environment =>
    environment.scopes.find? name = machine.environment.scopes.find? name
  case h => rfl
  case hassign =>
    intro inner start other value environment next hvisits htarget hassign hfind
    have hne : other ≠ name := by
      rintro rfl
      exact h (.inl ⟨inner, hvisits.contains, htarget⟩)
    rw [Environment.find?_of_assign hassign, if_neg hne]
    exact hfind
  case hdeclare =>
    intro op kind other source start value result last environment hvisits hrun hfind
    have hne : other ≠ name := by
      rintro rfl
      exact h (.inr ⟨op, kind, source, hvisits.contains⟩)
    rw [Environment.find?_declare, if_neg hne]
    exact hfind

/-- The plain assignment that a compound one is short for. -/
def expanded (name : String) (compound : BinaryOp) (source : Expr) : Expr :=
  .assignment .assign (.var name) (.binary compound (.var name) source)

/-- The operator is applied after the right side, to the value that the name has before it. -/
theorem run_evaluate_binary_var (mode : LogicMode) (source : Expr)
    (hop : op.binary? = some compound) (hold : (Place.var name).current machine = .ok old) :
    ((Expr.binary compound (.var name) source).evaluate mode).run machine =
      (source.evaluate mode >>= fun value =>
        EvalM.ofExcept (compound.apply old value)).run machine := by
  rw [evaluate, evaluate, EvalM.run_bind_of_ok (Place.run_read_of_ok Place.isPlain_var hold)]
  simp only [BinaryOp.decided?_of_binary? hop]

/-- Storing what an operator makes of the old value is a plain assignment of it. -/
theorem run_assign_eq_run_plain (hop : op.binary? = some compound)
    (hold : (Place.var name).current machine = .ok old) (value : Value) :
    ((Place.var name).assign op value).run machine =
      (EvalM.ofExcept (compound.apply old value) >>=
        (Place.var name).assign .assign).run machine := by
  have hcombine : op.combine old value = compound.apply old value := by
    rw [AssignOp.combine, hop]
  rw [Place.run_assign (Place.run_read_of_ok Place.isPlain_var hold), hcombine]
  cases compound.apply old value with
  | error error => rfl
  | ok stored => rfl

/-- A compound assignment to a variable that has a value does what the plain assignment does that it
is short for, if its right side does not write to the variable: it answers the same value or fails
with the same error, and leaves the same environment and the same objects. -/
theorem run_compound_eq_run_expanded (mode : LogicMode) (hop : op.binary? = some compound)
    (hvalue : machine.environment.get? name = some old) (hsource : name ∉ source.writeTargets) :
    ((Expr.assignment op (.var name) source).evaluate mode).run machine =
      ((expanded name compound source).evaluate mode).run machine := by
  have hold : (Place.var name).current machine = .ok old :=
    Environment.lookup_eq_ok_iff.mpr hvalue
  have hbinary := run_evaluate_binary_var mode source hop hold
  rw [expanded, evaluate, evaluate, evaluatePlace, pure_bind, pure_bind]
  cases hrun : (source.evaluate mode).run machine with
  | error error next =>
      rw [EvalM.run_bind_of_error hrun] at hbinary
      rw [EvalM.run_bind_of_error hrun, EvalM.run_bind_of_error hbinary]
  | ok value next =>
      -- The right side has not changed what the name means.
      have hlast : (Place.var name).current next = .ok old := by
        have hfind := find?_after_evaluate hsource mode machine
        rw [EvalM.after_of_ok hrun] at hfind
        rw [Place.current, Environment.lookup, hfind]
        exact hold
      rw [EvalM.run_bind_of_ok hrun] at hbinary
      rw [EvalM.run_bind_of_ok hrun, run_assign_eq_run_plain hop hlast, EStateM.run_bind,
        EStateM.run_bind, hbinary]

/-- The right side grows a list, steps another variable, and answers the new length. -/
theorem run_compound_eq_run_expanded_push :
    let globals := ((Environment.empty.define "x" (.int 4)).define "y" (.int 7)).define "items"
      (.object 0)
    let machine : Machine :=
      { environment := globals.pushScope, heap := ⟨#[.list #[.bool true]]⟩ }
    let source : Expr :=
      .member (.var "items") (.call "push" [.unary .incrementAfter (.var "y")])
    AssignOp.multiply.binary? = some .multiply ∧
      machine.environment.get? "x" = some (.int 4) ∧ "x" ∉ source.writeTargets ∧
      ((Expr.assignment .multiply (.var "x") source).evaluate .eager).run machine =
        ((expanded "x" .multiply source).evaluate .eager).run machine := by
  intro globals machine source
  have hvalue : machine.environment.get? "x" = some (.int 4) := by rfl
  have hparts : ∀ inner, source.Contains inner →
      inner = source ∨ inner = .unary .incrementAfter (.var "y") ∨ ∃ name, inner = .var name := by
    intro inner hinner
    change (Expr.member (.var "items") (.call "push" [.unary .incrementAfter (.var "y")])).Contains
      inner at hinner
    rcases hinner with _ | ⟨hpart, hinner⟩
    · exact .inl rfl
    · simp only [operands, List.mem_cons, List.not_mem_nil, or_false] at hpart
      rcases hpart with rfl | rfl
      · exact .inr (.inr ⟨_, hinner.eq_of_leaf rfl⟩)
      · rcases hinner with _ | ⟨hpart, hinner⟩
        · exact .inr (.inl rfl)
        · obtain rfl := List.mem_singleton.mp hpart
          exact .inr (.inr ⟨_, hinner.eq_of_leaf rfl⟩)
  have hsource : "x" ∉ source.writeTargets := by
    rintro (⟨inner, hinner, htarget⟩ | ⟨op, kind, assigned, hinner⟩)
    · rcases hparts inner hinner with rfl | rfl | ⟨name, rfl⟩ <;>
        simp [source, target?, UnaryOp.mutates] at htarget
    · rcases hparts _ hinner with h | h | ⟨name, h⟩ <;> simp [source] at h
  exact ⟨rfl, hvalue, hsource, run_compound_eq_run_expanded .eager rfl hvalue hsource⟩

end Expr

end ExprLang
