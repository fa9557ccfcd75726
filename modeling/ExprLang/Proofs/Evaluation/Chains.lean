import ExprLang.Proofs.Environment.Constants
import ExprLang.Proofs.Evaluation.Outcome

/-!
# Chains of assignments

In `i += i = i *= i` all of the assignments go to one variable. They are made from the right to the
left, and each of them reads what the one to its right has stored. What was stored before an error
stays.
-/

namespace ExprLang

namespace Environment

variable {environment middle next : Environment} {name : String} {value last : Value}

/-- The variable that a name means gets a value, and nothing else changes. -/
def Rebinds (environment : Environment) (name : String) (value : Value) (next : Environment) :
    Prop :=
  ∃ home, environment.scopes.home? name = some home ∧
    environment.Puts home name ⟨.let, some value⟩ next

theorem rebinds_refl (h : environment.scopes.find? name = some ⟨.let, some value⟩) :
    environment.Rebinds name value environment := by
  cases hhome : environment.scopes.home? name with
  | none => cases (Scopes.eq_none_of_home? hhome).1.symm.trans h
  | some home =>
      obtain ⟨binding, hfind, hbinding⟩ := Scopes.exists_binding_of_home? hhome
      obtain rfl : binding = ⟨.let, some value⟩ := Option.some_inj.mp (hfind.symm.trans h)
      refine ⟨home, hhome, rfl, rfl, fun otherDepth other => ?_⟩
      split
      next hsame =>
        obtain ⟨rfl, rfl⟩ := hsame
        exact hbinding
      next => rfl

theorem Rebinds.home?_eq (h : environment.Rebinds name value next) :
    next.scopes.home? name = environment.scopes.home? name := by
  obtain ⟨home, hhome, hputs⟩ := h
  rw [hhome]
  exact hputs.home?_eq fun _ hlt => Scopes.bindingAt?_eq_none_of_home?_lt hhome hlt

theorem Rebinds.find?_eq (h : environment.Rebinds name value next) :
    next.scopes.find? name = some ⟨.let, some value⟩ := by
  have hsame := h.home?_eq
  obtain ⟨home, hhome, hputs⟩ := h
  obtain ⟨binding, hfind, hbinding⟩ := Scopes.exists_binding_of_home? (hsame.trans hhome)
  have hput := (hputs.bindingAt?_eq home name).trans (if_pos ⟨rfl, rfl⟩)
  rw [hfind, ← hbinding]
  exact hput

theorem Rebinds.trans (h : environment.Rebinds name value middle)
    (h' : middle.Rebinds name last next) : environment.Rebinds name last next := by
  have hsame := h.home?_eq
  obtain ⟨home, hhome, hputs⟩ := h
  obtain ⟨home', hhome', hputs'⟩ := h'
  obtain rfl : home = home' := Option.some_inj.mp (hhome.symm.trans (hsame.symm.trans hhome'))
  exact ⟨home, hhome, hputs.trans hputs'⟩

theorem exists_assign (h : environment.scopes.find? name = some ⟨.let, some value⟩)
    (last : Value) :
    ∃ next, environment.assign name last = .ok next ∧ environment.Rebinds name last next := by
  cases hassign : environment.assign name last with
  | error error =>
      obtain ⟨-, constant, hconst⟩ := assign_eq_error_iff.mp hassign
      cases h.symm.trans hconst
  | ok next =>
      rcases puts_of_assign hassign with ⟨home, binding, hhome, hbinding, -, hputs⟩ | ⟨hhome, -⟩
      · obtain ⟨found, hfind, hfound⟩ := Scopes.exists_binding_of_home? hhome
        obtain rfl : binding = found := Option.some_inj.mp (hbinding.symm.trans hfound)
        obtain rfl : binding = ⟨.let, some value⟩ := Option.some_inj.mp (hfind.symm.trans h)
        exact ⟨next, rfl, home, hhome, hputs⟩
      · cases (Scopes.eq_none_of_home? hhome).1.symm.trans h

end Environment

/-! ## Folds -/

namespace AssignOp

variable {op : AssignOp} {ops : List AssignOp} {first : Value}

/-- The value that a chain of assignments comes to: from the right to the left, each operator has
the value so far on both sides. -/
def fold (ops : List AssignOp) (first : Value) : Except RuntimeError Value :=
  ops.foldrM (fun op value => op.combine value value) first

/-- The operator next to the left of some others fails, with the value that these come to. -/
def FailsAfter (op : AssignOp) (later : List AssignOp) (first value : Value)
    (error : RuntimeError) : Prop :=
  fold later first = .ok value ∧ op.combine value value = .error error

theorem fold_cons (op : AssignOp) (ops : List AssignOp) (first : Value) :
    fold (op :: ops) first = fold ops first >>= fun value => op.combine value value :=
  List.foldrM_cons ..

theorem fold_cons_eq_ok {last : Value} (h : fold (op :: ops) first = .ok last) :
    ∃ value, fold ops first = .ok value ∧ op.combine value value = .ok last := by
  rw [fold_cons] at h
  cases hfold : fold ops first with
  | error error =>
      rw [hfold] at h
      cases h
  | ok value =>
      rw [hfold] at h
      exact ⟨value, rfl, h⟩

/-- A fold that does not come to a value fails at one of its operators. -/
theorem exists_failsAfter {error : RuntimeError} (h : fold ops first = .error error) :
    ∃ earlier op later value, ops = earlier ++ op :: later ∧
      FailsAfter op later first value error := by
  induction ops with
  | nil => cases h
  | cons op ops ih =>
      rw [fold_cons] at h
      cases hfold : fold ops first with
      | error inner =>
          rw [hfold] at h
          cases h
          obtain ⟨earlier, failing, later, value, rfl, hfails⟩ := ih hfold
          exact ⟨op :: earlier, failing, later, value, rfl, hfails⟩
      | ok value =>
          rw [hfold] at h
          exact ⟨[], op, ops, value, rfl, hfold, h⟩

end AssignOp

/-! ## Runs -/

namespace Machine

variable (machine : Machine) {name : String} {old value : Value} {op : AssignOp}

theorem run_assign_of_ok (h : machine.environment.scopes.find? name = some ⟨.let, some old⟩)
    {last : Value} (hcombine : op.combine old value = .ok last) :
    ∃ environment, machine.environment.Rebinds name last environment ∧
      ((Place.var name).assign op value).run machine = .ok last { machine with environment } := by
  obtain ⟨environment, hassign, hrebinds⟩ := Environment.exists_assign h last
  have hstored : (Place.var name).stored last machine = .ok { machine with environment } := by
    rw [Place.stored, hassign]
    rfl
  refine ⟨environment, hrebinds, ?_⟩
  rw [Place.run_assign (Place.run_read_var h), hcombine]
  exact EvalM.run_bind_of_ok (Place.run_write_of_ok Place.isPlain_var hstored) _

theorem run_assign_of_error (h : machine.environment.scopes.find? name = some ⟨.let, some old⟩)
    {error : RuntimeError} (hcombine : op.combine old value = .error error) :
    ((Place.var name).assign op value).run machine = .error error machine := by
  rw [Place.run_assign (Place.run_read_var h), hcombine]
  rfl

end Machine

namespace Expr

/-- A variable that is assigned to with each operator, and in the end stands alone. -/
def chain (name : String) (ops : List AssignOp) : Expr :=
  ops.foldr (fun op source => .assignment op (.var name) source) (.var name)

variable {machine : Machine} {name : String} {first : Value}
  {ops earlier later : List AssignOp} {op : AssignOp}

theorem evaluate_chain_cons (mode : LogicMode) (name : String) (op : AssignOp)
    (ops : List AssignOp) :
    (chain name (op :: ops)).evaluate mode =
      (chain name ops).evaluate mode >>= (Place.var name).assign op := by
  rw [chain, List.foldr_cons, evaluate, evaluatePlace, pure_bind]
  rfl

/-- A chain whose fold comes to a value answers it and has stored it. -/
theorem run_chain_of_ok (mode : LogicMode)
    (h : machine.environment.scopes.find? name = some ⟨.let, some first⟩)
    {last : Value} (hfold : AssignOp.fold ops first = .ok last) :
    ∃ environment, machine.environment.Rebinds name last environment ∧
      ((chain name ops).evaluate mode).run machine = .ok last { machine with environment } := by
  induction ops generalizing last with
  | nil =>
      cases hfold
      refine ⟨machine.environment, Environment.rebinds_refl h, ?_⟩
      exact Place.run_read_var h
  | cons op ops ih =>
      obtain ⟨value, hvalue, hcombine⟩ := AssignOp.fold_cons_eq_ok hfold
      obtain ⟨middle, hmiddle, hrun⟩ := ih hvalue
      -- The operator finds the value that the chain to its right has just stored.
      obtain ⟨environment, hlast, hassign⟩ :=
        Machine.run_assign_of_ok { machine with environment := middle } hmiddle.find?_eq hcombine
      refine ⟨environment, hmiddle.trans hlast, ?_⟩
      rw [evaluate_chain_cons, EvalM.run_bind_of_ok hrun, hassign]

/-- A chain whose fold fails at an operator has stored what was right of it. -/
theorem run_chain_of_error (mode : LogicMode)
    (h : machine.environment.scopes.find? name = some ⟨.let, some first⟩)
    {value : Value} {error : RuntimeError} (hfails : op.FailsAfter later first value error) :
    ∃ environment, machine.environment.Rebinds name value environment ∧
      ((chain name (earlier ++ op :: later)).evaluate mode).run machine =
        .error error { machine with environment } := by
  obtain ⟨environment, hrebinds, hrun⟩ := run_chain_of_ok mode h hfails.1
  refine ⟨environment, hrebinds, ?_⟩
  induction earlier with
  | nil =>
      rw [List.nil_append, evaluate_chain_cons, EvalM.run_bind_of_ok hrun]
      exact Machine.run_assign_of_error _ hrebinds.find?_eq hfails.2
  | cons skipped earlier ih =>
      rw [List.cons_append, evaluate_chain_cons, EvalM.run_bind_of_error ih]

/-- What a chain of assignments to a variable does. -/
structure ChainFolds (mode : LogicMode) (machine : Machine) (name : String)
    (ops : List AssignOp) (first : Value) : Prop where
  /-- The variable ends with the value that is answered, and nothing else changes. -/
  of_ok : ∀ last, AssignOp.fold ops first = .ok last →
    ∃ environment, machine.environment.Rebinds name last environment ∧
      ((chain name ops).evaluate mode).run machine = .ok last { machine with environment }
  /-- The error of an operator is answered. The variable ends with the value before it, and nothing
  else changes. -/
  of_error : ∀ earlier op later value error, ops = earlier ++ op :: later →
    op.FailsAfter later first value error →
      ∃ environment, machine.environment.Rebinds name value environment ∧
        ((chain name ops).evaluate mode).run machine = .error error { machine with environment }
  /-- There is a value, or there is an operator that fails. -/
  ok_or_error : (∃ last, AssignOp.fold ops first = .ok last) ∨
    ∃ earlier op later value error, ops = earlier ++ op :: later ∧
      op.FailsAfter later first value error

/-- A chain of assignments to a variable that can be changed folds its operators from the right. -/
theorem chain_folds (mode : LogicMode) (ops : List AssignOp)
    (h : machine.environment.scopes.find? name = some ⟨.let, some first⟩) :
    ChainFolds mode machine name ops first where
  of_ok _ hfold := run_chain_of_ok mode h hfold
  of_error earlier op later value error hops hfails := by
    rw [hops]
    exact run_chain_of_error mode h hfails
  ok_or_error := by
    cases hfold : AssignOp.fold ops first with
    | ok last => exact .inl ⟨last, rfl⟩
    | error error =>
        obtain ⟨earlier, op, later, value, hops, hfails⟩ := AssignOp.exists_failsAfter hfold
        exact .inr ⟨earlier, op, later, value, error, hops, hfails⟩

/-- In `i += i /= i -= i`, the difference is stored before the division fails. -/
theorem chain_folds_byZero :
    let machine := Machine.ofEnvironment (Environment.empty.define "i" (.int 3))
    machine.environment.scopes.find? "i" = some ⟨.let, some (.int 3)⟩ ∧
      AssignOp.FailsAfter .divide [.subtract] (.int 3) (.int 0) .divisionByZero ∧
      ChainFolds .eager machine "i" [.add, .divide, .subtract] (.int 3) := by
  intro machine
  have hfind : machine.environment.scopes.find? "i" = some ⟨.let, some (.int 3)⟩ := rfl
  exact ⟨hfind, ⟨rfl, rfl⟩, chain_folds .eager _ hfind⟩

/-- Sums before a product. -/
example : AssignOp.fold [.multiply, .add, .add] (.int 1) = .ok (.int 16) := by
  rfl

end Expr

end ExprLang
