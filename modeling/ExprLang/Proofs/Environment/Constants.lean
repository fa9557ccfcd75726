import ExprLang.Proofs.Environment.Requests
import ExprLang.Proofs.Evaluation.Writes

/-!
# Constants

A constant that has a value keeps it over whole runs of requests, until its scope is left or its
name is declared anew in that scope. Whatever else writes to it is refused.
-/

namespace ExprLang

namespace Environment

/-- A constant has a value in the scope at a depth. -/
def Fixes (environment : Environment) (depth : Nat) (name : String) (constant : Value) : Prop :=
  environment.bindingAt? depth name = some ⟨.const, some constant⟩

variable {environment next : Environment} {depth : Nat} {name : String} {constant : Value}

theorem Fixes.puts {otherDepth : Nat} {other : String} {binding : Binding}
    (h : environment.Fixes depth name constant)
    (hputs : environment.Puts otherDepth other binding next)
    (hne : ¬ (depth = otherDepth ∧ other = name)) : next.Fixes depth name constant := by
  rw [Fixes, hputs.bindingAt?_eq, if_neg hne]
  exact h

theorem Fixes.declare (h : environment.Fixes depth name constant) {other : String}
    {kind : DeclarationKind} {value : Option Value}
    (hne : ¬ (environment.depth = depth ∧ other = name)) :
    (environment.declare other kind value).Fixes depth name constant :=
  h.puts (environment.puts_declare other kind value) fun hboth => hne ⟨hboth.1.symm, hboth.2⟩

/-- An assignment that succeeds goes to another binding. -/
theorem Fixes.assign (h : environment.Fixes depth name constant) {other : String} {value : Value}
    (hassign : environment.assign other value = .ok next) : next.Fixes depth name constant := by
  rcases puts_of_assign hassign with ⟨home, binding, -, hbinding, hfixed, hputs⟩ | ⟨hhome, hputs⟩
  · refine h.puts hputs ?_
    rintro ⟨rfl, rfl⟩
    cases hbinding.symm.trans h
    cases hfixed
  · refine h.puts hputs ?_
    rintro ⟨-, rfl⟩
    cases ((Scopes.eq_none_of_home? hhome).2 depth).symm.trans h

theorem Fixes.find? (h : environment.Fixes depth name constant)
    (hhome : environment.scopes.home? name = some depth) :
    environment.scopes.find? name = some ⟨.const, some constant⟩ := by
  obtain ⟨binding, hfind, hbinding⟩ := Scopes.exists_binding_of_home? hhome
  rw [hfind, ← hbinding]
  exact h

end Environment

namespace Machine

variable {machine : Machine} {depth : Nat} {name : String} {constant : Value}

/-- An evaluation that does not declare the name in the scope of the constant keeps it. -/
theorem fixes_evaluate {mode : LogicMode} {expr : Expr}
    (h : machine.environment.Fixes depth name constant)
    (hspares : machine.environment.depth = depth → ¬ expr.Declares mode machine name) :
    ((expr.evaluate mode).after machine).environment.Fixes depth name constant := by
  -- The innermost scope stays the same one, so it can be told for each declaration.
  suffices hkept : ((expr.evaluate mode).after machine).environment.depth =
        machine.environment.depth ∧
      ((expr.evaluate mode).after machine).environment.Fixes depth name constant from hkept.2
  apply Expr.environment_after_evaluate fun environment =>
    environment.depth = machine.environment.depth ∧ environment.Fixes depth name constant
  case h => exact ⟨rfl, h⟩
  case hassign =>
    rintro inner start other value environment next hvisits htarget hassign ⟨hdepth, hfixes⟩
    refine ⟨?_, hfixes.assign hassign⟩
    rcases Environment.puts_of_assign hassign with ⟨_, _, -, -, -, hputs⟩ | ⟨-, hputs⟩ <;>
      exact hputs.depth_eq.trans hdepth
  case hdeclare =>
    rintro op kind other source start value result last environment hvisits hrun ⟨hdepth, hfixes⟩
    refine ⟨(environment.puts_declare other kind (some value)).depth_eq.trans hdepth,
      hfixes.declare ?_⟩
    rintro ⟨hinner, rfl⟩
    exact hspares (hdepth.symm.trans hinner) ⟨op, kind, source, start, result, last, hvisits, hrun⟩

theorem fixes_perform {request : Request} (h : machine.environment.Fixes depth name constant)
    (hspares : request.Spares depth name machine) :
    (machine.perform request).environment.Fixes depth name constant := by
  cases request with
  | define other value => exact h.declare hspares
  | declare other kind value => exact h.declare hspares
  | assign other value =>
      rw [perform]
      split
      next hassign => exact h.assign hassign
      next => exact h
  | pushScope => exact (Scopes.bindingAt?_inner_empty _ depth name).trans h
  | popScope => exact (Scopes.bindingAt?_pop (hspares.imp_left Ne.symm)).trans h
  | evaluate mode expr => exact fixes_evaluate h hspares

theorem fixes_performAll {requests : List Request}
    (h : machine.environment.Fixes depth name constant)
    (hspares : machine.Spares depth name requests) :
    (machine.performAll requests).environment.Fixes depth name constant := by
  induction requests generalizing machine with
  | nil => exact h
  | cons request rest ih => exact ih (fixes_perform h hspares.1) hspares.2

end Machine

/-! ## Refused writes -/

/-- The value that an assignment makes of the old value and of the right side. -/
def AssignOp.combine (op : AssignOp) (old new : Value) : Except RuntimeError Value :=
  match op.binary? with
  | none => .ok new
  | some compound => compound.apply old new

/-- An assignment stores what its operator makes of the value that is there and of the new one. -/
theorem Place.run_assign {place : Place} {machine : Machine} {old : Value}
    (h : place.read.run machine = .ok old machine) (op : AssignOp) (value : Value) :
    (place.assign op value).run machine =
      (EvalM.ofExcept (op.combine old value) >>= fun stored => do
        place.write stored
        return stored).run machine := by
  rw [Place.assign, AssignOp.combine]
  cases op.binary? with
  | none => rfl
  | some compound =>
      dsimp only
      rw [EvalM.run_bind_of_ok h]

namespace RuntimeError

/-- The error where a constant would have to be given what is found: if a value is found, it is
refused. -/
def ofRefusal (name : String) : Except RuntimeError Value → RuntimeError
  | .ok _ => .constantReassignment name
  | .error error => error

end RuntimeError

namespace Machine

/-- Nothing can be written to a name, which means a constant. -/
structure Refuses (machine : Machine) (name : String) (constant : Value) : Prop where
  assign : ∀ value, machine.environment.assign name value = .error (.constantReassignment name)
  step : ∀ (mode : LogicMode) (op : UnaryOp), op.mutates = true →
    ((Expr.unary op (.var name)).evaluate mode).run machine =
      .error (.ofRefusal name (op.stepped constant)) machine
  assignment : ∀ (mode : LogicMode) (op : AssignOp) (source : Expr) (start : Machine),
    (source.evaluate mode).after start = machine →
      ((Expr.assignment op (.var name) source).evaluate mode).run start =
        .error (.ofRefusal name ((source.evaluate mode).answer start >>= op.combine constant))
          machine

section

variable {machine : Machine} {depth : Nat} {name : String} {constant : Value}

theorem run_write_of_const
    (h : machine.environment.scopes.find? name = some ⟨.const, some constant⟩) (value : Value) :
    ((Place.var name).write value).run machine = .error (.constantReassignment name) machine := by
  have hassign : machine.environment.assign name value = .error (.constantReassignment name) :=
    Environment.assign_eq_error_iff.mpr ⟨rfl, constant, h⟩
  rw [Place.run_write Place.isPlain_var, Place.stored, hassign]
  rfl

theorem run_step_of_const
    (h : machine.environment.scopes.find? name = some ⟨.const, some constant⟩) (op : UnaryOp) :
    ((Place.var name).step op).run machine =
      .error (.ofRefusal name (op.stepped constant)) machine := by
  rw [Place.run_step (Place.run_read_var h)]
  cases op.stepped constant with
  | error error => rfl
  | ok next => exact EvalM.run_bind_of_error (run_write_of_const h next) _

theorem run_assign_of_const
    (h : machine.environment.scopes.find? name = some ⟨.const, some constant⟩) (op : AssignOp)
    (value : Value) :
    ((Place.var name).assign op value).run machine =
      .error (.ofRefusal name (op.combine constant value)) machine := by
  rw [Place.run_assign (Place.run_read_var h)]
  cases op.combine constant value with
  | error error => rfl
  | ok stored => exact EvalM.run_bind_of_error (run_write_of_const h stored) _

theorem refuses_of_const
    (h : machine.environment.scopes.find? name = some ⟨.const, some constant⟩) :
    machine.Refuses name constant where
  assign value := Environment.assign_eq_error_iff.mpr ⟨rfl, constant, h⟩
  step mode op hop := by
    rw [Expr.evaluate, if_pos hop]
    exact run_step_of_const h op
  assignment mode op source start hafter := by
    rw [Expr.evaluate, Expr.evaluatePlace, pure_bind]
    cases hrun : (source.evaluate mode).run start with
    | error error next =>
        rw [EvalM.run_bind_of_error hrun, EvalM.answer_of_error hrun]
        rw [EvalM.after_of_error hrun] at hafter
        rw [hafter]
        rfl
    | ok value next =>
        rw [EvalM.run_bind_of_ok hrun, EvalM.answer_of_ok hrun]
        rw [EvalM.after_of_ok hrun] at hafter
        rw [hafter]
        exact run_assign_of_const h op value

/-- A constant keeps its value over every run that spares it, and refuses all that is written to it
by its name then. -/
theorem constant_performAll {requests : List Request}
    (h : machine.environment.Fixes depth name constant)
    (hspares : machine.Spares depth name requests) :
    (machine.performAll requests).environment.Fixes depth name constant ∧
      ((machine.performAll requests).environment.scopes.home? name = some depth →
        (machine.performAll requests).Refuses name constant) :=
  have hfixes := fixes_performAll h hspares
  ⟨hfixes, fun hhome => refuses_of_const (hfixes.find? hhome)⟩

/-- A run that tries to assign to a constant, shadows it and leaves the scope again. -/
theorem constant_performAll_shadowed :
    let machine := Machine.ofEnvironment (Environment.empty.declare "k" .const (some (.int 1)))
    let requests : List Request :=
      [.evaluate .eager (.assignment .assign (.var "k") (.constant .int "2")), .pushScope,
        .declare "k" .let (some (.int 3)), .popScope, .assign "k" (.int 4)]
    machine.environment.Fixes 0 "k" (.int 1) ∧ machine.Spares 0 "k" requests ∧
      (machine.performAll requests).environment.Fixes 0 "k" (.int 1) ∧
      (machine.performAll requests).Refuses "k" (.int 1) := by
  intro machine requests
  have hkeeps : machine.environment.Fixes 0 "k" (.int 1) := rfl
  have hspares : machine.Spares 0 "k" requests := by
    refine ⟨?_, trivial, fun hinner => Nat.one_ne_zero hinner.1, .inl Nat.one_ne_zero, trivial,
      trivial⟩
    rintro - ⟨op, kind, source, start, result, next, hvisits, -⟩
    cases hvisits.contains with
    | @operand _ part _ hpart hinner =>
        have hleaf : part = .var "k" ∨ part = .constant .int "2" := by
          simpa [Expr.operands, Expr.children] using hpart
        rcases hleaf with rfl | rfl <;>
          cases hinner with | operand hpart _ => cases hpart
  obtain ⟨hfixes, hrefuses⟩ := constant_performAll hkeeps hspares
  exact ⟨hkeeps, hspares, hfixes, hrefuses rfl⟩

end

end Machine

end ExprLang
