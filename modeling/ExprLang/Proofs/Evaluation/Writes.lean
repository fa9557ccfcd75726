import ExprLang.Proofs.Evaluation.Judgement

/-!
# What an evaluation writes to the environment

The environment changes only where an assignment or a step stores to a variable, or an assignment to
a declaration. So a property of environments that these writes keep is kept by the whole evaluation,
whether it succeeds or fails.
-/

namespace ExprLang

/-- An evaluation keeps a property of the machine. -/
def Judgement.keeping (invariant : Machine → Prop) : Judgement where
  Holds machine x answer := invariant machine →
    invariant (x.after machine) ∧ ∀ a next, x.run machine = .ok a next → answer a
  pure hanswer hinvariant := by
    refine ⟨hinvariant, ?_⟩
    rintro a next ⟨⟩
    exact hanswer
  bind {α β machine x rest middle answer} hx hrest hinvariant := by
    obtain ⟨hafter, hmiddle⟩ := hx hinvariant
    cases hrun : x.run machine with
    | ok a next =>
        rw [EvalM.after_of_ok hrun] at hafter
        rw [EvalM.after, EvalM.run_bind_of_ok hrun]
        exact hrest a next hrun (hmiddle a next hrun) hafter
    | error error next =>
        rw [EvalM.after_of_error hrun] at hafter
        rw [EvalM.after, EvalM.run_bind_of_error hrun]
        exact ⟨hafter, nofun⟩

/-! ## Invariants on the way -/

section

variable {invariant : Machine → Prop} {mode : LogicMode} {accepts : Value → Prop}
  {expr part inner : Expr} {machine next start : Machine}

theorem Judgement.invariant_of_run {α : Type} {x : EvalM α} {answer : α → Prop} {a : α}
    (hx : (Judgement.keeping invariant).Holds machine x answer) (h : invariant machine)
    (hrun : x.run machine = .ok a next) : invariant next :=
  EvalM.after_of_ok hrun ▸ (hx h).1

namespace Expr

theorem EntersAll.keeps {list : List Expr} (hparts : EntersAll mode list machine part next)
    (hcovers : ∀ inner start, EntersAll mode list machine inner start →
      (Judgement.keeping invariant).Covers mode accepts inner start)
    (h : invariant machine) : invariant next := by
  induction hparts with
  | head => exact h
  | tail hrun hrest ih =>
      refine ih (fun inner start hinner => hcovers inner start (.tail hrun hinner)) ?_
      exact Judgement.invariant_of_run (Judgement.holds_evaluate _ (hcovers _ _ .head)) h hrun

/-- An invariant that the steps of an expression keep holds where one of its parts is evaluated. -/
theorem Enters.keeps (hpart : Enters mode expr machine part next)
    (hcovers : (Judgement.keeping invariant).Covers mode accepts expr machine)
    (h : invariant machine) : invariant next := by
  have hrun {inner : Expr} {value : Value} {next : Machine}
      (hinner : Enters mode expr machine inner machine)
      (hrun : (inner.evaluate mode).run machine = .ok value next) : invariant next :=
    Judgement.invariant_of_run (Judgement.holds_evaluate inner (hcovers.enter hinner)) h hrun
  cases hpart with
  | right hleft _ => exact hrun .left hleft
  | ifTrue hcondition => exact hrun .condition hcondition
  | ifFalse hcondition => exact hrun .condition hcondition
  | place htarget hplace =>
      cases hplace with
      | position hcontainer => exact hrun (.place htarget .container) hcontainer
      | _ => exact h
  | value hplace =>
      exact Judgement.invariant_of_run (Judgement.holds_evaluatePlace _ rfl hcovers) h hplace
  | argument harguments =>
      exact harguments.keeps (fun _ _ hpart => hcovers.enter (.argument hpart)) h
  | methodArgument howner harguments =>
      exact harguments.keeps (fun _ _ hpart => hcovers.enter (.methodArgument howner hpart))
        (hrun .owner howner)
  | position hcontainer => exact hrun .container hcontainer
  | _ => exact h

theorem Visits.covers {J : Judgement} (hvisits : Visits mode expr machine inner start)
    (hcovers : J.Covers mode accepts expr machine) : J.Covers mode accepts inner start := by
  induction hvisits with
  | refl _ _ => exact hcovers
  | enter hpart _ ih => exact ih (hcovers.enter hpart)

/-- An invariant that the steps of an expression keep holds wherever its evaluation comes by. -/
theorem Visits.keeps (hvisits : Visits mode expr machine inner start)
    (hcovers : (Judgement.keeping invariant).Covers mode accepts expr machine)
    (h : invariant machine) : invariant start := by
  induction hvisits with
  | refl _ _ => exact h
  | enter hpart _ ih => exact ih (hcovers.enter hpart) (hpart.keeps hcovers h)

end Expr

end

/-! ## Steps -/

/-- A request changes nothing but objects. -/
theorem exists_after_request {α : Type} (id : ObjectId) (use : Behaviour → HostM α)
    (machine : Machine) :
    ∃ heap, (EvalM.request id use).after machine = { machine with heap } := by
  rw [EvalM.after, EvalM.run_request]
  cases (use (machine.behaviour id)).run machine.heap with
  | ok a heap => exact ⟨heap, rfl⟩
  | error error heap => exact ⟨heap, rfl⟩

/-- A call of a function changes nothing but objects. -/
theorem exists_after_callFunction (name : String) (values : List Value) (machine : Machine) :
    ∃ heap, (callFunction name values).after machine = { machine with heap } := by
  rw [EvalM.after, run_callFunction]
  cases machine.environment.function? name with
  | none => exact ⟨machine.heap, rfl⟩
  | some function =>
      dsimp only
      rw [EvalM.run_host]
      cases (function.invoke values).run machine.heap with
      | ok value heap => exact ⟨heap, rfl⟩
      | error error heap => exact ⟨heap, rfl⟩

namespace Place

/-- Reading a place changes nothing but objects. -/
theorem exists_after_read (place : Place) (machine : Machine) :
    ∃ heap, place.read.after machine = { machine with heap } := by
  cases place with
  | var name => exact ⟨machine.heap, after_read isPlain_var⟩
  | declaration kind name => exact ⟨machine.heap, rfl⟩
  | property id name =>
      rw [read]
      exact exists_after_request id _ machine
  | element id index =>
      rw [read]
      exact exists_after_request id _ machine

/-- Writing to a place changes the environment as far as the place belongs to it. -/
theorem environment_after_write (place : Place) (value : Value) (machine : Machine) :
    ((place.write value).after machine).environment = machine.environment ∨
      (∃ name, place = .var name ∧
        (place.write value).run machine = .ok () ((place.write value).after machine) ∧
        machine.environment.assign name value =
          .ok ((place.write value).after machine).environment) ∨
      ∃ kind name, place = .declaration kind name ∧
        ((place.write value).after machine).environment =
          machine.environment.declare name kind (some value) := by
  cases place with
  | var name =>
      rw [EvalM.after, run_write isPlain_var, stored]
      cases hassign : machine.environment.assign name value with
      | ok environment => exact .inr (.inl ⟨name, rfl, rfl, hassign⟩)
      | error error => exact .inl rfl
  | declaration kind name => exact .inr (.inr ⟨kind, name, rfl, rfl⟩)
  | property id name =>
      rw [write]
      obtain ⟨heap, hafter⟩ := exists_after_request id (·.setProperty id name value) machine
      exact .inl (by rw [hafter])
  | element id index =>
      rw [write]
      obtain ⟨heap, hafter⟩ := exists_after_request id (·.setIndex id index value) machine
      exact .inl (by rw [hafter])

theorem behaviours_after_write (place : Place) (value : Value) (machine : Machine) :
    ((place.write value).after machine).behaviours = machine.behaviours := by
  cases place with
  | var name =>
      rw [EvalM.after, run_write isPlain_var, stored]
      cases machine.environment.assign name value <;> rfl
  | declaration kind name => rfl
  | property id name =>
      rw [write]
      obtain ⟨heap, hafter⟩ := exists_after_request id (·.setProperty id name value) machine
      rw [hafter]
  | element id index =>
      rw [write]
      obtain ⟨heap, hafter⟩ := exists_after_request id (·.setIndex id index value) machine
      rw [hafter]

end Place

namespace Expr

variable {mode : LogicMode} {expr : Expr} {start now : Machine} {α : Type}

/-- A step of an expression changes nothing but objects, or it stores to the target. -/
theorem Performs.after_cases {accepts : Value → Prop} {x : EvalM α} {answer : α → Prop}
    (h : Performs mode accepts expr start now x answer) :
    (∃ heap, x.after now = { now with heap }) ∨
      ∃ target place value result, expr.target? = some target ∧ target.Denotes accepts place ∧
        (expr.evaluate mode).run start = (place.write value >>= fun _ => pure result).run now ∧
        x.after now = (place.write value).after now := by
  cases h with
  | find _ => exact .inl ⟨now.heap, EvalM.after_ofExcept _ now⟩
  | read _ _ => exact .inl (Place.exists_after_read _ now)
  | readTarget _ _ _ => exact .inl (Place.exists_after_read _ now)
  | write htarget hplace _ hrun => exact .inr ⟨_, _, _, _, htarget, hplace, hrun, rfl⟩
  | call _ => exact .inl (exists_after_callFunction _ _ now)
  | method _ _ => exact .inl (exists_after_request _ _ now)

/-- The environment is changed by a step of an expression that stores to a variable, and by the last
step of an assignment to a declaration. -/
theorem Performs.environment_after {accepts : Value → Prop} {x : EvalM α} {answer : α → Prop}
    (h : Performs mode accepts expr start now x answer) :
    (x.after now).environment = now.environment ∨
      (∃ name value result, expr.target? = some (.var name) ∧
        (expr.evaluate mode).run start = .ok result (x.after now) ∧
        now.environment.assign name value = .ok (x.after now).environment) ∨
      ∃ op kind name source value result last,
        expr = .assignment op (.declaration kind name) source ∧
          (expr.evaluate mode).run start = .ok result last ∧
          (x.after now).environment = now.environment.declare name kind (some value) := by
  rcases h.after_cases with ⟨heap, hafter⟩ |
    ⟨target, place, value, result, htarget, hplace, hrun, hafter⟩
  · exact .inl (by rw [hafter])
  rw [hafter]
  rcases place.environment_after_write value now with hsame |
    ⟨name, rfl, hstored, hassign⟩ | ⟨kind, name, rfl, hdeclare⟩
  · exact .inl hsame
  · cases hplace
    rw [EvalM.run_bind_of_ok hstored] at hrun
    exact .inr (.inl ⟨name, value, result, htarget, hrun, hassign⟩)
  · cases hplace
    have hend : (expr.evaluate mode).run start =
        .ok result (((Place.declaration kind name).write value).after now) := hrun
    cases expr with
    | unary op operand =>
        rw [target?] at htarget
        split at htarget <;> cases htarget
        next hop =>
          rw [evaluate, if_pos hop] at hend
          cases hend
    | assignment op target source =>
        cases htarget
        exact .inr (.inr ⟨op, kind, name, source, value, result, _, rfl, hend, hdeclare⟩)
    | _ => cases htarget

/-- No step of an expression changes how objects behave. -/
theorem Performs.behaviours_after {accepts : Value → Prop} {x : EvalM α} {answer : α → Prop}
    (h : Performs mode accepts expr start now x answer) :
    (x.after now).behaviours = now.behaviours := by
  rcases h.after_cases with ⟨heap, hafter⟩ | ⟨-, place, value, -, -, -, -, hafter⟩
  · rw [hafter]
  · rw [hafter]
    exact place.behaviours_after_write value now

/-- A property of environments holds after an evaluation if it holds before and the assignments and
declarations that are visited keep it. -/
theorem environment_after_evaluate (keeps : Environment → Prop) (mode : LogicMode) (expr : Expr)
    (machine : Machine)
    (hassign : ∀ {inner start name value environment next}, Visits mode expr machine inner start →
      inner.target? = some (.var name) → environment.assign name value = .ok next →
      keeps environment → keeps next)
    (hdeclare : ∀ {op kind name source start value result last environment},
      Visits mode expr machine (.assignment op (.declaration kind name) source) start →
      ((Expr.assignment op (.declaration kind name) source).evaluate mode).run start =
        .ok result last →
      keeps environment → keeps (environment.declare name kind (some value)))
    (h : keeps machine.environment) : keeps ((expr.evaluate mode).after machine).environment := by
  let J := Judgement.keeping fun machine => keeps machine.environment
  have hcovers : J.Covers mode (fun _ => True) expr machine := by
    intro inner start now α x answer hvisits hperforms hkeeps
    refine ⟨?_, fun a next hrun => hperforms.answer hrun⟩
    rcases hperforms.environment_after with hsame | ⟨name, value, -, htarget, -, hstored⟩ |
      ⟨op, kind, name, source, value, result, last, rfl, hrun, hdeclared⟩
    · rw [hsame]
      exact hkeeps
    · exact hassign hvisits htarget hstored hkeeps
    · rw [hdeclared]
      exact hdeclare hvisits hrun hkeeps
  exact (Judgement.holds_evaluate expr hcovers h).1

end Expr

end ExprLang
