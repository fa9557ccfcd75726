import ExprLang.Proofs.Environment.Constants

/-!
# Storing at a place

An assignment or a step first evaluates its parts, which gives it a place and, if it is an
assignment, the value of its right side. What it does then is one change at the place: it may read
the value there, and it writes a value. At a plain place the change stores one value, or it fails
and leaves everything as it is: there is no value to be read, the operator has no result, or the
place does not take the value.
-/

namespace ExprLang

/-- What is to be done at a place: a step, or an assignment of a value. -/
inductive Change where
  | step (op : UnaryOp)
  | assign (op : AssignOp) (value : Value)

namespace Change

/-- Makes a change at a place. -/
def perform (place : Place) : Change → EvalM Value
  | step op => place.step op
  | assign op value => place.assign op value

/-- Whether the value at the place is read. -/
def reads : Change → Bool
  | step _ => true
  | assign op _ => op.binary?.isSome

/-- What comes of the value at the place. -/
def result (old : Value) : Change → Except RuntimeError Value
  | step op => op.stepped old
  | assign op value => op.combine old value

/-- What is answered where a value takes the place of another. -/
def answer (old new : Value) : Change → Value
  | step op => if op.isAfter then old else new
  | assign .. => new

/-- The value that a change has for a plain place, and what it answers if the place takes it. -/
inductive Makes (machine : Machine) (place : Place) : Change → (new answer : Value) → Prop
  | read {change : Change} {old new : Value} (hreads : change.reads = true)
      (hold : place.current machine = .ok old) (hnew : change.result old = .ok new) :
      Makes machine place change new (change.answer old new)
  | plain {op : AssignOp} {value : Value} (hop : op.binary? = none) :
      Makes machine place (.assign op value) value value

/-- Why a change cannot be made at a plain place. -/
inductive Fails (machine : Machine) (place : Place) (change : Change) : RuntimeError → Prop
  | reading {error : RuntimeError} (hreads : change.reads = true)
      (h : place.current machine = .error error) : Fails machine place change error
  | computing {old : Value} {error : RuntimeError} (hreads : change.reads = true)
      (hold : place.current machine = .ok old) (h : change.result old = .error error) :
      Fails machine place change error
  | writing {new answer : Value} {error : RuntimeError}
      (hmakes : change.Makes machine place new answer)
      (h : place.stored new machine = .error error) : Fails machine place change error

variable {machine next : Machine} {place : Place} {change : Change} {new answer : Value}
  {error : RuntimeError}

/-- A change that reads does so before all else, and writes at the end. -/
theorem perform_eq_of_reads (hreads : change.reads = true) (place : Place) :
    change.perform place = (do
      let old ← place.read
      let new ← EvalM.ofExcept (change.result old)
      place.write new
      return change.answer old new) := by
  cases change with
  | step op => rfl
  | assign op value =>
      obtain ⟨compound, hop⟩ := Option.isSome_iff_exists.mp hreads
      simp only [perform, Place.assign, result, AssignOp.combine, answer, hop]

section

variable (hplain : place.IsPlain machine)
include hplain

/-- Storing a value ends with an answer or leaves everything as it is. -/
theorem run_write_bind (new answer : Value) :
    (do place.write new; return answer : EvalM Value).run machine =
      match place.stored new machine with
      | .ok next => .ok answer next
      | .error error => .error error machine := by
  cases hstored : place.stored new machine with
  | ok next => exact EvalM.run_bind_of_ok (Place.run_write_of_ok hplain hstored) _
  | error error =>
      have hwrite : (place.write new).run machine = .error error machine := by
        rw [Place.run_write hplain, hstored]
      exact EvalM.run_bind_of_error hwrite _

theorem run_perform_of_current_ok {old : Value} (hreads : change.reads = true)
    (h : place.current machine = .ok old) :
    (change.perform place).run machine =
      (EvalM.ofExcept (change.result old) >>= fun new => do
        place.write new
        return change.answer old new).run machine := by
  rw [perform_eq_of_reads hreads, EvalM.run_bind_of_ok (Place.run_read_of_ok hplain h)]

theorem run_perform_of_current_error (hreads : change.reads = true)
    (h : place.current machine = .error error) :
    (change.perform place).run machine = .error error machine := by
  have hread : place.read.run machine = .error error machine := by
    rw [Place.run_read hplain, h]
    rfl
  rw [perform_eq_of_reads hreads, EvalM.run_bind_of_error hread]

theorem run_perform_of_makes (h : change.Makes machine place new answer) :
    (change.perform place).run machine =
      (do place.write new; return answer : EvalM Value).run machine := by
  cases h with
  | read hreads hold hnew =>
      rw [run_perform_of_current_ok hplain hreads hold, hnew]
      rfl
  | plain hop =>
      rw [perform, Place.assign]
      simp only [hop, pure_bind]

theorem run_perform_of_fails (h : change.Fails machine place error) :
    (change.perform place).run machine = .error error machine := by
  cases h with
  | reading hreads h => exact run_perform_of_current_error hplain hreads h
  | computing hreads hold h =>
      rw [run_perform_of_current_ok hplain hreads hold, h]
      rfl
  | writing hmakes h => rw [run_perform_of_makes hplain hmakes, run_write_bind hplain, h]

omit hplain in
/-- A change has a value that its place takes, or it fails for one of the reasons. -/
theorem makes_or_fails (machine : Machine) (place : Place) (change : Change) :
    (∃ new answer next, change.Makes machine place new answer ∧
      place.stored new machine = .ok next) ∨ ∃ error, change.Fails machine place error := by
  have hstores {new answer : Value} (hmakes : change.Makes machine place new answer) :
      (∃ new answer next, change.Makes machine place new answer ∧
        place.stored new machine = .ok next) ∨ ∃ error, change.Fails machine place error := by
    cases hstored : place.stored new machine with
    | ok next => exact .inl ⟨new, answer, next, hmakes, hstored⟩
    | error error => exact .inr ⟨error, .writing hmakes hstored⟩
  cases hreads : change.reads with
  | false =>
      cases change with
      | step op => cases hreads
      | assign op value =>
          have hop : op.binary? = none :=
            Option.isNone_iff_eq_none.mp (Option.isSome_eq_false_iff.mp hreads)
          exact hstores (.plain hop)
  | true =>
      cases hold : place.current machine with
      | error error => exact .inr ⟨error, .reading hreads hold⟩
      | ok old =>
          cases hnew : change.result old with
          | error error => exact .inr ⟨error, .computing hreads hold hnew⟩
          | ok new => exact hstores (.read hreads hold hnew)

/-- A change succeeds where it has a value that the place takes. -/
theorem run_perform_eq_ok_iff :
    (change.perform place).run machine = .ok answer next ↔
      ∃ new, change.Makes machine place new answer ∧ place.stored new machine = .ok next := by
  constructor
  · intro hrun
    rcases makes_or_fails machine place change with
      ⟨new, value, last, hmakes, hstored⟩ | ⟨error, hfails⟩
    · rw [run_perform_of_makes hplain hmakes, run_write_bind hplain, hstored] at hrun
      cases hrun
      exact ⟨new, hmakes, hstored⟩
    · cases (run_perform_of_fails hplain hfails).symm.trans hrun
  · rintro ⟨new, hmakes, hstored⟩
    rw [run_perform_of_makes hplain hmakes, run_write_bind hplain, hstored]

/-- A change that fails at a plain place leaves the machine as it is. -/
theorem run_perform_eq_error_iff :
    (change.perform place).run machine = .error error next ↔
      next = machine ∧ change.Fails machine place error := by
  constructor
  · intro hrun
    rcases makes_or_fails machine place change with
      ⟨new, value, last, hmakes, hstored⟩ | ⟨other, hfails⟩
    · rw [run_perform_of_makes hplain hmakes, run_write_bind hplain, hstored] at hrun
      cases hrun
    · cases (run_perform_of_fails hplain hfails).symm.trans hrun
      exact ⟨rfl, hfails⟩
  · rintro ⟨rfl, hfails⟩
    exact run_perform_of_fails hplain hfails

end

end Change

namespace Expr

variable {mode : LogicMode} {expr : Expr} {machine now : Machine} {place : Place}
  {change : Change}

/-- The parts of an expression that stores have been evaluated: its place is known, and so is the
change to be made there. -/
inductive Prepares (mode : LogicMode) : Expr → Machine → Place → Change → Machine → Prop
  | step {op : UnaryOp} {operand : Expr} {machine now : Machine} {place : Place}
      (hop : op.mutates = true)
      (hplace : (operand.evaluatePlace mode).run machine = .ok place now) :
      Prepares mode (.unary op operand) machine place (.step op) now
  | assignment {op : AssignOp} {target source : Expr} {machine middle now : Machine}
      {place : Place} {value : Value}
      (hplace : (target.evaluatePlace mode).run machine = .ok place middle)
      (hvalue : (source.evaluate mode).run middle = .ok value now) :
      Prepares mode (.assignment op target source) machine place (.assign op value) now

theorem Prepares.run_evaluate (h : expr.Prepares mode machine place change now) :
    (expr.evaluate mode).run machine = (change.perform place).run now := by
  cases h with
  | step hop hplace =>
      rw [evaluate, if_pos hop, EvalM.run_bind_of_ok hplace]
      rfl
  | assignment hplace hvalue =>
      rw [evaluate, EvalM.run_bind_of_ok hplace, EvalM.run_bind_of_ok hvalue]
      rfl

/-- A failed write leaves no trace at a variable, in a list or in a record. Once the parts of an
assignment or of a step have been evaluated, it fails exactly where its change fails, and leaves the
environment and all objects as they are by then. It succeeds exactly where the change has a value
that its place takes. -/
theorem untouched_of_failed_change (h : expr.Prepares mode machine place change now)
    (hplain : place.IsPlain now) :
    (∀ error last, (expr.evaluate mode).run machine = .error error last ↔
      last = now ∧ change.Fails now place error) ∧
    ∀ answer last, (expr.evaluate mode).run machine = .ok answer last ↔
      ∃ new, change.Makes now place new answer ∧ place.stored new now = .ok last := by
  rw [h.run_evaluate]
  exact ⟨fun _ _ => Change.run_perform_eq_error_iff hplain,
    fun _ _ => Change.run_perform_eq_ok_iff hplain⟩

/-- In `items[i++] /= items[0] = 0` the index is counted on and the item is replaced before the
division by the new item fails. -/
theorem untouched_of_failed_change_byZero :
    let environment := (Environment.empty.define "items" (.object 0)).define "i" (.int 0)
    let machine : Machine := { environment, heap := ⟨#[.list #[.int 7]]⟩ }
    let now : Machine :=
      { environment := environment.define "i" (.int 1), heap := ⟨#[.list #[.int 0]]⟩ }
    let target : Expr := .index (.var "items") (.unary .incrementAfter (.var "i"))
    let source : Expr := .assignment .assign (.index (.var "items") (.constant .int "0"))
      (.constant .int "0")
    let change := Change.assign .divide (.int 0)
    (Expr.assignment .divide target source).Prepares .eager machine (.element 0 (.int 0)) change
        now ∧
      (Place.element 0 (.int 0)).IsPlain now ∧
      change.Fails now (.element 0 (.int 0)) .divisionByZero ∧
      ((Expr.assignment .divide target source).evaluate .eager).run machine =
        .error .divisionByZero now := by
  intro environment machine now target source change
  let middle : Machine := { machine with environment := now.environment }
  have hplace : (target.evaluatePlace .eager).run machine = .ok (.element 0 (.int 0)) middle := by
    rfl
  have hvalue : (source.evaluate .eager).run middle = .ok (.int 0) now := by
    rfl
  have hprepares : (Expr.assignment .divide target source).Prepares .eager machine
      (.element 0 (.int 0)) change now := .assignment hplace hvalue
  have hcurrent : (Place.element 0 (.int 0)).current now = .ok (.int 0) := by
    rfl
  have hfails : change.Fails now (.element 0 (.int 0)) .divisionByZero :=
    .computing rfl hcurrent rfl
  have hplain : (Place.element 0 (.int 0)).IsPlain now := by
    rfl
  exact ⟨hprepares, hplain, hfails,
    ((untouched_of_failed_change hprepares hplain).1 _ _).mpr ⟨rfl, hfails⟩⟩

end Expr

end ExprLang
