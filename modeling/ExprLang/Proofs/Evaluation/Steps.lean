import ExprLang.Proofs.Decimal.Difference
import ExprLang.Proofs.Evaluation.Integers
import ExprLang.Proofs.Evaluation.Storing

/-!
# Steps and assignments of one

`++p` does what `p += 1` does wherever one of them succeeds, and so does `p++`, which answers the
value that was at the place before. Where they fail, all three leave the same machine, although
they may tell different errors. The parts of the target `p` are evaluated once in each of them.
-/

namespace ExprLang

/-- The operator that makes a step where one is assigned with it. -/
def UnaryOp.compound? : UnaryOp → Option AssignOp
  | incrementBefore | incrementAfter => some .add
  | decrementBefore | decrementAfter => some .subtract
  | _ => none

theorem UnaryOp.of_compound?_eq_some {step : UnaryOp} {op : AssignOp}
    (h : step.compound? = some op) :
    step.step = 1 ∧ op = .add ∨ step.step = -1 ∧ op = .subtract := by
  cases step <;> cases h
  case incrementBefore | incrementAfter => exact .inl ⟨rfl, rfl⟩
  case decrementBefore | decrementAfter => exact .inr ⟨rfl, rfl⟩

theorem UnaryOp.mutates_of_compound? {step : UnaryOp} {op : AssignOp}
    (h : step.compound? = some op) : step.mutates = true := by
  cases step <;> cases h <;> rfl

/-- A step comes to the value that its operator makes of the old one and of one. -/
theorem UnaryOp.stepped_eq_ok_iff {step : UnaryOp} {op : AssignOp} (h : step.compound? = some op)
    (old new : Value) : step.stepped old = .ok new ↔ op.combine old (.int 1) = .ok new := by
  rcases of_compound?_eq_some h with ⟨hstep, rfl⟩ | ⟨hstep, rfl⟩
  · cases old with
    | int n =>
        have hadd : Integer.IsExact (BinaryOp.add.apply (.int n) (.int 1)) "+" (n.toInt + 1) :=
          BinaryOp.isExact_apply (by decide) rfl rfl rfl
        have hexact := isExact_stepped step n
        rw [hstep] at hexact
        exact hexact.eq_ok_iff.trans hadd.eq_ok_iff.symm
    | decimal x =>
        rw [stepped, hstep]
        rfl
    | _ => constructor <;> intro heq <;> cases heq
  · cases old with
    | int n =>
        have hsubtract :
            Integer.IsExact (BinaryOp.subtract.apply (.int n) (.int 1)) "-" (n.toInt - 1) :=
          BinaryOp.isExact_apply (by decide) rfl rfl rfl
        have hexact := isExact_stepped step n
        rw [hstep] at hexact
        exact hexact.eq_ok_iff.trans hsubtract.eq_ok_iff.symm
    | decimal x =>
        rw [stepped, hstep, Decimal.add_ofInt_neg_one]
        rfl
    | _ => constructor <;> intro heq <;> cases heq

/-! ## Changes -/

/-- One read, step and write at a place fails: which of the three does. -/
inductive Place.FailsOnce (place : Place) (machine : Machine) (error : RuntimeError)
    (next : Machine) : Prop
  | reading (h : place.read.run machine = .error error next)
  | computing {old : Value} (hread : place.read.run machine = .ok old next)
  | writing {old new : Value} {middle : Machine} (hread : place.read.run machine = .ok old middle)
      (h : (place.write new).run middle = .error error next)

namespace Change

variable {machine next : Machine} {place : Place} {change other : Change} {value : Value}

theorem run_perform_eq_ok_iff_of_reads (hreads : change.reads = true) :
    (change.perform place).run machine = .ok value next ↔
      ∃ old middle new, place.read.run machine = .ok old middle ∧ change.result old = .ok new ∧
        (place.write new).run middle = .ok () next ∧ value = change.answer old new := by
  rw [perform_eq_of_reads hreads]
  constructor
  · intro hrun
    obtain ⟨old, middle, hread, hrest⟩ := EvalM.run_bind_eq_ok_iff.mp hrun
    obtain ⟨new, now, hresult, hstore⟩ := EvalM.run_bind_eq_ok_iff.mp hrest
    obtain ⟨hnew, rfl⟩ := EvalM.of_ofExcept hresult
    obtain ⟨_, last, hwrite, hanswer⟩ := EvalM.run_bind_eq_ok_iff.mp hstore
    cases hanswer
    exact ⟨old, now, new, hread, hnew, hwrite, rfl⟩
  · rintro ⟨old, middle, new, hread, hnew, hwrite, rfl⟩
    rw [EvalM.run_bind_of_ok hread, hnew]
    exact EvalM.run_bind_of_ok hwrite _

theorem failsOnce_of_run_perform {error : RuntimeError} (hreads : change.reads = true)
    (hrun : (change.perform place).run machine = .error error next) :
    place.FailsOnce machine error next := by
  rw [perform_eq_of_reads hreads] at hrun
  rcases EvalM.run_bind_eq_error_iff.mp hrun with hread | ⟨old, middle, hread, hrest⟩
  · exact .reading hread
  · rcases EvalM.run_bind_eq_error_iff.mp hrest with hresult | ⟨new, now, hresult, hstore⟩
    · obtain ⟨-, rfl⟩ := EvalM.error_of_ofExcept hresult
      exact .computing hread
    · obtain ⟨-, rfl⟩ := EvalM.of_ofExcept hresult
      rcases EvalM.run_bind_eq_error_iff.mp hstore with hwrite | ⟨_, _, _, hanswer⟩
      · exact .writing hread hwrite
      · cases hanswer

/-- Two changes read the value at a place, and if one of them makes something of it, then the other
makes the same. -/
structure Alike (change other : Change) : Prop where
  reads : change.reads = true
  other_reads : other.reads = true
  result_iff : ∀ old new, change.result old = .ok new ↔ other.result old = .ok new

theorem Alike.exists_run_iff (h : change.Alike other) :
    (∃ value, (change.perform place).run machine = .ok value next) ↔
      ∃ value, (other.perform place).run machine = .ok value next := by
  simp only [run_perform_eq_ok_iff_of_reads h.reads,
    run_perform_eq_ok_iff_of_reads h.other_reads, h.result_iff]
  constructor <;>
    exact fun ⟨_, old, middle, new, hread, hnew, hwrite, _⟩ =>
      ⟨_, old, middle, new, hread, hnew, hwrite, rfl⟩

/-- Alike changes leave the same machine, also where they fail. -/
theorem Alike.after_eq (h : change.Alike other) (place : Place) (machine : Machine) :
    (change.perform place).after machine = (other.perform place).after machine := by
  rw [perform_eq_of_reads h.reads, perform_eq_of_reads h.other_reads]
  cases hread : place.read.run machine with
  | error error next =>
      rw [EvalM.after_bind_of_error hread, EvalM.after_bind_of_error hread]
  | ok old next =>
      rw [EvalM.after_bind_of_ok hread, EvalM.after_bind_of_ok hread]
      cases hnew : change.result old with
      | ok new =>
          rw [(h.result_iff old new).mp hnew]
          -- Both write one value and may only answer different ones.
          exact (EvalM.after_bind_pure _ _ next).trans (EvalM.after_bind_pure _ _ next).symm
      | error error =>
          cases hother : other.result old with
          | ok new => cases hnew.symm.trans ((h.result_iff old new).mpr hother)
          | error => rfl

/-- Changes that are alike and answer the same succeed alike. -/
theorem Alike.run_eq_ok_iff (h : change.Alike other)
    (hanswer : ∀ old new, change.answer old new = other.answer old new) :
    (change.perform place).run machine = .ok value next ↔
      (other.perform place).run machine = .ok value next := by
  simp only [run_perform_eq_ok_iff_of_reads h.reads,
    run_perform_eq_ok_iff_of_reads h.other_reads, h.result_iff, hanswer]

/-- A change that answers the old value succeeds with one that is like it. -/
theorem Alike.run_old_eq_ok_iff (h : change.Alike other)
    (hanswer : ∀ old new, change.answer old new = old) :
    (change.perform place).run machine = .ok value next ↔
      (∃ new, (other.perform place).run machine = .ok new next) ∧
        place.read.answer machine = .ok value := by
  rw [← h.exists_run_iff]
  simp only [run_perform_eq_ok_iff_of_reads h.reads, hanswer]
  constructor
  · rintro ⟨old, middle, new, hread, hnew, hwrite, rfl⟩
    exact ⟨⟨value, value, middle, new, hread, hnew, hwrite, rfl⟩, EvalM.answer_of_ok hread⟩
  · rintro ⟨⟨_, old, middle, new, hread, hnew, hwrite, _⟩, hvalue⟩
    obtain rfl : old = value := Except.ok.inj ((EvalM.answer_of_ok hread).symm.trans hvalue)
    exact ⟨old, middle, new, hread, hnew, hwrite, rfl⟩

theorem alike_of_compound? {step : UnaryOp} {op : AssignOp} (h : step.compound? = some op) :
    (Change.step step).Alike (.assign op (.int 1)) where
  reads := rfl
  other_reads := by
    rcases UnaryOp.of_compound?_eq_some h with ⟨-, rfl⟩ | ⟨-, rfl⟩ <;> rfl
  result_iff := UnaryOp.stepped_eq_ok_iff h

end Change

/-! ## Expressions -/

namespace Expr

/-- The parts of a target are evaluated, each of them once and in their order, and give a place. -/
inductive Locates (mode : LogicMode) : Expr → Machine → Place → Machine → Prop
  | var {name : String} {machine : Machine} :
      Locates mode (.var name) machine (.var name) machine
  | declaration {kind : DeclarationKind} {name : String} {machine : Machine} :
      Locates mode (.declaration kind name) machine (.declaration kind name) machine
  | property {target : Expr} {name : String} {machine next : Machine} {id : ObjectId}
      (htarget : (target.evaluate mode).run machine = .ok (.object id) next) :
      Locates mode (.member target (.var name)) machine (.property id name) next
  | element {target position : Expr} {machine middle next : Machine} {id : ObjectId}
      {value : Value} (htarget : (target.evaluate mode).run machine = .ok (.object id) middle)
      (hposition : (position.evaluate mode).run middle = .ok value next) :
      Locates mode (.index target position) machine (.element id value) next

/-- A place is found where the parts of a target are evaluated to it. -/
theorem run_evaluatePlace_eq_ok_iff {mode : LogicMode} {target : Expr} {machine next : Machine}
    {place : Place} :
    (target.evaluatePlace mode).run machine = .ok place next ↔
      target.Locates mode machine place next := by
  constructor
  · intro h
    cases hrefusal : target.refusal? with
    | some kind =>
        rw [evaluatePlace_of_refusal? mode hrefusal] at h
        cases h
    | none =>
        cases target with
        | var name =>
            cases h
            exact .var
        | declaration kind name =>
            cases h
            exact .declaration
        | member target part =>
            cases part with
            | var name =>
                rw [evaluatePlace] at h
                obtain ⟨value, middle, htarget, hrest⟩ := EvalM.run_bind_eq_ok_iff.mp h
                obtain ⟨id, last, howner, hplace⟩ := EvalM.run_bind_eq_ok_iff.mp hrest
                obtain ⟨rfl, rfl⟩ := run_owner_eq_ok_iff.mp howner
                cases hplace
                exact .property htarget
            | _ => cases hrefusal
        | index target position =>
            rw [evaluatePlace] at h
            obtain ⟨value, middle, htarget, hrest⟩ := EvalM.run_bind_eq_ok_iff.mp h
            obtain ⟨id, last, hcontainer, hindex⟩ := EvalM.run_bind_eq_ok_iff.mp hrest
            obtain ⟨rfl, rfl⟩ := run_container_eq_ok_iff.mp hcontainer
            obtain ⟨index, last, hposition, hplace⟩ := EvalM.run_bind_eq_ok_iff.mp hindex
            cases hplace
            exact .element htarget hposition
        | _ => cases hrefusal
  · intro h
    cases h with
    | var => rfl
    | declaration => rfl
    | property htarget =>
        rw [evaluatePlace, EvalM.run_bind_of_ok htarget]
        rfl
    | element htarget hposition =>
        rw [evaluatePlace, EvalM.run_bind_of_ok htarget]
        exact EvalM.run_bind_of_ok hposition _

theorem Locates.unique {mode : LogicMode} {target : Expr} {machine next last : Machine}
    {place other : Place} (h : target.Locates mode machine place next)
    (hother : target.Locates mode machine other last) : place = other ∧ next = last := by
  have hrun := run_evaluatePlace_eq_ok_iff.mpr h
  cases hrun.symm.trans (run_evaluatePlace_eq_ok_iff.mpr hother)
  exact ⟨rfl, rfl⟩

/-- The literal of the number one. -/
def one : Expr :=
  .constant .int "1"

/-- An expression evaluates the parts of a target and makes a change at its place. -/
def AmountsTo (mode : LogicMode) (expr target : Expr) (change : Change) : Prop :=
  expr.evaluate mode = do change.perform (← target.evaluatePlace mode)

/-- Whether it succeeds or fails, an expression evaluates the parts of a target once and before all
else, and then it reads one value at the place and stores one there at most. -/
structure LocatesOnce (mode : LogicMode) (expr target : Expr) (machine : Machine) : Prop where
  of_ok : ∀ value next, (expr.evaluate mode).run machine = .ok value next →
    ∃ place middle old last new, target.Locates mode machine place middle ∧
      place.read.run middle = .ok old last ∧ (place.write new).run last = .ok () next
  of_error : ∀ error next, (expr.evaluate mode).run machine = .error error next →
    (target.evaluatePlace mode).run machine = .error error next ∨
      ∃ place middle, target.Locates mode machine place middle ∧
        place.FailsOnce middle error next
  /-- Where the place is plain, a success stores one value there and a failure nothing. -/
  of_isPlain : ∀ place middle, target.Locates mode machine place middle →
    place.IsPlain middle →
      (∀ value next, (expr.evaluate mode).run machine = .ok value next →
        ∃ new, place.stored new middle = .ok next) ∧
      ∀ error next, (expr.evaluate mode).run machine = .error error next → next = middle

section

variable {mode : LogicMode} {target expr other : Expr} {change otherChange : Change}
  {machine next : Machine} {value : Value}

theorem amountsTo_step {op : UnaryOp} (hop : op.mutates = true) (mode : LogicMode)
    (target : Expr) : (unary op target).AmountsTo mode target (.step op) := by
  rw [AmountsTo, evaluate, if_pos hop]
  rfl

theorem amountsTo_assignment_one (op : AssignOp) (mode : LogicMode) (target : Expr) :
    (assignment op target one).AmountsTo mode target (.assign op (.int 1)) := by
  rw [AmountsTo, evaluate]
  rfl

theorem AmountsTo.run_eq_ok_iff (h : expr.AmountsTo mode target change) :
    (expr.evaluate mode).run machine = .ok value next ↔
      ∃ place middle, target.Locates mode machine place middle ∧
        (change.perform place).run middle = .ok value next := by
  rw [h, EvalM.run_bind_eq_ok_iff]
  simp only [run_evaluatePlace_eq_ok_iff]

theorem AmountsTo.run_evaluate {place : Place} (h : expr.AmountsTo mode target change)
    (hplace : target.Locates mode machine place next) :
    (expr.evaluate mode).run machine = (change.perform place).run next := by
  rw [h, EvalM.run_bind_of_ok (run_evaluatePlace_eq_ok_iff.mpr hplace)]

theorem AmountsTo.locatesOnce (h : expr.AmountsTo mode target change)
    (hreads : change.reads = true) (machine : Machine) :
    expr.LocatesOnce mode target machine where
  of_ok value next hrun := by
    obtain ⟨place, middle, hplace, hperform⟩ := h.run_eq_ok_iff.mp hrun
    obtain ⟨old, last, new, hread, -, hwrite, -⟩ :=
      (Change.run_perform_eq_ok_iff_of_reads hreads).mp hperform
    exact ⟨place, middle, old, last, new, hplace, hread, hwrite⟩
  of_error error next hrun := by
    rw [h] at hrun
    rcases EvalM.run_bind_eq_error_iff.mp hrun with hplace | ⟨place, middle, hplace, hperform⟩
    · exact .inl hplace
    · exact .inr ⟨place, middle, run_evaluatePlace_eq_ok_iff.mp hplace,
        Change.failsOnce_of_run_perform hreads hperform⟩
  of_isPlain place middle hplace hplain := by
    simp only [h.run_evaluate hplace]
    refine ⟨fun value next hrun => ?_, fun error next hrun => ?_⟩
    · obtain ⟨new, -, hstored⟩ := (Change.run_perform_eq_ok_iff hplain).mp hrun
      exact ⟨new, hstored⟩
    · exact ((Change.run_perform_eq_error_iff hplain).mp hrun).1

theorem AmountsTo.after_eq (h : expr.AmountsTo mode target change)
    (hother : other.AmountsTo mode target otherChange) (halike : change.Alike otherChange)
    (machine : Machine) :
    (expr.evaluate mode).after machine = (other.evaluate mode).after machine := by
  rw [h, hother]
  cases hplace : (target.evaluatePlace mode).run machine with
  | error error last => rw [EvalM.after_bind_of_error hplace, EvalM.after_bind_of_error hplace]
  | ok place middle =>
      rw [EvalM.after_bind_of_ok hplace, EvalM.after_bind_of_ok hplace]
      exact halike.after_eq place middle

end

/-- A step before a target, the step after it, and the assignment of one with an operator are the
same change. -/
structure StepsAgree (mode : LogicMode) (before after : UnaryOp) (op : AssignOp) (target : Expr)
    (machine : Machine) : Prop where
  before_iff : ∀ value next, ((unary before target).evaluate mode).run machine = .ok value next ↔
    ((assignment op target one).evaluate mode).run machine = .ok value next
  /-- The step after the target answers what is read at the place when the parts of the target have
  been evaluated and nothing is written yet. -/
  after_iff : ∀ value next, ((unary after target).evaluate mode).run machine = .ok value next ↔
    (∃ new, ((assignment op target one).evaluate mode).run machine = .ok new next) ∧
      ∃ place middle, target.Locates mode machine place middle ∧
        place.read.answer middle = .ok value
  /-- The same machine is left in any case, also by failures. -/
  left_eq : ((unary before target).evaluate mode).after machine =
      ((assignment op target one).evaluate mode).after machine ∧
    ((unary after target).evaluate mode).after machine =
      ((assignment op target one).evaluate mode).after machine
  once : ∀ expr ∈ [unary before target, unary after target, assignment op target one],
    expr.LocatesOnce mode target machine

theorem stepsAgree_of_compound? {before after : UnaryOp} {op : AssignOp}
    (hbefore : before.compound? = some op) (hafter : after.compound? = some op)
    (hnew : before.isAfter = false) (hold : after.isAfter = true) (mode : LogicMode)
    (target : Expr) (machine : Machine) : StepsAgree mode before after op target machine := by
  have hstep := amountsTo_step (UnaryOp.mutates_of_compound? hbefore) mode target
  have hstepAfter := amountsTo_step (UnaryOp.mutates_of_compound? hafter) mode target
  have hassign := amountsTo_assignment_one op mode target
  have halike := Change.alike_of_compound? hbefore
  have halikeAfter := Change.alike_of_compound? hafter
  have hanswer (old new : Value) : (Change.step before).answer old new = new := by
    rw [Change.answer, hnew]
    rfl
  have hanswerAfter (old new : Value) : (Change.step after).answer old new = old := by
    rw [Change.answer, hold]
    rfl
  refine ⟨fun value next => ?_, fun value next => ?_, ?_, ?_⟩
  · rw [hstep.run_eq_ok_iff, hassign.run_eq_ok_iff]
    simp only [halike.run_eq_ok_iff hanswer]
  · rw [hstepAfter.run_eq_ok_iff]
    simp only [halikeAfter.run_old_eq_ok_iff hanswerAfter, hassign.run_eq_ok_iff]
    constructor
    · rintro ⟨place, middle, hplace, ⟨new, hrun⟩, hread⟩
      exact ⟨⟨new, place, middle, hplace, hrun⟩, place, middle, hplace, hread⟩
    · rintro ⟨⟨new, place, middle, hplace, hrun⟩, other, last, hother, hread⟩
      obtain ⟨rfl, rfl⟩ := hplace.unique hother
      exact ⟨place, middle, hplace, ⟨new, hrun⟩, hread⟩
  · exact ⟨hstep.after_eq hassign halike machine, hstepAfter.after_eq hassign halikeAfter machine⟩
  · refine List.forall_mem_cons.mpr ⟨hstep.locatesOnce halike.reads machine, ?_⟩
    refine List.forall_mem_cons.mpr ⟨hstepAfter.locatesOnce halikeAfter.reads machine, ?_⟩
    exact List.forall_mem_singleton.mpr (hassign.locatesOnce halike.other_reads machine)

/-- Increments are additions of one, and decrements subtractions of one. -/
theorem steps_agree (mode : LogicMode) (target : Expr) (machine : Machine) :
    StepsAgree mode .incrementBefore .incrementAfter .add target machine ∧
      StepsAgree mode .decrementBefore .decrementAfter .subtract target machine :=
  ⟨stepsAgree_of_compound? rfl rfl rfl rfl mode target machine,
    stepsAgree_of_compound? rfl rfl rfl rfl mode target machine⟩

/-- In `items[i++]++` the index is stepped once, and the element that it named before is changed. -/
example :
    let globals := (Environment.empty.define "items" (.object 0)).define "i" (.int 0)
    let machine : Machine :=
      { environment := globals.pushScope, heap := ⟨#[.list #[.int 5, .int 8]]⟩ }
    let expr := Expr.unary .incrementAfter
      (.index (.var "items") (.unary .incrementAfter (.var "i")))
    let next := (expr.evaluate .eager).after machine
    next.environment.get? "i" = some (.int 1) ∧
      (next.heap.find 0).getIndex (.int 0) = .ok (.int 6) ∧
      (next.heap.find 0).getIndex (.int 1) = .ok (.int 8) := by
  exact ⟨rfl, rfl, rfl⟩

end Expr

end ExprLang
