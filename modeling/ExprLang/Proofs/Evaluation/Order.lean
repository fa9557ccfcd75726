import ExprLang.Evaluation.Evaluate

/-!
# The order of evaluation

An evaluation evaluates parts of its expression, each on the machine that the parts before it have
left, and stops where one of them fails. `Enters` tells which parts on which machines, and `Visits`
follows it down to parts of parts. What is visited stands in the expression.
-/

namespace ExprLang.Expr

/-- What an expression stores to, if it stores. -/
def target? : Expr → Option Expr
  | assignment _ target _ => some target
  | unary op operand => if op.mutates then some operand else none
  | _ => none

/-- The parts that are evaluated or stored to. The name of a property or of a method is neither. -/
def operands : Expr → List Expr
  | member target (call _ arguments) => target :: arguments
  | member target _ => [target]
  | expr => expr.children

/-- An expression holds itself and what its operands hold. -/
inductive Contains : Expr → Expr → Prop
  | refl (expr : Expr) : Contains expr expr
  | operand {expr part inner : Expr} (hpart : part ∈ expr.operands) (h : Contains part inner) :
      Contains expr inner

variable (mode : LogicMode)

/-- The arguments that an evaluation of a row of arguments evaluates. -/
inductive EntersAll : List Expr → Machine → Expr → Machine → Prop
  | head {argument : Expr} {rest : List Expr} {machine : Machine} :
      EntersAll (argument :: rest) machine argument machine
  | tail {argument inner : Expr} {rest : List Expr} {machine next start : Machine} {value : Value}
      (hrun : (argument.evaluate mode).run machine = .ok value next)
      (h : EntersAll rest next inner start) : EntersAll (argument :: rest) machine inner start

/-- The parts that are evaluated to find the place that an expression means. -/
inductive EntersPlace : Expr → Machine → Expr → Machine → Prop
  | owner {target : Expr} {name : String} {machine : Machine} :
      EntersPlace (.member target (.var name)) machine target machine
  | container {target position : Expr} {machine : Machine} :
      EntersPlace (.index target position) machine target machine
  | position {target position : Expr} {machine next : Machine} {id : ObjectId}
      (hrun : (target.evaluate mode).run machine = .ok (.object id) next) :
      EntersPlace (.index target position) machine position next

/-- The parts that an evaluation of an expression evaluates, and the machines on which it does. -/
inductive Enters : Expr → Machine → Expr → Machine → Prop
  | group {inner : Expr} {machine : Machine} : Enters (.group inner) machine inner machine
  | operand {op : UnaryOp} {operand : Expr} {machine : Machine} (hop : op.mutates = false) :
      Enters (.unary op operand) machine operand machine
  | left {op : BinaryOp} {left right : Expr} {machine : Machine} :
      Enters (.binary op left right) machine left machine
  | right {op : BinaryOp} {left right : Expr} {machine next : Machine} {first : Value}
      (hrun : (left.evaluate mode).run machine = .ok first next)
      (hopen : op.decided? mode first = none) : Enters (.binary op left right) machine right next
  | condition {condition ifTrue ifFalse : Expr} {machine : Machine} :
      Enters (.ternary condition ifTrue ifFalse) machine condition machine
  | ifTrue {condition ifTrue ifFalse : Expr} {machine next : Machine}
      (hrun : (condition.evaluate mode).run machine = .ok (.bool true) next) :
      Enters (.ternary condition ifTrue ifFalse) machine ifTrue next
  | ifFalse {condition ifTrue ifFalse : Expr} {machine next : Machine}
      (hrun : (condition.evaluate mode).run machine = .ok (.bool false) next) :
      Enters (.ternary condition ifTrue ifFalse) machine ifFalse next
  | place {expr target inner : Expr} {machine start : Machine}
      (htarget : expr.target? = some target) (h : EntersPlace mode target machine inner start) :
      Enters expr machine inner start
  | value {op : AssignOp} {target value : Expr} {machine next : Machine} {place : Place}
      (hrun : (target.evaluatePlace mode).run machine = .ok place next) :
      Enters (.assignment op target value) machine value next
  | argument {name : String} {arguments : List Expr} {inner : Expr} {machine start : Machine}
      (h : EntersAll mode arguments machine inner start) :
      Enters (.call name arguments) machine inner start
  | owner {target part : Expr} {machine : Machine} :
      Enters (.member target part) machine target machine
  | methodArgument {target inner : Expr} {name : String} {arguments : List Expr}
      {machine next start : Machine} {id : ObjectId}
      (hrun : (target.evaluate mode).run machine = .ok (.object id) next)
      (h : EntersAll mode arguments next inner start) :
      Enters (.member target (.call name arguments)) machine inner start
  | container {target position : Expr} {machine : Machine} :
      Enters (.index target position) machine target machine
  | position {target position : Expr} {machine next : Machine} {id : ObjectId}
      (hrun : (target.evaluate mode).run machine = .ok (.object id) next) :
      Enters (.index target position) machine position next

/-- The evaluations that an evaluation of an expression is made of, itself included. -/
inductive Visits : Expr → Machine → Expr → Machine → Prop
  | refl (expr : Expr) (machine : Machine) : Visits expr machine expr machine
  | enter {expr part inner : Expr} {machine next start : Machine}
      (hpart : Enters mode expr machine part next) (h : Visits part next inner start) :
      Visits expr machine inner start

variable {mode} {expr part inner target : Expr} {machine next start : Machine}

theorem Contains.of_mem (h : part ∈ expr.operands) : expr.Contains part :=
  .operand h (.refl part)

theorem Contains.trans (h : expr.Contains part) (hinner : part.Contains inner) :
    expr.Contains inner := by
  induction h with
  | refl expr => exact hinner
  | operand hpart _ ih => exact .operand hpart (ih hinner)

theorem Contains.eq_of_leaf (h : expr.Contains inner) (hleaf : expr.operands = []) :
    inner = expr := by
  cases h with
  | refl expr => rfl
  | operand hpart _ =>
      rw [hleaf] at hpart
      cases hpart

theorem mem_operands_member (target part : Expr) : target ∈ (member target part).operands := by
  cases part <;> exact List.mem_cons_self

theorem mem_operands_of_target? (h : expr.target? = some target) : target ∈ expr.operands := by
  cases expr with
  | unary op operand =>
      rw [target?] at h
      split at h <;> cases h
      exact List.mem_singleton_self _
  | assignment op left value =>
      cases h
      exact List.mem_cons_self
  | _ => cases h

theorem EntersAll.mem {list : List Expr} (h : EntersAll mode list machine inner start) :
    inner ∈ list := by
  induction h with
  | head => exact List.mem_cons_self
  | tail _ _ ih => exact List.mem_cons_of_mem _ ih

theorem EntersPlace.mem (h : EntersPlace mode target machine inner start) :
    inner ∈ target.operands := by
  cases h <;> simp [operands, children]

theorem Enters.contains (h : Enters mode expr machine part next) : expr.Contains part := by
  cases h with
  | place htarget h => exact .operand (mem_operands_of_target? htarget) (.of_mem h.mem)
  | argument h => exact .of_mem h.mem
  | methodArgument _ h => exact .of_mem (List.mem_cons_of_mem _ h.mem)
  | owner => exact .of_mem (mem_operands_member _ _)
  | _ => exact .of_mem (by simp [operands, children])

theorem Visits.contains (h : Visits mode expr machine inner start) : expr.Contains inner := by
  induction h with
  | refl expr => exact .refl expr
  | enter hpart _ ih => exact hpart.contains.trans ih

end ExprLang.Expr
