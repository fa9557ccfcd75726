import ExprLang.Proofs.Evaluation.Order
import ExprLang.Proofs.Evaluation.Outcome

/-!
# Judgements about evaluations

What an expression does itself, apart from the parts that it evaluates, is little: it finds an
answer without looking at the machine, reads or writes a place, or asks the host. A judgement that
goes along sequences and covers these steps for every evaluation that is visited holds of the whole
evaluation.
-/

namespace ExprLang

/-- A statement about what an evaluation does from a machine on and what its answers are, which goes
along sequences of evaluations. -/
structure Judgement where
  Holds : {α : Type} → Machine → EvalM α → (α → Prop) → Prop
  pure : ∀ {α : Type} {machine : Machine} {a : α} {answer : α → Prop}, answer a →
    Holds machine (Pure.pure a) answer
  bind : ∀ {α β : Type} {machine : Machine} {x : EvalM α} {rest : α → EvalM β} {middle : α → Prop}
    {answer : β → Prop}, Holds machine x middle →
    (∀ a next, x.run machine = .ok a next → middle a → Holds next (rest a) answer) →
    Holds machine (x >>= rest) answer

namespace Expr

/-- Whether an expression reads its target before it stores to it. -/
def updates : Expr → Bool
  | unary .. => true
  | assignment op _ _ => op.binary?.isSome
  | _ => false

/-- The sort of an expression that nothing can be stored to. -/
def refusal? : Expr → Option Expr.Kind
  | var .. | declaration .. | index .. | member _ (var _) => none
  | member _ part => some part.kind
  | expr => some expr.kind

variable (mode : LogicMode) (accepts : Value → Prop)

/-- The places that an expression can mean, if its parts have accepted values. -/
inductive Denotes : Expr → Place → Prop
  | var {name : String} : Denotes (.var name) (.var name)
  | declaration {kind : DeclarationKind} {name : String} :
      Denotes (.declaration kind name) (.declaration kind name)
  | property {target : Expr} {name : String} {id : ObjectId} (hid : accepts (.object id)) :
      Denotes (.member target (.var name)) (.property id name)
  | element {target position : Expr} {id : ObjectId} {value : Value} (hid : accepts (.object id))
      (hvalue : accepts value) : Denotes (.index target position) (.element id value)

/-- What an expression finds without looking at the machine, if its parts have accepted values, and
what is expected of it. -/
inductive Finds : Expr → {α : Type} → Except RuntimeError α → (α → Prop) → Prop
  | constant {kind : LiteralKind} {text : String} :
      Finds (.constant kind text) (kind.value text) accepts
  | declaration {kind : DeclarationKind} {name : String} :
      Finds (.declaration kind name) (.error (.missingInitializer name)) accepts
  | unary {op : UnaryOp} {operand : Expr} {value : Value} (hop : op.mutates = false)
      (hvalue : accepts value) : Finds (.unary op operand) (op.apply value) accepts
  | step {op : UnaryOp} {operand : Expr} {value : Value} (hop : op.mutates = true)
      (hvalue : accepts value) : Finds (.unary op operand) (op.stepped value) accepts
  | decided {op : BinaryOp} {left right : Expr} {first result : Value} (hfirst : accepts first)
      (hresult : op.decided? mode first = some result) :
      Finds (.binary op left right) (.ok result) accepts
  | binary {op : BinaryOp} {left right : Expr} {first second : Value} (hfirst : accepts first)
      (hsecond : accepts second) : Finds (.binary op left right) (op.apply first second) accepts
  | condition {condition ifTrue ifFalse : Expr} {value : Value} :
      Finds (.ternary condition ifTrue ifFalse) (.error (.conditionNotBool value.kind)) accepts
  | compound {op : AssignOp} {compound : BinaryOp} {target value : Expr} {old new : Value}
      (hop : op.binary? = some compound) (hold : accepts old) (hnew : accepts new) :
      Finds (.assignment op target value) (compound.apply old new) accepts
  | owner {target part : Expr} {value : Value} (hvalue : accepts value) :
      Finds (.member target part) value.owner (fun id => accepts (.object id))
  | part {target part : Expr}
      (hpart : ∀ name arguments, part ≠ .var name ∧ part ≠ .call name arguments) :
      Finds (.member target part) (.error (.invalidMember part.kind)) accepts
  | container {target position : Expr} {value : Value} (hvalue : accepts value) :
      Finds (.index target position) value.container (fun id => accepts (.object id))
  | targetOwner {expr target : Expr} {name : String} {value : Value}
      (htarget : expr.target? = some (.member target (.var name))) (hvalue : accepts value) :
      Finds expr value.owner (fun id => accepts (.object id))
  | targetContainer {expr target position : Expr} {value : Value}
      (htarget : expr.target? = some (.index target position)) (hvalue : accepts value) :
      Finds expr value.container (fun id => accepts (.object id))
  | refusal {expr target : Expr} {kind : Expr.Kind} {answer : Place → Prop}
      (htarget : expr.target? = some target) (hkind : target.refusal? = some kind) :
      Finds expr (.error (.notAssignable kind)) answer

/-- A step that an expression takes itself, on a machine that its evaluation has come to. -/
inductive Performs : Expr → (start now : Machine) → {α : Type} → EvalM α → (α → Prop) → Prop
  | find {expr : Expr} {start now : Machine} {α : Type} {result : Except RuntimeError α}
      {answer : α → Prop} (h : Finds mode accepts expr result answer) :
      Performs expr start now (.ofExcept result) answer
  | read {expr : Expr} {start now : Machine} {place : Place} (hexpr : expr.isPlace = true)
      (hplace : expr.Denotes accepts place) : Performs expr start now place.read accepts
  | readTarget {expr target : Expr} {start now : Machine} {place : Place}
      (htarget : expr.target? = some target) (hupdates : expr.updates = true)
      (hplace : target.Denotes accepts place) : Performs expr start now place.read accepts
  | write {expr target : Expr} {start now : Machine} {place : Place} {value result : Value}
      (htarget : expr.target? = some target) (hplace : target.Denotes accepts place)
      (hvalue : accepts value)
      (hrun : (expr.evaluate mode).run start =
        (place.write value >>= fun _ => pure result).run now) :
      Performs expr start now (place.write value) (fun _ => True)
  | call {name : String} {arguments : List Expr} {start now : Machine} {values : List Value}
      (hvalues : ∀ value ∈ values, accepts value) :
      Performs (.call name arguments) start now (callFunction name values) accepts
  | method {target : Expr} {name : String} {arguments : List Expr} {start now : Machine}
      {id : ObjectId} {values : List Value} (hid : accepts (.object id))
      (hvalues : ∀ value ∈ values, accepts value) :
      Performs (.member target (.call name arguments)) start now
        (.request id (·.invoke id name values)) accepts

theorem run_owner_eq_ok_iff {value : Value} {id : ObjectId} {machine next : Machine} :
    (EvalM.ofExcept value.owner).run machine = .ok id next ↔
      value = .object id ∧ next = machine := by
  cases value with
  | object other =>
      simp [Value.owner, EvalM.ofExcept, eq_comm]
  | _ => exact ⟨nofun, nofun⟩

theorem run_container_eq_ok_iff {value : Value} {id : ObjectId} {machine next : Machine} :
    (EvalM.ofExcept value.container).run machine = .ok id next ↔
      value = .object id ∧ next = machine := by
  cases value with
  | object other =>
      simp [Value.container, EvalM.ofExcept, eq_comm]
  | _ => exact ⟨nofun, nofun⟩

theorem evaluatePlace_of_refusal? {target : Expr} {kind : Expr.Kind}
    (h : target.refusal? = some kind) :
    target.evaluatePlace mode = throw (.notAssignable kind) := by
  cases target with
  | member target part => cases part <;> cases h <;> rfl
  | _ => cases h <;> rfl

variable {mode}

/-- Where every value is accepted, every answer is as expected. -/
theorem Finds.answer {expr : Expr} {α : Type} {result : Except RuntimeError α} {answer : α → Prop}
    (h : Finds mode (fun _ => True) expr result answer) {a : α} (ha : result = .ok a) :
    answer a := by
  cases h with
  | refusal _ _ => cases ha
  | _ => trivial

theorem Performs.answer {expr : Expr} {start now next : Machine} {α : Type} {x : EvalM α}
    {answer : α → Prop} (h : Performs mode (fun _ => True) expr start now x answer) {a : α}
    (hrun : x.run now = .ok a next) : answer a := by
  cases h with
  | find h => exact h.answer (EvalM.of_ofExcept hrun).1
  | _ => trivial

end Expr

namespace Judgement

open ExprLang.Expr

variable (J : Judgement) {mode : LogicMode} {accepts : Value → Prop}

/-- The judgement holds of every step that is taken in the evaluation of an expression. -/
def Covers (mode : LogicMode) (accepts : Value → Prop) (expr : Expr) (machine : Machine) : Prop :=
  ∀ ⦃inner : Expr⦄ ⦃start now : Machine⦄ ⦃α : Type⦄ ⦃x : EvalM α⦄ ⦃answer : α → Prop⦄,
    Visits mode expr machine inner start → Performs mode accepts inner start now x answer →
    J.Holds now x answer

variable {J}

theorem Covers.enter {expr part : Expr} {machine next : Machine}
    (h : J.Covers mode accepts expr machine) (hpart : Enters mode expr machine part next) :
    J.Covers mode accepts part next :=
  fun _ _ _ _ _ _ hvisits hperforms => h (.enter hpart hvisits) hperforms

theorem Covers.holds {expr : Expr} {machine now : Machine} {α : Type} {x : EvalM α}
    {answer : α → Prop} (h : J.Covers mode accepts expr machine)
    (hperforms : Performs mode accepts expr machine now x answer) : J.Holds now x answer :=
  h (.refl expr machine) hperforms

theorem Covers.finds {expr : Expr} {machine now : Machine} {α : Type}
    {result : Except RuntimeError α} {answer : α → Prop} (h : J.Covers mode accepts expr machine)
    (hfinds : Finds mode accepts expr result answer) : J.Holds now (.ofExcept result) answer :=
  h.holds (.find hfinds)

/-! ## Single expressions -/

section Steps

variable {expr target : Expr} {machine now : Machine}

/-- A value for the target of an expression is stored, and the evaluation ends with an answer. -/
theorem Covers.stores (h : J.Covers mode accepts expr machine)
    (htarget : expr.target? = some target) {place : Place} (hplace : target.Denotes accepts place)
    {value result : Value} (hvalue : accepts value) (hresult : accepts result)
    (hrun : (expr.evaluate mode).run machine =
      (place.write value >>= fun _ => Pure.pure result).run now) :
    J.Holds now (place.write value >>= fun _ => Pure.pure result) accepts :=
  J.bind (h.holds (.write htarget hplace hvalue hrun)) fun _ _ _ _ => J.pure hresult

theorem Covers.step {op : UnaryOp} {operand : Expr} {place : Place}
    (h : J.Covers mode accepts (.unary op operand) machine) (hop : op.mutates = true)
    (hplace : operand.Denotes accepts place)
    (hrun : (operand.evaluatePlace mode).run machine = .ok place now) :
    J.Holds now (place.step op) accepts := by
  have htarget : (Expr.unary op operand).target? = some operand := if_pos hop
  have heval : ((Expr.unary op operand).evaluate mode).run machine = (place.step op).run now := by
    rw [Expr.evaluate, if_pos hop, EvalM.run_bind_of_ok hrun]
  refine J.bind (h.holds (.readTarget htarget rfl hplace)) fun old next hread hold => ?_
  refine J.bind (h.finds (.step hop hold)) fun new last hstep hnew => ?_
  have hresult : accepts (if op.isAfter then old else new) := by
    split
    · exact hold
    · exact hnew
  refine h.stores htarget hplace hnew hresult ?_
  rw [heval, Place.step, EvalM.run_bind_of_ok hread, EvalM.run_bind_of_ok hstep]

theorem Covers.assign {op : AssignOp} {value : Expr} {place : Place} {stored : Value}
    {middle : Machine} (h : J.Covers mode accepts (.assignment op target value) machine)
    (hplace : target.Denotes accepts place) (hstored : accepts stored)
    (hrun : (target.evaluatePlace mode).run machine = .ok place middle)
    (hvalue : (value.evaluate mode).run middle = .ok stored now) :
    J.Holds now (place.assign op stored) accepts := by
  have heval : ((Expr.assignment op target value).evaluate mode).run machine =
      (place.assign op stored).run now := by
    rw [Expr.evaluate, EvalM.run_bind_of_ok hrun, EvalM.run_bind_of_ok hvalue]
  rw [Place.assign] at heval ⊢
  cases hop : op.binary? with
  | none =>
      simp only [hop, pure_bind] at heval ⊢
      exact h.stores rfl hplace hstored hstored heval
  | some compound =>
      simp only [hop] at heval ⊢
      have hupdates : (Expr.assignment op target value).updates = true :=
        Option.isSome_iff_exists.mpr ⟨compound, hop⟩
      refine J.bind (h.holds (.readTarget rfl hupdates hplace)) fun old next hread hold => ?_
      refine J.bind (h.finds (.compound hop hold hstored)) fun new last happly hnew => ?_
      refine h.stores rfl hplace hnew hnew ?_
      rw [heval, EvalM.run_bind_of_ok hread, EvalM.run_bind_of_ok happly]

end Steps

/-! ## All expressions -/

mutual

/-- A judgement that covers the steps of an expression holds of its evaluation. -/
theorem holds_evaluate (expr : Expr) {machine : Machine}
    (h : J.Covers mode accepts expr machine) : J.Holds machine (expr.evaluate mode) accepts := by
  cases expr with
  | constant kind text => exact h.finds .constant
  | var name => exact h.holds (.read rfl .var)
  | declaration kind name => exact h.finds .declaration
  | group inner => exact holds_evaluate inner (h.enter .group)
  | unary op operand =>
      rw [Expr.evaluate]
      split
      next hop =>
        have htarget : (Expr.unary op operand).target? = some operand := if_pos hop
        exact J.bind (holds_evaluatePlace operand htarget h) fun place next hrun hplace =>
          h.step hop hplace hrun
      next hop =>
        rw [Bool.not_eq_true] at hop
        exact J.bind (holds_evaluate operand (h.enter (.operand hop))) fun value next _ hvalue =>
          h.finds (.unary hop hvalue)
  | binary op left right =>
      rw [Expr.evaluate]
      refine J.bind (holds_evaluate left (h.enter .left)) fun first next hrun hfirst => ?_
      cases hdecided : op.decided? mode first with
      | some result => exact h.finds (.decided hfirst hdecided)
      | none =>
          exact J.bind (holds_evaluate right (h.enter (.right hrun hdecided)))
            fun second last _ hsecond => h.finds (.binary hfirst hsecond)
  | ternary condition ifTrue ifFalse =>
      rw [Expr.evaluate]
      refine J.bind (holds_evaluate condition (h.enter .condition)) fun value next hrun _ => ?_
      split
      · exact holds_evaluate ifTrue (h.enter (.ifTrue hrun))
      · exact holds_evaluate ifFalse (h.enter (.ifFalse hrun))
      · exact h.finds .condition
  | assignment op target value =>
      rw [Expr.evaluate]
      refine J.bind (holds_evaluatePlace target rfl h) fun place middle hplace hdenotes => ?_
      exact J.bind (holds_evaluate value (h.enter (.value hplace))) fun stored now hvalue hstored =>
        h.assign hdenotes hstored hplace hvalue
  | call name arguments =>
      rw [Expr.evaluate]
      exact J.bind (holds_evaluateAll arguments fun _ _ hpart => h.enter (.argument hpart))
        fun values next _ hvalues => h.holds (.call hvalues)
  | member target part =>
      rw [Expr.evaluate]
      refine J.bind (holds_evaluate target (h.enter .owner)) fun value middle hrun hvalue => ?_
      refine J.bind (h.finds (.owner hvalue)) fun id next howner hid => ?_
      obtain ⟨rfl, rfl⟩ := run_owner_eq_ok_iff.mp howner
      cases part with
      | var name => exact h.holds (.read rfl (.property hid))
      | call name arguments =>
          exact J.bind
            (holds_evaluateAll arguments fun _ _ hpart => h.enter (.methodArgument hrun hpart))
            fun values last _ hvalues => h.holds (.method hid hvalues)
      | _ => exact h.finds (.part fun _ _ => ⟨Expr.noConfusion, Expr.noConfusion⟩)
  | index target position =>
      rw [Expr.evaluate]
      refine J.bind (holds_evaluate target (h.enter .container)) fun value middle hrun hvalue => ?_
      refine J.bind (h.finds (.container hvalue)) fun id next howner hid => ?_
      obtain ⟨rfl, rfl⟩ := run_container_eq_ok_iff.mp howner
      exact J.bind (holds_evaluate position (h.enter (.position hrun)))
        fun place last _ hplace => h.holds (.read rfl (.element hid hplace))
termination_by structural expr

/-- What an expression stores to is found as a place that it denotes. -/
theorem holds_evaluatePlace (target : Expr) {expr : Expr} {machine : Machine}
    (htarget : expr.target? = some target) (h : J.Covers mode accepts expr machine) :
    J.Holds machine (target.evaluatePlace mode) (target.Denotes accepts) := by
  cases hrefusal : target.refusal? with
  | some kind =>
      rw [evaluatePlace_of_refusal? mode hrefusal]
      exact h.finds (.refusal htarget hrefusal)
  | none =>
      cases target with
      | var name => exact J.pure .var
      | declaration kind name => exact J.pure .declaration
      | member target part =>
          cases part with
          | var name =>
              rw [evaluatePlace]
              refine J.bind (holds_evaluate target (h.enter (.place htarget .owner)))
                fun value middle _ hvalue => ?_
              exact J.bind (h.finds (.targetOwner htarget hvalue))
                fun id next _ hid => J.pure (.property hid)
          | _ => cases hrefusal
      | index target position =>
          rw [evaluatePlace]
          refine J.bind (holds_evaluate target (h.enter (.place htarget .container)))
            fun value middle hrun hvalue => ?_
          refine J.bind (h.finds (.targetContainer htarget hvalue)) fun id next hcontainer hid => ?_
          obtain ⟨rfl, rfl⟩ := run_container_eq_ok_iff.mp hcontainer
          exact J.bind (holds_evaluate position (h.enter (.place htarget (.position hrun))))
            fun place last _ hplace => J.pure (.element hid hplace)
      | _ => cases hrefusal
termination_by structural target

theorem holds_evaluateAll (list : List Expr) {machine : Machine}
    (h : ∀ inner start, EntersAll mode list machine inner start →
      J.Covers mode accepts inner start) :
    J.Holds machine (evaluateAll mode list) fun values => ∀ value ∈ values, accepts value := by
  cases list with
  | nil => exact J.pure (List.forall_mem_nil _)
  | cons argument rest =>
      rw [evaluateAll]
      refine J.bind (holds_evaluate argument (h _ _ .head)) fun value next hrun hvalue => ?_
      refine J.bind (holds_evaluateAll rest fun _ _ hpart => h _ _ (.tail hrun hpart))
        fun values last _ hvalues => ?_
      exact J.pure (List.forall_mem_cons.mpr ⟨hvalue, hvalues⟩)
termination_by structural list

end

end Judgement
end ExprLang
