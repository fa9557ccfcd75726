import ExprLang.Proofs.Evaluation.Writes

/-!
# Skipping operands

Where the left operand of a logical operator decides the result, evaluation may skip the right one.
If that operand would only look at things, and looking at an object does not change anything,
nothing is lost by it: an evaluation that succeeds without skipping succeeds with skipping, too, and
answers and leaves the same.
-/

namespace ExprLang

/-! ## Operands that only look at things -/

namespace Expr

/-- Whether an expression stores to a place, calls a function or calls a method. -/
def acts : Expr → Bool
  | assignment .. | call .. | member _ (call ..) => true
  | unary op _ => op.mutates
  | _ => false

/-- Nothing that an expression holds stores or calls. -/
def Still (expr : Expr) : Prop :=
  ∀ inner, expr.Contains inner → inner.acts = false

/-- The right operands of all logical operators in an expression are still. -/
def SkipsStill (expr : Expr) : Prop :=
  ∀ op left right, expr.Contains (.binary op left right) → op = .and ∨ op = .or → right.Still

variable {mode : LogicMode} {accepts : Value → Prop} {expr part target : Expr}

theorem acts_of_target? (h : expr.target? = some target) : expr.acts = true := by
  cases expr with
  | unary op operand =>
      rw [target?] at h
      split at h <;> cases h
      next hop => exact hop
  | assignment op target value => rfl
  | _ => cases h

theorem still_of_operands (hacts : expr.acts = false)
    (hparts : ∀ part ∈ expr.operands, part.Still) : expr.Still := by
  rintro inner (_ | ⟨hpart, hinner⟩)
  · exact hacts
  · exact hparts _ hpart inner hinner

theorem skipsStill_of_operands
    (hlogic : ∀ op left right, expr = .binary op left right → op = .and ∨ op = .or → right.Still)
    (hparts : ∀ part ∈ expr.operands, part.SkipsStill) : expr.SkipsStill := by
  rintro op left right (_ | ⟨hpart, hbinary⟩) hop
  · exact hlogic op left right rfl hop
  · exact hparts _ hpart op left right hbinary hop

theorem Still.skipsStill (h : expr.Still) : expr.SkipsStill := by
  intro op left right hbinary _ inner hinner
  refine h inner (hbinary.trans (.operand ?_ hinner))
  exact .tail _ (.head _)

theorem SkipsStill.of_mem (h : expr.SkipsStill) (hpart : part ∈ expr.operands) :
    part.SkipsStill :=
  fun op left right hbinary => h op left right (.operand hpart hbinary)

end Expr

/-- Reading a property or an element of any object leaves all objects as they are. -/
def Machine.ReadsQuietly (machine : Machine) : Prop :=
  ∀ sort, (machine.behaviours sort).ReadsQuietly

theorem Machine.ReadsQuietly.behaviour {machine : Machine} (h : machine.ReadsQuietly)
    (id : ObjectId) : (machine.behaviour id).ReadsQuietly := by
  rw [Machine.behaviour, Heap.behaviour]
  cases machine.heap.objects[id]? with
  | none => exact Behaviour.readsQuietly_plain
  | some object =>
      cases object with
      | custom sort typeName state => exact h sort
      | _ => exact Behaviour.readsQuietly_plain

theorem Place.eq_of_run_read {place : Place} {machine next : Machine} {value : Value}
    (hreads : machine.ReadsQuietly) (h : place.read.run machine = .ok value next) :
    next = machine := by
  cases place with
  | var name =>
      rw [run_read isPlain_var] at h
      exact (EvalM.of_ofExcept h).2
  | declaration kind name => cases h
  | property id name =>
      rw [read, EvalM.run_request] at h
      split at h <;> cases h
      next heap hrun => rw [(hreads.behaviour id).getProperty hrun]
  | element id index =>
      rw [read, EvalM.run_request] at h
      split at h <;> cases h
      next heap hrun => rw [(hreads.behaviour id).getIndex hrun]

/-- An object counts one more hit. -/
def Behaviour.hit (id : ObjectId) : HostM Value := do
  let heap ← get
  match heap.find id with
  | .custom sort typeName state =>
    let hits : Int64 :=
      match state["hits"]? with
      | some (.int n) => n + 1
      | _ => 1
    set (heap.replace id (.custom sort typeName (state.insert "hits" (.int hits))))
    return .int hits
  | object => throw (.unknownMethod object.typeName "hit")

/-- The behaviour of objects that count the calls of their methods and show the count. -/
def Behaviour.counter : Behaviour where
  getProperty := plain.getProperty
  invoke id _ _ := hit id

theorem Behaviour.readsQuietly_counter : counter.ReadsQuietly where
  getProperty := eq_of_run_ask
  getIndex := eq_of_run_ask

/-- Where reads are quiet, an evaluation that succeeds leaves the machine as it is. -/
def Judgement.looking : Judgement where
  Holds machine x answer := machine.ReadsQuietly →
    ∀ a next, x.run machine = .ok a next → next = machine ∧ answer a
  pure hanswer _ := by
    rintro a next ⟨⟩
    exact ⟨rfl, hanswer⟩
  bind hx hrest hreads b last hrun := by
    obtain ⟨a, next, hfirst, hlast⟩ := EvalM.run_bind_eq_ok_iff.mp hrun
    obtain ⟨rfl, hmiddle⟩ := hx hreads a next hfirst
    exact hrest a _ hfirst hmiddle hreads b last hlast

namespace Expr

variable {mode : LogicMode} {accepts : Value → Prop} {expr : Expr}

theorem Performs.eq_of_run {start now next : Machine} {α : Type} {x : EvalM α} {answer : α → Prop}
    {a : α} (h : Performs mode accepts expr start now x answer) (hstill : expr.acts = false)
    (hreads : now.ReadsQuietly) (hrun : x.run now = .ok a next) : next = now := by
  cases h with
  | find _ => exact (EvalM.of_ofExcept hrun).2
  | read _ _ => exact Place.eq_of_run_read hreads hrun
  | readTarget _ _ _ => exact Place.eq_of_run_read hreads hrun
  | write htarget _ _ _ => cases hstill.symm.trans (acts_of_target? htarget)
  | call _ => cases hstill
  | method _ _ => cases hstill

/-- The evaluation of an expression without stores and calls changes nothing if it succeeds. -/
theorem Still.eq_of_run {machine next : Machine} {value : Value} (h : expr.Still)
    (hreads : machine.ReadsQuietly) (hrun : (expr.evaluate mode).run machine = .ok value next) :
    next = machine := by
  have hcovers : Judgement.looking.Covers mode (fun _ => True) expr machine := by
    intro inner start now α x answer hvisits hperforms hnow a last hlast
    exact ⟨hperforms.eq_of_run (h inner hvisits.contains) hnow hlast, hperforms.answer hlast⟩
  exact (Judgement.holds_evaluate expr hcovers hreads value next hrun).1

end Expr

/-! ## Evaluations that succeed where others do -/

/-- Where reads are quiet and the one evaluation succeeds, the other one succeeds, too, and answers
and leaves the same. -/
def EvalM.Refines {α : Type} (x y : EvalM α) : Prop :=
  ∀ ⦃machine a next⦄, machine.ReadsQuietly → x.run machine = .ok a next →
    y.run machine = .ok a next

/-- An evaluation does not change how objects behave. -/
def EvalM.KeepsBehaviours {α : Type} (x : EvalM α) : Prop :=
  ∀ machine, (x.after machine).behaviours = machine.behaviours

theorem EvalM.keepsBehaviours_ofExcept {α : Type} (result : Except RuntimeError α) :
    (EvalM.ofExcept result).KeepsBehaviours := fun machine => by
  rw [after_ofExcept]

namespace EvalM.Refines

variable {α β : Type} {x y : EvalM α} {rest other : α → EvalM β}

theorem refl (x : EvalM α) : x.Refines x :=
  fun _ _ _ _ hrun => hrun

theorem bind (hx : x.Refines y) (hkeeps : x.KeepsBehaviours)
    (hrest : ∀ a, (rest a).Refines (other a)) : (x >>= rest).Refines (y >>= other) := by
  intro machine b last hreads hrun
  obtain ⟨a, next, hfirst, hlast⟩ := EvalM.run_bind_eq_ok_iff.mp hrun
  have hbehaviours := hkeeps machine
  rw [EvalM.after_of_ok hfirst] at hbehaviours
  have hnext : next.ReadsQuietly := fun sort => hbehaviours ▸ hreads sort
  rw [EvalM.run_bind_of_ok (hx hreads hfirst)]
  exact hrest a hnext hlast

end EvalM.Refines

namespace BinaryOp

variable {op : BinaryOp} {mode : LogicMode} {first result : Value}

theorem decided?_eager (op : BinaryOp) (first : Value) : op.decided? .eager first = none := by
  unfold decided?
  split <;> rfl

/-- Where the left operand decides the result, no right operand can change it. -/
theorem of_decided? (h : op.decided? mode first = some result) :
    (op = .and ∨ op = .or) ∧
      ∀ second value, op.apply first second = .ok value → value = result := by
  unfold decided? at h
  split at h
  case h_3 => cases h
  all_goals
    split at h <;> cases h
    simp only [true_or, or_true, true_and]
    intro second value happly
    cases second <;> cases happly
    rfl

end BinaryOp

namespace Expr

section

variable (mode : LogicMode)

theorem covers_behaviours (behaviours : Nat → Behaviour) (expr : Expr) (machine : Machine) :
    (Judgement.keeping (·.behaviours = behaviours)).Covers mode (fun _ => True) expr machine := by
  intro inner start now α x answer hvisits hperforms hnow
  exact ⟨hperforms.behaviours_after.trans hnow, fun a next hrun => hperforms.answer hrun⟩

theorem keepsBehaviours_evaluate (expr : Expr) : (expr.evaluate mode).KeepsBehaviours :=
  fun machine => (Judgement.holds_evaluate expr (covers_behaviours mode _ expr machine) rfl).1

theorem keepsBehaviours_evaluatePlace (target : Expr) :
    (target.evaluatePlace mode).KeepsBehaviours := fun machine =>
  have hcovers := covers_behaviours mode machine.behaviours (.assignment .assign target target)
    machine
  (Judgement.holds_evaluatePlace target rfl hcovers rfl).1

theorem keepsBehaviours_evaluateAll (list : List Expr) :
    (evaluateAll mode list).KeepsBehaviours := fun machine =>
  (Judgement.holds_evaluateAll list
    (fun inner start _ => covers_behaviours mode machine.behaviours inner start) rfl).1

end

end Expr

/-- What comes after a part of an expression starts with the same behaviours. -/
theorem EvalM.Refines.bind_evaluate {α : Type} {mode other : LogicMode} {expr : Expr}
    {rest last : Value → EvalM α} (h : (expr.evaluate mode).Refines (expr.evaluate other))
    (hrest : ∀ value, (rest value).Refines (last value)) :
    (expr.evaluate mode >>= rest).Refines (expr.evaluate other >>= last) :=
  h.bind (Expr.keepsBehaviours_evaluate mode expr) hrest

namespace Expr

/-- A still operand need not be evaluated for a result that it cannot change. -/
theorem Still.refines_pure {op : BinaryOp} {right : Expr} {first result : Value} (h : right.Still)
    (hresult : ∀ second value, op.apply first second = .ok value → value = result) :
    EvalM.Refines (do EvalM.ofExcept (op.apply first (← right.evaluate .eager))) (pure result) := by
  intro machine value next hreads hrun
  obtain ⟨second, middle, hright, hrest⟩ := EvalM.run_bind_eq_ok_iff.mp hrun
  obtain ⟨happly, rfl⟩ := EvalM.of_ofExcept hrest
  obtain rfl := hresult second value happly
  rw [h.eq_of_run hreads hright]
  rfl

mutual

/-- Skipping refines the evaluation of an expression if it can only skip still operands. -/
theorem refines_evaluate (expr : Expr) (h : expr.SkipsStill) :
    (expr.evaluate .eager).Refines (expr.evaluate .shortCircuit) := by
  cases expr with
  | constant kind text => exact .refl _
  | var name => exact .refl _
  | declaration kind name => exact .refl _
  | group inner => exact refines_evaluate inner (h.of_mem (.head _))
  | unary op operand =>
      rw [evaluate, evaluate]
      split
      next =>
        exact (refines_evaluatePlace operand (h.of_mem (.head _))).bind
          (keepsBehaviours_evaluatePlace _ _) fun _ => .refl _
      next =>
        exact (refines_evaluate operand (h.of_mem (.head _))).bind_evaluate fun _ => .refl _
  | binary op left right =>
      rw [evaluate, evaluate]
      refine (refines_evaluate left (h.of_mem (.head _))).bind_evaluate fun first => ?_
      rw [BinaryOp.decided?_eager]
      cases hdecided : op.decided? .shortCircuit first with
      | none =>
          exact (refines_evaluate right (h.of_mem (.tail _ (.head _)))).bind_evaluate
            fun _ => .refl _
      | some result =>
          obtain ⟨hop, hresult⟩ := BinaryOp.of_decided? hdecided
          exact (h op left right (.refl _) hop).refines_pure hresult
  | ternary condition ifTrue ifFalse =>
      rw [evaluate, evaluate]
      refine (refines_evaluate condition (h.of_mem (.head _))).bind_evaluate fun value => ?_
      split
      · exact refines_evaluate ifTrue (h.of_mem (.tail _ (.head _)))
      · exact refines_evaluate ifFalse (h.of_mem (.tail _ (.tail _ (.head _))))
      · exact .refl _
  | assignment op target value =>
      rw [evaluate, evaluate]
      refine (refines_evaluatePlace target (h.of_mem (.head _))).bind
        (keepsBehaviours_evaluatePlace _ _) fun place => ?_
      exact (refines_evaluate value (h.of_mem (.tail _ (.head _)))).bind_evaluate fun _ => .refl _
  | call name arguments =>
      rw [evaluate, evaluate]
      exact (refines_evaluateAll arguments fun _ hpart => h.of_mem hpart).bind
        (keepsBehaviours_evaluateAll _ _) fun _ => .refl _
  | member target part =>
      rw [evaluate, evaluate]
      have htarget := h.of_mem (mem_operands_member target part)
      refine (refines_evaluate target htarget).bind_evaluate fun value => ?_
      refine EvalM.Refines.bind (.refl _) (EvalM.keepsBehaviours_ofExcept _) fun id => ?_
      cases part with
      | call name arguments =>
          exact (refines_evaluateAll arguments fun _ hpart => h.of_mem (.tail _ hpart)).bind
            (keepsBehaviours_evaluateAll _ _) fun _ => .refl _
      | _ => exact .refl _
  | index target position =>
      rw [evaluate, evaluate]
      refine (refines_evaluate target (h.of_mem (.head _))).bind_evaluate fun value => ?_
      refine EvalM.Refines.bind (.refl _) (EvalM.keepsBehaviours_ofExcept _) fun id => ?_
      exact (refines_evaluate position (h.of_mem (.tail _ (.head _)))).bind_evaluate
        fun _ => .refl _
termination_by structural expr

theorem refines_evaluatePlace (target : Expr) (h : target.SkipsStill) :
    (target.evaluatePlace .eager).Refines (target.evaluatePlace .shortCircuit) := by
  cases hrefusal : target.refusal? with
  | some kind =>
      rw [evaluatePlace_of_refusal? .eager hrefusal,
        evaluatePlace_of_refusal? .shortCircuit hrefusal]
      exact .refl _
  | none =>
      cases target with
      | var name => exact .refl _
      | declaration kind name => exact .refl _
      | member target part =>
          cases part with
          | var name =>
              exact (refines_evaluate target (h.of_mem (.head _))).bind_evaluate fun _ => .refl _
          | _ => cases hrefusal
      | index target position =>
          rw [evaluatePlace, evaluatePlace]
          refine (refines_evaluate target (h.of_mem (.head _))).bind_evaluate fun value => ?_
          refine EvalM.Refines.bind (.refl _) (EvalM.keepsBehaviours_ofExcept _) fun id => ?_
          exact (refines_evaluate position (h.of_mem (.tail _ (.head _)))).bind_evaluate
            fun _ => .refl _
      | _ => cases hrefusal
termination_by structural target

theorem refines_evaluateAll (list : List Expr) (h : ∀ part ∈ list, part.SkipsStill) :
    (evaluateAll .eager list).Refines (evaluateAll .shortCircuit list) := by
  cases list with
  | nil => exact .refl _
  | cons argument rest =>
      rw [evaluateAll, evaluateAll]
      refine (refines_evaluate argument (h argument (.head _))).bind_evaluate fun value => ?_
      exact (refines_evaluateAll rest fun part hpart => h part (.tail _ hpart)).bind
        (keepsBehaviours_evaluateAll _ _) fun _ => .refl _
termination_by structural list

end

/-- If eager evaluation of an expression succeeds, no right operand of `&&` or `||` in it stores or
calls, and reads of objects are quiet, then short-circuit evaluation answers the same value and
leaves the same machine. -/
theorem run_shortCircuit_of_run_eager {expr : Expr} {machine next : Machine} {value : Value}
    (h : expr.SkipsStill) (hreads : machine.ReadsQuietly)
    (hrun : (expr.evaluate .eager).run machine = .ok value next) :
    (expr.evaluate .shortCircuit).run machine = .ok value next :=
  refines_evaluate expr h hreads hrun

/-- In `c.hit() > 0 || c.hits > 1` the left operand changes an object of the host, and the right one
reads it. -/
theorem run_shortCircuit_of_run_eager_counter :
    let environment := Environment.empty.define "c" (.object 0)
    let machine : Machine :=
      { environment, heap := ⟨#[.custom 0 "Counter" ∅]⟩, behaviours := fun _ => .counter }
    let next : Machine :=
      { machine with
        heap := ⟨#[.custom 0 "Counter" (Std.ExtTreeMap.insert ∅ "hits" (.int 1))]⟩ }
    let expr : Expr := .binary .or
      (.binary .greater (.member (.var "c") (.call "hit" [])) (.constant .int "0"))
      (.binary .greater (.member (.var "c") (.var "hits")) (.constant .int "1"))
    expr.SkipsStill ∧ machine.ReadsQuietly ∧
      (expr.evaluate .eager).run machine = .ok (.bool true) next ∧
      (expr.evaluate .shortCircuit).run machine = .ok (.bool true) next := by
  intro environment machine next expr
  have hvar : (var "c").Still := still_of_operands rfl (by simp [operands, children])
  have hliteral (text : String) : (constant .int text).Still :=
    still_of_operands rfl (by simp [operands, children])
  have hhits : (member (.var "c") (.var "hits")).Still :=
    still_of_operands rfl (by simpa [operands] using hvar)
  have hright : (binary .greater (.member (.var "c") (.var "hits")) (.constant .int "1")).Still :=
    still_of_operands rfl (by simp [operands, children, hhits, hliteral])
  have hhit : (member (.var "c") (.call "hit" [])).SkipsStill :=
    skipsStill_of_operands (fun _ _ _ heq => by cases heq)
      (by simpa [operands] using hvar.skipsStill)
  have hleft : (binary .greater (.member (.var "c") (.call "hit" []))
      (.constant .int "0")).SkipsStill := by
    refine skipsStill_of_operands ?_ (by simp [operands, children, hhit, (hliteral _).skipsStill])
    rintro op left right heq (rfl | rfl) <;> cases heq
  have hstill : expr.SkipsStill := by
    refine skipsStill_of_operands ?_
      (by simp [expr, operands, children, hleft, hright.skipsStill])
    intro op left right heq _
    obtain ⟨-, -, rfl⟩ := Expr.binary.inj heq
    exact hright
  have hreads : machine.ReadsQuietly := fun _ => Behaviour.readsQuietly_counter
  have hrun : (expr.evaluate .eager).run machine = .ok (.bool true) next := by rfl
  exact ⟨hstill, hreads, hrun, run_shortCircuit_of_run_eager hstill hreads hrun⟩

/-- An object that counts how often it is looked at tells the two modes apart. -/
example :
    let environment := Environment.empty.define "c" (.object 0)
    let machine : Machine :=
      { environment, heap := ⟨#[.custom 0 "Counter" ∅]⟩
        behaviours := fun _ => { getProperty := fun id _ => Behaviour.hit id } }
    let expr : Expr := .binary .or (.constant .bool "true")
      (.binary .greater (.member (.var "c") (.var "hits")) (.constant .int "0"))
    let eager := (expr.evaluate .eager).after machine
    let skipping := (expr.evaluate .shortCircuit).after machine
    (eager.heap.find 0).getProperty "hits" = .ok (.int 1) ∧
      (skipping.heap.find 0).getProperty "hits" = .error (.unknownProperty "Counter" "hits") := by
  exact ⟨rfl, rfl⟩

end Expr

end ExprLang
