import ExprLang.Proofs.Evaluation.Builtins

/-!
# Confinement

An expression is given the objects that its variables mean, and with an object it is given all that
the object holds. The functions of the language give it no others, so it never gets hold of another
object, stores one or changes one.
-/

namespace ExprLang

/-- The objects that are given with some names: those that the names mean, and those that are held
by other given ones. -/
inductive Machine.Reaches (machine : Machine) (names : Set String) : ObjectId → Prop
  | binding {name : String} {kind : DeclarationKind} {id : ObjectId} (hname : name ∈ names)
      (hfind : machine.environment.scopes.find? name = some ⟨kind, some (.object id)⟩) :
      Reaches machine names id
  | part {id inner : ObjectId} (h : Reaches machine names id)
      (hpart : (machine.heap.find id).Holds (.object inner)) : Reaches machine names inner

/-- A value is one of the given objects, if it is an object at all. -/
def Value.Within (objects : ObjectId → Prop) (value : Value) : Prop :=
  ∀ id, value = .object id → objects id

/-- There are no other functions than the two of the language. -/
def Environment.OnlyBuiltins (environment : Environment) : Prop :=
  ∀ name function, environment.function? name = some function →
    function = Builtin.parseInt ∨ function = Builtin.eval Builtin.answerText

namespace Value

variable {objects : ObjectId → Prop} {value : Value} {id : ObjectId}

@[simp]
theorem within_object_iff : (object id).Within objects ↔ objects id := by
  simp [Within]

@[simp]
theorem within_string (objects : ObjectId → Prop) (text : String) :
    (string text).Within objects := by
  simp [Within]

theorem within_of_isScalar (h : value.isScalar = true) : value.Within objects := by
  rintro id rfl
  cases h

end Value

theorem Environment.onlyBuiltins_withBuiltins {environment : Environment}
    (h : environment.functions = ∅) : environment.withBuiltins.OnlyBuiltins := by
  intro name function hfunction
  rw [withBuiltins, Builtin.function?_define, function?, h, Std.ExtTreeMap.getElem?_empty]
    at hfunction
  split at hfunction
  next =>
    cases hfunction
    exact .inr rfl
  next =>
    split at hfunction <;> cases hfunction
    exact .inl rfl

namespace Expr

variable {machine : Machine} {names : Set String} {expr : Expr}

theorem closes_within (hfunctions : machine.environment.OnlyBuiltins)
    (objects : ObjectId → Prop) (expr : Expr) :
    expr.Closes (Value.Within objects) machine.environment where
  scalar := Value.within_of_isScalar
  literal _ := Value.within_string objects _
  function _ hfunction := by
    rcases hfunctions _ _ hfunction with rfl | rfl
    · exact Builtin.carries_parseInt Value.within_of_isScalar
    · exact Builtin.carries_eval fun _ _ => Value.within_string objects _

/-- A program neither touches nor obtains an object that it was not given, if the given ones are
lists, records and objects that only show their state. Whether it succeeds or fails, an evaluation
leaves every object alone that cannot be reached from the names of the variables in its expression,
and the reachable objects and the bindings that it writes hold no such object; nor do the expression
and the parts that are evaluated ever have one for their value. -/
theorem confines_evaluate (mode : LogicMode)
    (hplain : ∀ id, machine.Reaches names id → machine.behaviour id = .plain)
    (hnames : ∀ name, expr.Contains (.var name) → name ∈ names)
    (hfunctions : machine.environment.OnlyBuiltins) :
    machine.Confines (Value.Within (machine.Reaches names)) names
        ((expr.evaluate mode).after machine) ∧
      ∀ inner start value last, Visits mode expr machine inner start →
        (inner.evaluate mode).run start = .ok value last →
        value.Within (machine.Reaches names) := by
  have hstart : machine.Confines (Value.Within (machine.Reaches names)) names machine := by
    refine .refl (fun id hid => ?_) (fun name hname kind value hfind id hvalue => ?_)
      (fun id value hid hvalue inner hinner => ?_)
    · exact hplain id (Value.within_object_iff.mp hid)
    · exact .binding hname (hvalue ▸ hfind)
    · exact .part (Value.within_object_iff.mp hid) (hinner ▸ hvalue)
  have hcovers : (Judgement.keeping _).Covers mode _ expr machine :=
    (closes_within hfunctions (machine.Reaches names) expr).covers hnames mode
  refine ⟨(Judgement.holds_evaluate expr hcovers hstart).1, ?_⟩
  intro inner start value last hvisits hrun
  have hbefore := hvisits.keeps hcovers hstart
  exact (Judgement.holds_evaluate inner (hvisits.covers hcovers) hbefore).2 value last hrun

/-- A record is pushed into a list, while another list, which the expression does not name, is out
of its reach. -/
theorem confines_evaluate_push :
    let environment := ((Environment.empty.define "items" (.object 0)).define "point"
      (.object 1)).define "secret" (.object 2)
    let machine : Machine :=
      { environment := environment.withBuiltins
        heap := ⟨#[.list #[], .record "Point" ∅, .list #[.int 7]]⟩ }
    let expr : Expr := .member (.var "items") (.call "push" [.var "point"])
    let names := {name | expr.Contains (.var name)}
    (∀ id, machine.Reaches names id → machine.behaviour id = .plain) ∧
      machine.environment.OnlyBuiltins ∧ ¬ machine.Reaches names 2 ∧
      machine.Confines (Value.Within (machine.Reaches names)) names
        ((expr.evaluate .eager).after machine) ∧
      ∀ inner start value last, Visits .eager expr machine inner start →
        (inner.evaluate .eager).run start = .ok value last →
        value.Within (machine.Reaches names) := by
  intro environment machine expr names
  have hfunctions : machine.environment.OnlyBuiltins :=
    Environment.onlyBuiltins_withBuiltins rfl
  have hnames : ∀ name ∈ names, name = "items" ∨ name = "point" := by
    intro name hname
    change (Expr.member (.var "items") (.call "push" [.var "point"])).Contains _ at hname
    rcases hname with _ | ⟨hpart, h⟩
    simp only [operands, List.mem_cons, List.not_mem_nil, or_false] at hpart
    rcases hpart with rfl | rfl
    · exact .inl (Expr.var.inj (h.eq_of_leaf rfl))
    · exact .inr (Expr.var.inj (h.eq_of_leaf rfl))
  have hreaches : ∀ id, machine.Reaches names id → id = 0 ∨ id = 1 := by
    intro id h
    induction h with
    | binding hname hfind =>
        rcases hnames _ hname with rfl | rfl <;> cases hfind <;> simp
    | part _ hpart ih =>
        rcases ih with rfl | rfl <;> simp [machine, Heap.find, Object.Holds] at hpart
  have hplain : ∀ id, machine.Reaches names id → machine.behaviour id = .plain := by
    intro id h
    rcases hreaches id h with rfl | rfl <;> rfl
  exact ⟨hplain, hfunctions, fun h => by simpa using hreaches 2 h,
    confines_evaluate .eager hplain (fun _ hname => hname) hfunctions⟩

end Expr

end ExprLang
