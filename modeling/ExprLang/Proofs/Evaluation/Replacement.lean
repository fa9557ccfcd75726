import ExprLang.Proofs.Evaluation.Flow

/-!
# Replacing functions

An evaluation knows the functions that it calls only by their answers. Where other functions answer
the same for the arguments that they can get, it goes the same way with these.
-/

namespace ExprLang

/-- Functions by their names. -/
abbrev Functions := Std.ExtTreeMap String HostFunction compare

/-- Other functions in the place of those of an environment. -/
def Environment.withFunctions (functions : Functions)
    (environment : Environment) : Environment :=
  { environment with functions }

/-- The machine with other functions. -/
def Machine.withFunctions (functions : Functions)
    (machine : Machine) : Machine :=
  { machine with environment := machine.environment.withFunctions functions }

/-- Two functions answer the same for accepted arguments. -/
def HostFunction.Agrees (accepts : Value → Prop) (function other : HostFunction) : Prop :=
  ∀ values, (∀ value ∈ values, accepts value) → function.invoke values = other.invoke values

/-- The functions that an expression calls have others that answer the same. -/
def Expr.Follows (accepts : Value → Prop) (functions others : Functions) (expr : Expr) : Prop :=
  ∀ name arguments, expr.Contains (.call name arguments) →
    Option.Rel (HostFunction.Agrees accepts) functions[name]? others[name]?

/-- An evaluation answers the same after a change of the machine, and leaves the machine that it
would leave without the change but for the change itself. -/
def EvalM.Commutes {α : Type} (change : Machine → Machine) (x : EvalM α) (machine : Machine) :
    Prop :=
  x.answer (change machine) = x.answer machine ∧
    x.after (change machine) = change (x.after machine)

/-- An evaluation keeps a property of the machine and commutes with a change of it. -/
def Judgement.commuting (change : Machine → Machine) (invariant : Machine → Prop) : Judgement where
  Holds machine x answer := (Judgement.keeping invariant).Holds machine x answer ∧
    (invariant machine → x.Commutes change machine)
  pure hanswer := ⟨(Judgement.keeping invariant).pure hanswer, fun _ => ⟨rfl, rfl⟩⟩
  bind {α β machine x rest middle answer} hx hrest := by
    refine ⟨(Judgement.keeping invariant).bind hx.1 fun a next hrun hmiddle =>
      (hrest a next hrun hmiddle).1, fun hinvariant => ?_⟩
    obtain ⟨hsame, hafter⟩ := hx.2 hinvariant
    obtain ⟨hkept, hmiddle⟩ := hx.1 hinvariant
    cases hrun : x.run machine with
    | ok a next =>
        rw [EvalM.answer_of_ok hrun] at hsame
        rw [EvalM.after_of_ok hrun] at hafter hkept
        have hchanged := EvalM.run_eq_ok hsame
        rw [hafter] at hchanged
        have hlast := (hrest a next hrun (hmiddle a next hrun)).2 hkept
        simpa only [EvalM.Commutes, EvalM.answer, EvalM.after, EvalM.run_bind_of_ok hrun,
          EvalM.run_bind_of_ok hchanged] using hlast
    | error error next =>
        rw [EvalM.answer_of_error hrun] at hsame
        rw [EvalM.after_of_error hrun] at hafter
        have hchanged := EvalM.run_eq_error hsame
        rw [hafter] at hchanged
        simp only [EvalM.Commutes, EvalM.answer, EvalM.after, EvalM.run_bind_of_error hrun,
          EvalM.run_bind_of_error hchanged, and_self]

section

variable {functions : Functions} {accepts : Value → Prop}
  {machine now : Machine}

theorem Environment.assign_withFunctions (environment : Environment) (name : String)
    (value : Value) : (environment.withFunctions functions).assign name value =
      (environment.assign name value).map (withFunctions functions) := by
  have hscopes : (environment.withFunctions functions).scopes = environment.scopes := rfl
  rw [assign, assign, hscopes]
  cases environment.scopes.find? name with
  | none => rfl
  | some binding =>
      dsimp only
      split <;> rfl

namespace EvalM.Commutes

variable {α : Type}

theorem ofExcept (result : Except RuntimeError α) (machine : Machine) :
    (EvalM.ofExcept result).Commutes (Machine.withFunctions functions) machine := by
  cases result <;> exact ⟨rfl, rfl⟩

theorem request (id : ObjectId) (use : Behaviour → HostM α) (machine : Machine) :
    (EvalM.request id use).Commutes (Machine.withFunctions functions) machine := by
  have hbehaviour : (machine.withFunctions functions).behaviour id = machine.behaviour id := rfl
  have hheap : (machine.withFunctions functions).heap = machine.heap := rfl
  simp only [Commutes, answer, after, run_request, hbehaviour, hheap]
  cases (use (machine.behaviour id)).run machine.heap <;> exact ⟨rfl, rfl⟩

theorem read (place : Place) (machine : Machine) :
    place.read.Commutes (Machine.withFunctions functions) machine := by
  cases place with
  | var name => exact ofExcept (machine.environment.lookup name) machine
  | declaration kind name => exact ⟨rfl, rfl⟩
  | property id name =>
      rw [Place.read]
      exact request id _ machine
  | element id index =>
      rw [Place.read]
      exact request id _ machine

theorem write (place : Place) (value : Value) (machine : Machine) :
    (place.write value).Commutes (Machine.withFunctions functions) machine := by
  cases place with
  | var name =>
      simp only [Commutes, answer, after, Place.run_write Place.isPlain_var, Place.stored,
        Machine.withFunctions, Environment.assign_withFunctions]
      cases machine.environment.assign name value <;> exact ⟨rfl, rfl⟩
  | declaration kind name => exact ⟨rfl, rfl⟩
  | property id name =>
      rw [Place.write]
      exact request id _ machine
  | element id index =>
      rw [Place.write]
      exact request id _ machine

theorem callFunction {name : String} {values : List Value}
    (hvalues : ∀ value ∈ values, accepts value)
    (hfunctions : Option.Rel (HostFunction.Agrees accepts) (machine.environment.function? name)
      functions[name]?) :
    (callFunction name values).Commutes (Machine.withFunctions functions) machine := by
  have hother : (machine.withFunctions functions).environment.function? name = functions[name]? :=
    rfl
  simp only [Commutes, answer, after, run_callFunction, hother]
  generalize machine.environment.function? name = function?, functions[name]? = other?
    at hfunctions ⊢
  cases hfunctions with
  | none => exact ⟨rfl, rfl⟩
  | @some function other hagrees =>
      simp only [run_host, hagrees values hvalues, Machine.withFunctions]
      cases (other.invoke values).run machine.heap <;> exact ⟨rfl, rfl⟩

end EvalM.Commutes

namespace Expr

variable {mode : LogicMode} {expr : Expr} {names : Set String}

theorem Performs.commutes {start : Machine} {α : Type} {x : EvalM α} {answer : α → Prop}
    (h : Performs mode accepts expr start now x answer)
    (hfollows : expr.Follows accepts now.environment.functions functions) :
    x.Commutes (Machine.withFunctions functions) now := by
  cases h with
  | find _ => exact .ofExcept _ now
  | read _ _ => exact .read _ now
  | readTarget _ _ _ => exact .read _ now
  | write _ _ _ _ => exact .write _ _ now
  | @call name arguments _ _ values hvalues =>
      exact .callFunction hvalues (hfollows name arguments (.refl _))
  | method _ _ => exact .request _ _ now

/-- Where other functions answer the same to what an evaluation can hand to them, it answers the
same with them and leaves the same. -/
theorem commutes_evaluate (mode : LogicMode)
    (hclosed : expr.Closes accepts machine.environment)
    (hnames : ∀ name, expr.Contains (.var name) → name ∈ names)
    (hfollows : expr.Follows accepts machine.environment.functions functions)
    (h : machine.Confines accepts names machine) :
    (expr.evaluate mode).Commutes (Machine.withFunctions functions) machine := by
  have hcovers : (Judgement.commuting (Machine.withFunctions functions)
      (machine.Confines accepts names)).Covers mode accepts expr machine := by
    intro inner start now α x answer hvisits hperforms
    refine ⟨hclosed.covers hnames mode hvisits hperforms, fun hnow => hperforms.commutes ?_⟩
    intro name arguments hcall
    rw [hnow.functions_eq]
    exact hfollows name arguments (hvisits.contains.trans hcall)
  exact (Judgement.holds_evaluate expr hcovers).2 h

end Expr

end

end ExprLang
