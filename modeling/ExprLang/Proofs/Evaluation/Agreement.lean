import Mathlib.Data.Set.Basic
import ExprLang.Proofs.Evaluation.Judgement

/-!
# What an evaluation depends on

An evaluation sees the environment only through the names in its expression: what each of them means
by then, and not which scope it comes from or how many scopes there are.
-/

namespace ExprLang

namespace Environment

variable {environment next : Environment} {name : String} {value : Value}

theorem find?_declare (environment : Environment) (name other : String) (kind : DeclarationKind)
    (value : Option Value) :
    (environment.declare name kind value).scopes.find? other =
      if name = other then some ⟨kind, value⟩ else environment.scopes.find? other :=
  Scopes.find?_insert name other ⟨kind, value⟩ environment.scopes

/-- After an assignment the name means the value, and a binding that it had keeps its kind. -/
theorem find?_of_assign (h : environment.assign name value = .ok next) (other : String) :
    next.scopes.find? other =
      if name = other then
        some ⟨((environment.scopes.find? name).map Binding.kind).getD .let, some value⟩
      else environment.scopes.find? other := by
  rw [assign] at h
  split at h
  next binding hfind =>
    split at h <;> cases h
    rw [hfind]
    exact Scopes.find?_update name other _ environment.scopes
  next hfind =>
    cases h
    rw [hfind]
    exact find?_declare environment name other .let (some value)

theorem function?_of_assign (h : environment.assign name value = .ok next) (other : String) :
    next.function? other = environment.function? other := by
  rw [assign] at h
  split at h
  next =>
    split at h <;> cases h
    rfl
  next =>
    cases h
    rfl

end Environment

/-- Two machines have the same objects, which behave alike, and the names mean the same bindings and
functions. -/
structure Machine.Agrees (names functions : Set String) (first second : Machine) : Prop where
  heap_eq : first.heap = second.heap
  behaviours_eq : first.behaviours = second.behaviours
  find?_eq : ∀ name ∈ names,
    first.environment.scopes.find? name = second.environment.scopes.find? name
  function?_eq : ∀ name ∈ functions,
    first.environment.function? name = second.environment.function? name

/-- An evaluation answers the same on two machines and leaves machines that agree. -/
def EvalM.Agrees {α : Type} (names functions : Set String) (x : EvalM α)
    (first second : Machine) : Prop :=
  x.answer first = x.answer second ∧ (x.after first).Agrees names functions (x.after second)

/-! ## Steps -/

namespace Machine.Agrees

variable {names functions : Set String} {first second : Machine} {name : String}
  {place : Place}

theorem setHeap (h : first.Agrees names functions second) (heap : Heap) :
    ({ first with heap } : Machine).Agrees names functions { second with heap } :=
  ⟨rfl, h.behaviours_eq, h.find?_eq, h.function?_eq⟩

theorem declare (h : first.Agrees names functions second) (name : String)
    (kind : DeclarationKind) (value : Option Value) :
    ({ first with environment := first.environment.declare name kind value } : Machine).Agrees
      names functions
      { second with environment := second.environment.declare name kind value } where
  heap_eq := h.heap_eq
  behaviours_eq := h.behaviours_eq
  find?_eq other hother := by
    rw [Environment.find?_declare, Environment.find?_declare, h.find?_eq other hother]
  function?_eq := h.function?_eq

theorem assign {value : Value} {next other : Environment}
    (h : first.Agrees names functions second) (hname : name ∈ names)
    (hnext : first.environment.assign name value = .ok next)
    (hother : second.environment.assign name value = .ok other) :
    ({ first with environment := next } : Machine).Agrees names functions
      { second with environment := other } where
  heap_eq := h.heap_eq
  behaviours_eq := h.behaviours_eq
  find?_eq visible hvisible := by
    rw [Environment.find?_of_assign hnext, Environment.find?_of_assign hother,
      h.find?_eq name hname, h.find?_eq visible hvisible]
  function?_eq function hfunction := by
    rw [Environment.function?_of_assign hnext, Environment.function?_of_assign hother]
    exact h.function?_eq function hfunction

theorem assign_error_iff {value : Value} {error : RuntimeError}
    (h : first.Agrees names functions second) (hname : name ∈ names) :
    first.environment.assign name value = .error error ↔
      second.environment.assign name value = .error error := by
  rw [Environment.assign_eq_error_iff, Environment.assign_eq_error_iff, h.find?_eq name hname]

theorem ofExcept {α : Type} (h : first.Agrees names functions second)
    (result : Except RuntimeError α) :
    (EvalM.ofExcept result).Agrees names functions first second := by
  simpa [EvalM.Agrees] using h

theorem request {α : Type} (h : first.Agrees names functions second) (id : ObjectId)
    (use : Behaviour → HostM α) :
    (EvalM.request id use).Agrees names functions first second := by
  have hbehaviour : first.behaviour id = second.behaviour id := by
    rw [Machine.behaviour, Machine.behaviour, h.heap_eq, h.behaviours_eq]
  simp only [EvalM.Agrees, EvalM.answer, EvalM.after, EvalM.run_request, h.heap_eq, hbehaviour]
  cases (use (second.behaviour id)).run second.heap with
  | error error heap => exact ⟨rfl, h.setHeap heap⟩
  | ok a heap => exact ⟨rfl, h.setHeap heap⟩

theorem read (h : first.Agrees names functions second)
    (hplace : ∀ name, place = .var name → name ∈ names) :
    place.read.Agrees names functions first second := by
  cases place with
  | var name =>
      have hread (machine : Machine) : (Place.var name).read.run machine =
          (EvalM.ofExcept (machine.environment.lookup name)).run machine := rfl
      have hlookup : first.environment.lookup name = second.environment.lookup name := by
        rw [Environment.lookup, Environment.lookup, h.find?_eq name (hplace name rfl)]
      have hofExcept := h.ofExcept (second.environment.lookup name)
      simp only [EvalM.Agrees, EvalM.answer, EvalM.after] at hofExcept ⊢
      rwa [hread, hread, hlookup]
  | declaration kind name => exact ⟨rfl, h⟩
  | property id name =>
      rw [Place.read]
      exact h.request id _
  | element id index =>
      rw [Place.read]
      exact h.request id _

theorem write (h : first.Agrees names functions second)
    (hplace : ∀ name, place = .var name → name ∈ names) (value : Value) :
    (place.write value).Agrees names functions first second := by
  cases place with
  | var name =>
      have hname := hplace name rfl
      simp only [EvalM.Agrees, EvalM.answer, EvalM.after, Place.run_write Place.isPlain_var,
        Place.stored]
      cases hnext : first.environment.assign name value with
      | error error =>
          rw [(h.assign_error_iff hname).mp hnext]
          exact ⟨rfl, h⟩
      | ok next =>
          cases hother : second.environment.assign name value with
          | error error => cases ((h.assign_error_iff hname).mpr hother).symm.trans hnext
          | ok other => exact ⟨rfl, h.assign hname hnext hother⟩
  | declaration kind name => exact ⟨rfl, h.declare name kind (some value)⟩
  | property id name =>
      rw [Place.write]
      exact h.request id _
  | element id index =>
      rw [Place.write]
      exact h.request id _

theorem callFunction (h : first.Agrees names functions second) (hname : name ∈ functions)
    (values : List Value) :
    (callFunction name values).Agrees names functions first second := by
  simp only [EvalM.Agrees, EvalM.answer, EvalM.after, run_callFunction,
    h.function?_eq name hname]
  cases second.environment.function? name with
  | none => exact ⟨rfl, h⟩
  | some function =>
      simp only [EvalM.run_host, h.heap_eq]
      cases (function.invoke values).run second.heap with
      | error error heap => exact ⟨rfl, h.setHeap heap⟩
      | ok value heap => exact ⟨rfl, h.setHeap heap⟩

end Machine.Agrees

/-! ## Whole evaluations -/

/-- An evaluation agrees on a machine and on every machine that agrees with it. -/
def Judgement.agreeing (names functions : Set String) : Judgement where
  Holds machine x answer := ∀ other, machine.Agrees names functions other →
    x.Agrees names functions machine other ∧ ∀ a next, x.run machine = .ok a next → answer a
  pure hanswer other hagrees := by
    refine ⟨⟨rfl, hagrees⟩, ?_⟩
    rintro a next ⟨⟩
    exact hanswer
  bind {α β machine x rest middle answer} hx hrest other hagrees := by
    obtain ⟨⟨hsame, hafter⟩, hmiddle⟩ := hx other hagrees
    cases hrun : x.run machine with
    | ok a next =>
        rw [EvalM.answer_of_ok hrun] at hsame
        have hother := EvalM.run_eq_ok hsame.symm
        rw [EvalM.after_of_ok hrun] at hafter
        simp only [EvalM.Agrees, EvalM.answer, EvalM.after, EvalM.run_bind_of_ok hrun,
          EvalM.run_bind_of_ok hother]
        exact hrest a next hrun (hmiddle a next hrun) _ hafter
    | error error next =>
        rw [EvalM.answer_of_error hrun] at hsame
        have hother := EvalM.run_eq_error hsame.symm
        rw [EvalM.after_of_error hrun] at hafter
        simp only [EvalM.Agrees, EvalM.answer, EvalM.after, EvalM.run_bind_of_error hrun,
          EvalM.run_bind_of_error hother]
        exact ⟨⟨trivial, hafter⟩, nofun⟩

namespace Expr

/-- The variables that an expression reads, writes or declares somewhere. -/
def variableNames (expr : Expr) : Set String :=
  {name | expr.Contains (.var name) ∨ ∃ kind, expr.Contains (.declaration kind name)}

/-- The functions that an expression calls somewhere. -/
def functionNames (expr : Expr) : Set String :=
  {name | ∃ arguments, expr.Contains (.call name arguments)}

variable {mode : LogicMode} {accepts : Value → Prop} {expr inner : Expr}
  {names functions : Set String}

theorem Contains.variableNames_subset (h : expr.Contains inner) :
    inner.variableNames ⊆ expr.variableNames := by
  rintro name (hvar | ⟨kind, hdeclaration⟩)
  · exact .inl (h.trans hvar)
  · exact .inr ⟨kind, h.trans hdeclaration⟩

theorem Contains.functionNames_subset (h : expr.Contains inner) :
    inner.functionNames ⊆ expr.functionNames := by
  rintro name ⟨arguments, hcall⟩
  exact ⟨arguments, h.trans hcall⟩

theorem Denotes.mem_variableNames {name : String} (h : expr.Denotes accepts (.var name)) :
    name ∈ expr.variableNames := by
  cases h
  exact .inl (.refl _)

/-- A step that an expression takes agrees on machines that agree on its names. -/
theorem Performs.agrees {start now other : Machine} {α : Type} {x : EvalM α} {answer : α → Prop}
    (h : Performs mode accepts expr start now x answer) (hnames : expr.variableNames ⊆ names)
    (hfunctions : expr.functionNames ⊆ functions) (hagrees : now.Agrees names functions other) :
    x.Agrees names functions now other := by
  have htargetName {target : Expr} {place : Place} (htarget : expr.target? = some target)
      (hplace : target.Denotes accepts place) (name : String) (hname : place = .var name) :
      name ∈ names := by
    subst hname
    have htargetIn := Contains.of_mem (mem_operands_of_target? htarget)
    exact hnames (htargetIn.variableNames_subset hplace.mem_variableNames)
  cases h with
  | find _ => exact hagrees.ofExcept _
  | read _ hplace =>
      refine hagrees.read ?_
      rintro name rfl
      exact hnames hplace.mem_variableNames
  | readTarget htarget _ hplace => exact hagrees.read (htargetName htarget hplace)
  | write htarget hplace _ _ => exact hagrees.write (htargetName htarget hplace) _
  | @call _ arguments _ _ _ _ => exact hagrees.callFunction (hfunctions ⟨arguments, .refl _⟩) _
  | method _ _ => exact hagrees.request _ _

/-- On two machines with the same objects that agree on the names in an expression, its evaluation
answers the same and leaves the same objects, and the names have the same meaning again. The scopes
around may be others. -/
theorem agrees_evaluate (mode : LogicMode) {first second : Machine}
    (hnames : expr.variableNames ⊆ names) (hfunctions : expr.functionNames ⊆ functions)
    (h : first.Agrees names functions second) :
    (expr.evaluate mode).answer first = (expr.evaluate mode).answer second ∧
      ((expr.evaluate mode).after first).Agrees names functions
        ((expr.evaluate mode).after second) := by
  have hcovers : (Judgement.agreeing names functions).Covers mode (fun _ => True) expr first := by
    intro inner start now α x answer hvisits hperforms other hagrees
    have hinner := hvisits.contains
    exact ⟨hperforms.agrees (hinner.variableNames_subset.trans hnames)
        (hinner.functionNames_subset.trans hfunctions) hagrees,
      fun a next hrun => hperforms.answer hrun⟩
  exact (Judgement.holds_evaluate expr hcovers second h).1

/-- A name in an inner scope that hides a constant, and the same name in the global scope. -/
theorem agrees_evaluate_shadowed :
    let first := Machine.ofEnvironment
      ((Environment.empty.declare "x" .const (some (.int 5))).pushScope.define "x" (.int 1))
    let second := Machine.ofEnvironment (Environment.empty.define "x" (.int 1))
    let expr : Expr := .assignment .add (.var "x") (.constant .int "1")
    first.Agrees Set.univ Set.univ second ∧
      (expr.evaluate .eager).answer first = (expr.evaluate .eager).answer second ∧
      ((expr.evaluate .eager).after first).Agrees Set.univ Set.univ
        ((expr.evaluate .eager).after second) := by
  intro first second expr
  have hagrees : first.Agrees Set.univ Set.univ second := by
    refine ⟨rfl, rfl, fun name _ => ?_, fun name _ => rfl⟩
    simp only [first, second, Machine.ofEnvironment, Environment.define,
      Environment.find?_declare]
    split
    next => rfl
    next hne =>
      simp [Environment.pushScope, Environment.declare, Environment.empty, Scopes.insert,
        Scopes.find?, hne]
  exact ⟨hagrees, agrees_evaluate .eager (Set.subset_univ _) (Set.subset_univ _) hagrees⟩

end Expr

end ExprLang
