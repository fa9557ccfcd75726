import ExprLang.Proofs.Environment.Requests
import ExprLang.Proofs.Evaluation.Agreement

/-!
# Assignments and the bindings that are read

Reading a name goes outwards through the scopes to the first one that binds it. An assignment goes
to the same scope and changes the value there, whether or not there was one before; only a constant
with a value keeps it. A name that no scope binds is bound in the innermost scope of all.
-/

namespace ExprLang

namespace Scopes

/-- The scopes from the innermost one outwards. -/
def toList : Scopes → List Scope
  | global scope => [scope]
  | inner scope outer => scope :: outer.toList

/-- The innermost scope that binds a name, between the scopes inside it and those around it. -/
structure Visible (scopes : Scopes) (name : String) (inside : List Scope) (scope : Scope)
    (around : List Scope) (binding : Binding) : Prop where
  toList_eq : scopes.toList = inside ++ scope :: around
  hidden : ∀ other ∈ inside, other[name]? = none
  bound : scope[name]? = some binding

/-- Whether no scope binds a name. -/
def Lacks (scopes : Scopes) (name : String) : Prop :=
  ∀ scope ∈ scopes.toList, scope[name]? = none

variable {scopes : Scopes} {name : String} {inside around : List Scope} {scope : Scope}
  {binding : Binding}

theorem find?_eq_findSome? (scopes : Scopes) (name : String) :
    scopes.find? name = scopes.toList.findSome? (·[name]?) := by
  induction scopes with
  | global scope =>
      rw [find?, toList, List.findSome?_cons]
      cases scope[name]? <;> rfl
  | inner scope outer ih =>
      rw [find?, toList, List.findSome?_cons, ih]
      cases scope[name]? <;> rfl

theorem find?_eq_some_iff : scopes.find? name = some binding ↔
    ∃ inside scope around, scopes.Visible name inside scope around binding := by
  rw [find?_eq_findSome?, List.findSome?_eq_some_iff]
  constructor
  · rintro ⟨inside, scope, around, hsplit, hbound, hhidden⟩
    exact ⟨inside, scope, around, hsplit, hhidden, hbound⟩
  · rintro ⟨inside, scope, around, hsplit, hhidden, hbound⟩
    exact ⟨inside, scope, around, hsplit, hbound, hhidden⟩

theorem find?_eq_none_iff_lacks : scopes.find? name = none ↔ scopes.Lacks name := by
  rw [find?_eq_findSome?, List.findSome?_eq_none_iff, Lacks]

/-- A declaration goes into the innermost scope. -/
theorem exists_toList_insert (scopes : Scopes) (name : String) (binding : Binding) :
    ∃ scope around, scopes.toList = scope :: around ∧
      (scopes.insert name binding).toList = scope.insert name binding :: around := by
  cases scopes with
  | global scope => exact ⟨scope, [], rfl, rfl⟩
  | inner scope outer => exact ⟨scope, outer.toList, rfl, rfl⟩

/-- An update goes into the innermost scope that binds the name. -/
theorem Visible.toList_update (h : scopes.Visible name inside scope around binding)
    (new : Binding) :
    (scopes.update name new).toList = inside ++ scope.insert name new :: around := by
  obtain ⟨hsplit, hhidden, hbound⟩ := h
  induction scopes generalizing inside with
  | global only =>
      obtain ⟨rfl, hrest⟩ | ⟨-, hrest⟩ := List.singleton_eq_append_iff.mp hsplit
      · obtain ⟨rfl, rfl⟩ := List.cons.inj hrest
        rfl
      · cases hrest
  | inner first outer ih =>
      cases inside with
      | nil =>
          obtain ⟨rfl, rfl⟩ := List.cons.inj hsplit
          have hmem : first.contains name = true := by
            rw [Std.ExtTreeMap.contains_eq_isSome_getElem?, hbound]
            rfl
          rw [update, if_pos hmem]
          rfl
      | cons other inside =>
          obtain ⟨rfl, hrest⟩ := List.cons.inj hsplit
          obtain ⟨hnone, hothers⟩ := List.forall_mem_cons.mp hhidden
          have hmem : ¬ first.contains name = true := by
            rw [Std.ExtTreeMap.contains_eq_isSome_getElem?, hnone]
            exact Bool.false_ne_true
          rw [update, if_neg hmem, toList, ih hrest hothers]
          rfl

end Scopes

namespace Environment

variable {environment next : Environment} {name : String} {value : Value}

theorem lookup_eq (environment : Environment) (name : String) :
    environment.lookup name =
      (environment.scopes.find? name).elim (.error (.unknownVariable name)) fun binding =>
        binding.value.elim (.error (.uninitialized name)) .ok := by
  rw [lookup]
  cases environment.scopes.find? name with
  | none => rfl
  | some binding =>
      obtain ⟨kind, value⟩ := binding
      cases value <;> rfl

theorem get?_eq (environment : Environment) (name : String) :
    environment.get? name = (environment.scopes.find? name).bind Binding.value :=
  rfl

/-- An assignment to a name with a binding updates it, unless it is a constant with a value. -/
theorem assign_of_find? {binding : Binding} (hfind : environment.scopes.find? name = some binding)
    (hfixed : binding.isFixed = false) (value : Value) :
    environment.assign name value = .ok { environment with
      scopes := environment.scopes.update name { binding with value := some value } } := by
  rw [assign, hfind]
  simp only [hfixed, Bool.false_eq_true, if_false]

/-- An assignment to a name without a binding defines it. -/
theorem assign_of_lacks (h : environment.scopes.Lacks name) (value : Value) :
    environment.assign name value = .ok (environment.define name value) := by
  rw [assign, Scopes.find?_eq_none_iff_lacks.mpr h]

/-- What an assignment does to the bindings that are read. -/
structure AssignsVisible (environment : Environment) (name : String) (value : Value) : Prop where
  /-- What is read is the innermost binding. -/
  read : ∀ inside scope around binding,
    environment.scopes.Visible name inside scope around binding →
      environment.get? name = binding.value ∧
        environment.lookup name = binding.value.elim (.error (.uninitialized name)) .ok
  refused_iff : (∃ error, environment.assign name value = .error error) ↔
    ∃ inside scope around constant,
      environment.scopes.Visible name inside scope around ⟨.const, some constant⟩
  /-- A refusal changes nothing, whoever asks for the assignment. -/
  refusal : ∀ error, environment.assign name value = .error error →
    error = .constantReassignment name ∧
      ∀ machine : Machine, machine.environment = environment →
        machine.perform (.assign name value) = machine ∧
          ((Place.var name).write value).run machine = .error error machine
  written : ∀ next, environment.assign name value = .ok next →
    next.lookup name = .ok value ∧ next.get? name = some value
  others : ∀ next, environment.assign name value = .ok next → ∀ other, other ≠ name →
    next.lookup other = environment.lookup other ∧ next.get? other = environment.get? other
  functions_eq : ∀ next, environment.assign name value = .ok next →
    next.functions = environment.functions
  /-- Only the scope of the innermost binding changes, and that binding keeps its kind. -/
  visible : ∀ next, environment.assign name value = .ok next → ∀ inside scope around binding,
    environment.scopes.Visible name inside scope around binding →
      next.scopes.toList =
        inside ++ scope.insert name { binding with value := some value } :: around
  /-- A binding without a value takes it, whatever the bindings are that it hides. -/
  uninitialized : ∀ inside scope around kind,
    environment.scopes.Visible name inside scope around ⟨kind, none⟩ →
      ∃ next, environment.assign name value = .ok next ∧
        next.scopes.toList = inside ++ scope.insert name ⟨kind, some value⟩ :: around
  /-- A name that is bound nowhere is bound in the innermost scope. -/
  lacking : environment.scopes.Lacks name → ∃ next scope around,
    environment.assign name value = .ok next ∧ environment.scopes.toList = scope :: around ∧
      next.scopes.toList = scope.insert name ⟨.let, some value⟩ :: around
  visible_or_lacks : environment.scopes.Lacks name ∨ ∃ inside scope around binding,
    environment.scopes.Visible name inside scope around binding

/-- An assignment that is refused leaves the machine as it is. -/
theorem unchanged_of_assign {machine : Machine} {error : RuntimeError}
    (h : machine.environment.assign name value = .error error) :
    machine.perform (.assign name value) = machine ∧
      ((Place.var name).write value).run machine = .error error machine := by
  rw [Machine.perform, Place.run_write Place.isPlain_var, Place.stored, h]
  exact ⟨rfl, rfl⟩

/-- An assignment that succeeds updates the innermost binding of the name. -/
theorem toList_of_assign (h : environment.assign name value = .ok next) {inside around : List Scope}
    {scope : Scope} {binding : Binding}
    (hvisible : environment.scopes.Visible name inside scope around binding) :
    next.scopes.toList =
      inside ++ scope.insert name { binding with value := some value } :: around := by
  have hfind := Scopes.find?_eq_some_iff.mpr ⟨inside, scope, around, hvisible⟩
  cases hfixed : binding.isFixed with
  | false =>
      rw [assign_of_find? hfind hfixed] at h
      cases h
      exact hvisible.toList_update _
  | true =>
      obtain ⟨constant, rfl⟩ := Binding.isFixed_iff.mp hfixed
      cases h.symm.trans (assign_eq_error_iff.mpr ⟨rfl, constant, hfind⟩)

/-- An assignment changes the binding that is read, and nothing else. -/
theorem assigns_visible (environment : Environment) (name : String) (value : Value) :
    environment.AssignsVisible name value where
  read inside scope around binding hvisible := by
    rw [get?_eq, lookup_eq, Scopes.find?_eq_some_iff.mpr ⟨inside, scope, around, hvisible⟩]
    exact ⟨rfl, rfl⟩
  refused_iff := by
    constructor
    · rintro ⟨error, herror⟩
      obtain ⟨-, constant, hfind⟩ := assign_eq_error_iff.mp herror
      obtain ⟨inside, scope, around, hvisible⟩ := Scopes.find?_eq_some_iff.mp hfind
      exact ⟨inside, scope, around, constant, hvisible⟩
    · rintro ⟨inside, scope, around, constant, hvisible⟩
      have hfind := Scopes.find?_eq_some_iff.mpr ⟨inside, scope, around, hvisible⟩
      exact ⟨_, assign_eq_error_iff.mpr ⟨rfl, constant, hfind⟩⟩
  refusal error herror := by
    refine ⟨(assign_eq_error_iff.mp herror).1, ?_⟩
    rintro machine rfl
    exact unchanged_of_assign herror
  written next hassign := by
    rw [get?_eq, lookup_eq, find?_of_assign hassign, if_pos rfl]
    exact ⟨rfl, rfl⟩
  others next hassign other hne := by
    rw [get?_eq, get?_eq, lookup_eq, lookup_eq, find?_of_assign hassign, if_neg hne.symm]
    exact ⟨rfl, rfl⟩
  functions_eq next hassign := by
    rcases puts_of_assign hassign with ⟨_, _, -, -, -, hputs⟩ | ⟨-, hputs⟩ <;>
      exact hputs.functions_eq
  visible next hassign inside scope around binding := toList_of_assign hassign
  uninitialized inside scope around kind hvisible := by
    have hfind := Scopes.find?_eq_some_iff.mpr ⟨inside, scope, around, hvisible⟩
    have hfixed : (Binding.mk kind none).isFixed = false := Bool.and_false _
    exact ⟨_, assign_of_find? hfind hfixed value, hvisible.toList_update _⟩
  lacking hlacks := by
    obtain ⟨scope, around, hsplit, hinsert⟩ :=
      Scopes.exists_toList_insert environment.scopes name ⟨.let, some value⟩
    exact ⟨_, scope, around, assign_of_lacks hlacks value, hsplit, hinsert⟩
  visible_or_lacks := by
    cases hfind : environment.scopes.find? name with
    | none => exact .inl (Scopes.find?_eq_none_iff_lacks.mp hfind)
    | some binding =>
        obtain ⟨inside, scope, around, hvisible⟩ := Scopes.find?_eq_some_iff.mp hfind
        exact .inr ⟨inside, scope, around, binding, hvisible⟩

end Environment

end ExprLang
