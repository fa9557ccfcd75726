import ExprLang.Evaluation.Environment

/-!
# Bindings by the depth of their scope

A binding is known by its name and by the depth of its scope, which is the number of scopes around
it and so does not change while other scopes are opened and left inside. A declaration puts a
binding into the innermost scope of all, and an assignment puts one where the name has its home;
neither changes anything else.
-/

namespace ExprLang

theorem Binding.isFixed_iff {binding : Binding} :
    binding.isFixed = true ↔ ∃ value, binding = ⟨.const, some value⟩ := by
  obtain ⟨kind, value⟩ := binding
  cases kind <;> cases value <;> simp [isFixed]

namespace Scopes

/-- The binding of a name in the scope at a depth. The global scope is at depth zero. -/
def bindingAt? (depth : Nat) (name : String) : Scopes → Option Binding
  | global scope => if depth = 0 then scope[name]? else none
  | inner scope outer =>
    if depth = outer.depth + 1 then scope[name]? else outer.bindingAt? depth name

/-- The depth of the scope whose binding a name means. -/
def home? (name : String) : Scopes → Option Nat
  | global scope => if scope.contains name then some 0 else none
  | inner scope outer => if scope.contains name then some (outer.depth + 1) else outer.home? name

variable {scopes : Scopes} {name : String} {depth : Nat}

theorem bindingAt?_eq_none_of_lt (h : scopes.depth < depth) :
    scopes.bindingAt? depth name = none := by
  induction scopes with
  | global scope => exact if_neg (Nat.ne_of_gt h)
  | inner scope outer ih =>
      change outer.depth + 1 < depth at h
      rw [bindingAt?, if_neg (Nat.ne_of_gt h)]
      exact ih (Nat.lt_of_succ_lt h)

theorem home?_le (h : scopes.home? name = some depth) : depth ≤ scopes.depth := by
  induction scopes with
  | global scope =>
      rw [home?] at h
      split at h <;> cases h
      exact Nat.le_refl _
  | inner scope outer ih =>
      rw [home?] at h
      split at h
      next =>
        cases h
        exact Nat.le_refl _
      next => exact Nat.le_succ_of_le (ih h)

/-- A name means the binding in its home. -/
theorem exists_binding_of_home? (h : scopes.home? name = some depth) :
    ∃ binding, scopes.find? name = some binding ∧ scopes.bindingAt? depth name = some binding := by
  induction scopes with
  | global scope =>
      rw [home?, Std.ExtTreeMap.contains_eq_isSome_getElem?] at h
      split at h <;> cases h
      next hsome =>
        obtain ⟨binding, hbinding⟩ := Option.isSome_iff_exists.mp hsome
        exact ⟨binding, hbinding, hbinding⟩
  | inner scope outer ih =>
      rw [home?, Std.ExtTreeMap.contains_eq_isSome_getElem?] at h
      split at h
      next hsome =>
        cases h
        obtain ⟨binding, hbinding⟩ := Option.isSome_iff_exists.mp hsome
        exact ⟨binding, by rw [find?, hbinding], by rw [bindingAt?, if_pos rfl, hbinding]⟩
      next hnone =>
        obtain ⟨binding, hfind, hbinding⟩ := ih h
        have hlt := Nat.lt_succ_of_le (home?_le h)
        refine ⟨binding, ?_, ?_⟩
        · rw [find?, Option.not_isSome_iff_eq_none.mp hnone]
          exact hfind
        · rw [bindingAt?, if_neg (Nat.ne_of_lt hlt)]
          exact hbinding

/-- A name without a home is bound nowhere. -/
theorem eq_none_of_home? (h : scopes.home? name = none) :
    scopes.find? name = none ∧ ∀ depth, scopes.bindingAt? depth name = none := by
  induction scopes with
  | global scope =>
      rw [home?, Std.ExtTreeMap.contains_eq_isSome_getElem?] at h
      split at h
      next => cases h
      next hnone =>
        have hscope := Option.not_isSome_iff_eq_none.mp hnone
        exact ⟨hscope, fun depth => by rw [bindingAt?, hscope, ite_self]⟩
  | inner scope outer ih =>
      rw [home?, Std.ExtTreeMap.contains_eq_isSome_getElem?] at h
      split at h
      next => cases h
      next hnone =>
        have hscope := Option.not_isSome_iff_eq_none.mp hnone
        obtain ⟨hfind, hbinding⟩ := ih h
        refine ⟨by rw [find?, hscope, hfind], fun depth => ?_⟩
        rw [bindingAt?, hscope, hbinding depth, ite_self]

/-- No scope inside the home of a name binds it. -/
theorem bindingAt?_eq_none_of_home?_lt {inner : Nat} (h : scopes.home? name = some depth)
    (hlt : depth < inner) : scopes.bindingAt? inner name = none := by
  induction scopes with
  | global scope => exact if_neg (Nat.ne_zero_of_lt hlt)
  | inner scope outer ih =>
      rw [home?, Std.ExtTreeMap.contains_eq_isSome_getElem?] at h
      split at h
      next =>
        cases h
        exact bindingAt?_eq_none_of_lt hlt
      next hnone =>
        rw [bindingAt?, Option.not_isSome_iff_eq_none.mp hnone, ih h, ite_self]

theorem home?_eq_some_iff : scopes.home? name = some depth ↔
    (scopes.bindingAt? depth name).isSome = true ∧
      ∀ inner, depth < inner → scopes.bindingAt? inner name = none := by
  constructor
  · intro h
    obtain ⟨binding, -, hbinding⟩ := exists_binding_of_home? h
    exact ⟨Option.isSome_of_eq_some hbinding, fun inner hlt =>
      bindingAt?_eq_none_of_home?_lt h hlt⟩
  · rintro ⟨hsome, hnone⟩
    cases hhome : scopes.home? name with
    | none => simp [(eq_none_of_home? hhome).2 depth] at hsome
    | some home =>
        obtain ⟨binding, -, hbinding⟩ := exists_binding_of_home? hhome
        rcases Nat.lt_trichotomy depth home with hlt | rfl | hlt
        · simp [hnone home hlt] at hbinding
        · rfl
        · simp [bindingAt?_eq_none_of_home?_lt hhome hlt] at hsome

/-- A name means nothing if no scope binds it. -/
theorem find?_eq_none_iff :
    scopes.find? name = none ↔ ∀ depth, scopes.bindingAt? depth name = none := by
  cases hhome : scopes.home? name with
  | none => simp [eq_none_of_home? hhome]
  | some home =>
      obtain ⟨binding, hfind, hbinding⟩ := exists_binding_of_home? hhome
      rw [hfind]
      exact ⟨nofun, fun hnone => by simp [hnone home] at hbinding⟩

theorem bindingAt?_insert (scopes : Scopes) (name other : String) (binding : Binding) :
    (scopes.insert name binding).bindingAt? depth other =
      if depth = scopes.depth ∧ name = other then some binding
      else scopes.bindingAt? depth other := by
  cases scopes with
  | global scope =>
      by_cases hdepth : depth = 0 <;>
        simp [insert, bindingAt?, Scopes.depth, hdepth, Std.ExtTreeMap.getElem?_insert]
  | inner scope outer =>
      by_cases hdepth : depth = outer.depth + 1 <;>
        simp [insert, bindingAt?, Scopes.depth, hdepth, Std.ExtTreeMap.getElem?_insert]

/-- An update puts the binding where the name has its home. -/
theorem bindingAt?_update {home : Nat} (h : scopes.home? name = some home) (other : String)
    (binding : Binding) :
    (scopes.update name binding).bindingAt? depth other =
      if depth = home ∧ name = other then some binding else scopes.bindingAt? depth other := by
  induction scopes with
  | global scope =>
      rw [home?] at h
      split at h <;> cases h
      exact bindingAt?_insert (.global scope) name other binding
  | inner scope outer ih =>
      rw [home?] at h
      rw [update]
      split at h
      next hmem =>
        cases h
        rw [if_pos hmem]
        exact bindingAt?_insert (.inner scope outer) name other binding
      next hmem =>
        have hle := home?_le h
        rw [if_neg hmem, bindingAt?, depth_update, bindingAt?]
        split
        next hdepth => rw [if_neg (by omega)]
        next => exact ih h

theorem bindingAt?_inner_empty (scopes : Scopes) (depth : Nat) (name : String) :
    (inner ∅ scopes).bindingAt? depth name = scopes.bindingAt? depth name := by
  rw [bindingAt?]
  split
  next hdepth =>
    have hlt : scopes.depth < depth := by omega
    rw [Std.ExtTreeMap.getElem?_empty, bindingAt?_eq_none_of_lt hlt]
  next => rfl

/-- Leaving the innermost scope forgets its bindings and no others. -/
theorem bindingAt?_pop (h : depth ≠ scopes.depth ∨ depth = 0) :
    scopes.pop.bindingAt? depth name = scopes.bindingAt? depth name := by
  cases scopes with
  | global scope => rfl
  | inner scope outer =>
      change depth ≠ outer.depth + 1 ∨ depth = 0 at h
      rw [pop, bindingAt?, if_neg (by omega)]

end Scopes

namespace Environment

/-- The number of scopes inside the global one. -/
def depth (environment : Environment) : Nat :=
  environment.scopes.depth

/-- The binding of a name in the scope at a depth. -/
def bindingAt? (environment : Environment) (depth : Nat) (name : String) : Option Binding :=
  environment.scopes.bindingAt? depth name

/-- One binding is put into the scope at a depth, and nothing else changes. -/
structure Puts (environment : Environment) (depth : Nat) (name : String) (binding : Binding)
    (next : Environment) : Prop where
  depth_eq : next.depth = environment.depth
  functions_eq : next.functions = environment.functions
  bindingAt?_eq : ∀ otherDepth other, next.bindingAt? otherDepth other =
    if otherDepth = depth ∧ name = other then some binding
    else environment.bindingAt? otherDepth other

variable {environment next : Environment} {name : String} {value : Value}

theorem puts_declare (environment : Environment) (name : String) (kind : DeclarationKind)
    (value : Option Value) :
    environment.Puts environment.depth name ⟨kind, value⟩
      (environment.declare name kind value) where
  depth_eq := Scopes.depth_insert name ⟨kind, value⟩ environment.scopes
  functions_eq := rfl
  bindingAt?_eq _ other := Scopes.bindingAt?_insert environment.scopes name other ⟨kind, value⟩

/-- An assignment that succeeds changes the value of the binding that the name means, which is no
constant with a value, or else makes a binding in the innermost scope. -/
theorem puts_of_assign (h : environment.assign name value = .ok next) :
    (∃ home binding, environment.scopes.home? name = some home ∧
        environment.bindingAt? home name = some binding ∧ binding.isFixed = false ∧
        environment.Puts home name { binding with value := some value } next) ∨
      environment.scopes.home? name = none ∧
        environment.Puts environment.depth name ⟨.let, some value⟩ next := by
  rw [assign] at h
  cases hhome : environment.scopes.home? name with
  | none =>
      rw [(Scopes.eq_none_of_home? hhome).1] at h
      cases h
      exact .inr ⟨rfl, puts_declare environment name .let (some value)⟩
  | some home =>
      obtain ⟨binding, hfind, hbinding⟩ := Scopes.exists_binding_of_home? hhome
      rw [hfind] at h
      dsimp only at h
      split at h
      next => cases h
      next hfixed =>
        cases h
        refine .inl ⟨home, binding, rfl, hbinding, Bool.eq_false_iff.mpr hfixed, ?_⟩
        exact ⟨Scopes.depth_update name _ environment.scopes, rfl, fun _ other =>
          Scopes.bindingAt?_update hhome other _⟩

theorem Puts.trans {middle : Environment} {depth : Nat} {binding binding' : Binding}
    (h : environment.Puts depth name binding middle) (h' : middle.Puts depth name binding' next) :
    environment.Puts depth name binding' next where
  depth_eq := h'.depth_eq.trans h.depth_eq
  functions_eq := h'.functions_eq.trans h.functions_eq
  bindingAt?_eq otherDepth other := by
    rw [h'.bindingAt?_eq, h.bindingAt?_eq]
    split <;> rfl

/-- A binding that no scope further inside hides is what its name means. -/
theorem Puts.home?_eq {depth : Nat} {binding : Binding}
    (h : environment.Puts depth name binding next)
    (hnone : ∀ inner, depth < inner → environment.bindingAt? inner name = none) :
    next.scopes.home? name = some depth := by
  refine Scopes.home?_eq_some_iff.mpr ⟨?_, fun inner hlt => ?_⟩
  · change (next.bindingAt? depth name).isSome = true
    rw [h.bindingAt?_eq, if_pos ⟨rfl, rfl⟩]
    rfl
  · change next.bindingAt? inner name = none
    rw [h.bindingAt?_eq, if_neg fun hsame => Nat.ne_of_gt hlt hsame.1]
    exact hnone inner hlt

/-- An assignment leaves the name its home, and gives it one in the innermost scope if it has none.
-/
theorem home?_of_assign (h : environment.assign name value = .ok next) :
    next.depth = environment.depth ∧
      next.scopes.home? name =
        some ((environment.scopes.home? name).getD environment.depth) := by
  rcases puts_of_assign h with ⟨home, binding, hhome, -, -, hputs⟩ | ⟨hhome, hputs⟩
  · rw [hhome]
    exact ⟨hputs.depth_eq, hputs.home?_eq fun _ hlt =>
      Scopes.bindingAt?_eq_none_of_home?_lt hhome hlt⟩
  · rw [hhome]
    exact ⟨hputs.depth_eq, hputs.home?_eq fun inner _ => (Scopes.eq_none_of_home? hhome).2 inner⟩

/-- A constant with a value refuses every assignment. -/
theorem assign_eq_error_iff {error : RuntimeError} :
    environment.assign name value = .error error ↔
      error = .constantReassignment name ∧
        ∃ constant, environment.scopes.find? name = some ⟨.const, some constant⟩ := by
  rw [assign]
  cases hfind : environment.scopes.find? name with
  | none => simp
  | some binding =>
      dsimp only
      split
      next hfixed =>
        obtain ⟨constant, rfl⟩ := Binding.isFixed_iff.mp hfixed
        simp [eq_comm]
      next hfixed =>
        have hne : ∀ constant, binding ≠ ⟨.const, some constant⟩ := fun constant heq =>
          hfixed (Binding.isFixed_iff.mpr ⟨constant, heq⟩)
        simp [hne]

end Environment

end ExprLang
