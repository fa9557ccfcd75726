import ExprLang.CommandLine.Outcome
import ExprLang.Proofs.Interchange.Alike
import Mathlib.Data.List.TakeWhile

/-!
# Outcomes of a call of eval

A call of `eval` gives it a file, definitions of names and the logic to use. It prints a value and
succeeds, or prints nothing and ends with a status that tells what was the matter first: the file or
a literal, the grammar of the file, its evaluation. Every literal is run by itself, so definitions
of different names can be given in any order.
-/

namespace ExprLang

/-! ## Calls -/

namespace Command

/-- A definition: a name that is not blank and has no equals sign, and a literal. -/
structure Definition where
  written : List Char
  literal : List Char
  not_blank : Text.trim written ≠ []
  no_equals : '=' ∉ written

namespace Definition

/-- The name, the equals sign and the literal. -/
def text (definition : Definition) : List Char :=
  definition.written ++ '=' :: definition.literal

/-- The name without the blanks around it, with the literal. -/
def binding (definition : Definition) : String × String :=
  (.ofList (Text.trim definition.written), .ofList definition.literal)

end Definition

theorem binding?_text (definition : Definition) :
    binding? definition.text = some definition.binding := by
  have hname : ∀ c ∈ definition.written, (c != '=') = true := fun c hmem => by
    rw [bne_iff_ne]
    rintro rfl
    exact definition.no_equals hmem
  rw [binding?, Definition.text, List.takeWhile_append_of_pos hname,
    List.dropWhile_append_of_pos hname]
  simp [Definition.binding, definition.not_blank]

/-- The texts that can be read as a binding are those of definitions. -/
theorem binding?_eq_some_iff {text : List Char} {binding : String × String} :
    binding? text = some binding ↔
      ∃ definition : Definition, definition.text = text ∧ definition.binding = binding := by
  constructor
  · intro h
    have htext : text.takeWhile (· != '=') ++ text.dropWhile (· != '=') = text :=
      List.takeWhile_append_dropWhile
    rw [binding?] at h
    split at h
    next literal hliteral =>
      split at h <;> cases h
      next hname =>
        refine ⟨⟨text.takeWhile (· != '='), literal, ?_, ?_⟩, ?_, rfl⟩
        · rwa [List.isEmpty_iff] at hname
        · intro hmem
          simpa using List.mem_takeWhile_imp hmem
        · rwa [hliteral] at htext
    next => cases h
  · rintro ⟨definition, rfl, rfl⟩
    exact binding?_text definition

/-- A call of `eval`: its file, its definitions and the logic that it asks for. -/
structure Call where
  file : String
  definitions : List Definition
  mode : LogicMode

namespace Call

/-- The names that the call defines, without blanks around them, and their literals. -/
def bindings (call : Call) : List (String × String) :=
  call.definitions.map Definition.binding

/-- The command that is asked for, if the definitions can be read. -/
def command? (call : Call) : Option Command :=
  eval? call.file (call.definitions.map Definition.text) call.mode

theorem command?_eq (call : Call) :
    call.command? = some (.eval call.file call.bindings call.mode) := by
  have hbindings (definitions : List Definition) :
      (definitions.map Definition.text).mapM binding? =
        some (definitions.map Definition.binding) := by
    induction definitions with
    | nil => rfl
    | cons definition rest ih =>
        rw [List.map_cons, List.mapM_cons, binding?_text, ih]
        rfl
  rw [command?, eval?, hbindings]
  rfl

end Call

end Command

/-! ## Bindings -/

/-- The value of a literal, which is run where no name is bound and no function known. -/
def literalValue? (literal : String) : Option Value :=
  match (run .eager literal).run .empty with
  | .ok value _ => some value
  | .error .. => none

/-- One environment is another with some names bound to the values of literals in its global scope,
which is the only one. The last literal of a name counts, and its binding can be changed. -/
structure Environment.Binds (bindings : List (String × String)) (environment next : Environment) :
    Prop where
  functions_eq : next.functions = environment.functions
  exists_scope : ∃ scope : Scope, next.scopes = .global scope ∧ ∀ name, scope[name]? =
    match bindings.reverse.lookup name with
    | some literal => (literalValue? literal).map fun value => ⟨.let, some value⟩
    | none => environment.scopes.find? name

namespace Environment

variable {bindings : List (String × String)} {environment next other : Environment}

namespace Binds

theorem unique (hnext : environment.Binds bindings next)
    (hother : environment.Binds bindings other) : next = other := by
  obtain ⟨scope, hscope, hnames⟩ := hnext.exists_scope
  obtain ⟨last, hlast, hothers⟩ := hother.exists_scope
  have heq : scope = last := Std.ExtTreeMap.ext_getElem? fun name => by rw [hnames, hothers]
  obtain ⟨scopes, functions⟩ := next
  obtain rfl : scopes = _ := hscope
  obtain rfl : functions = _ := hnext.functions_eq
  obtain ⟨scopes, functions⟩ := other
  obtain rfl : scopes = _ := hlast
  obtain rfl : functions = _ := hother.functions_eq
  rw [heq]

theorem nil {scope : Scope} (h : environment.scopes = .global scope) :
    environment.Binds [] environment :=
  ⟨rfl, scope, h, fun _ => by rw [h]; rfl⟩

/-- The first binding is hidden by a later one of its name. -/
theorem cons {name literal : String} {value : Value} (hvalue : literalValue? literal = some value)
    (h : (environment.define name value).Binds bindings next) :
    environment.Binds ((name, literal) :: bindings) next := by
  obtain ⟨scope, hscope, hnames⟩ := h.exists_scope
  refine ⟨h.functions_eq, scope, hscope, fun other => ?_⟩
  rw [hnames, List.reverse_cons, List.lookup_append]
  cases hlater : bindings.reverse.lookup other with
  | some later => rfl
  | none =>
      change (environment.scopes.insert name ⟨.let, some value⟩).find? other = _
      rw [Scopes.find?_insert]
      by_cases hname : name = other
      · subst hname
        simp [hvalue]
      · simp [hname, Ne.symm hname]

/-- The bindings can be put in any order if their names differ. -/
theorem of_perm {reordered : List (String × String)} (h : environment.Binds bindings next)
    (hperm : bindings.Perm reordered) (hnames : (bindings.map Prod.fst).Nodup) :
    environment.Binds reordered next := by
  obtain ⟨scope, hscope, hscope_names⟩ := h.exists_scope
  refine ⟨h.functions_eq, scope, hscope, fun name => ?_⟩
  have hlookup : bindings.reverse.lookup name = reordered.reverse.lookup name := by
    refine lookup_eq_of_perm ?_ ?_
    · exact ((List.reverse_perm bindings).map Prod.fst).nodup_iff.mpr hnames
    · exact (List.reverse_perm _).trans (hperm.trans (List.reverse_perm _).symm)
  rw [hscope_names, hlookup]

end Binds

end Environment

/-! ## Outcomes -/

namespace Command

variable {bindings : List (String × String)} {environment next : Environment}

theorem bind?_cons (name literal : String) (rest : List (String × String))
    (environment : Environment) :
    bind? ((name, literal) :: rest) environment =
      (literalValue? literal).bind fun value => bind? rest (environment.define name value) := by
  rw [bind?, literalValue?]
  cases (run .eager literal).run .empty <;> rfl

theorem bind?_eq_none_iff :
    bind? bindings environment = none ↔
      ∃ binding ∈ bindings, literalValue? binding.2 = none := by
  induction bindings generalizing environment with
  | nil => simp [bind?]
  | cons binding rest ih =>
      rw [bind?_cons, List.exists_mem_cons_iff]
      cases hvalue : literalValue? binding.2 with
      | none => simp
      | some value => simp [ih]

theorem exists_bind?_eq_some (h : ∀ binding ∈ bindings, literalValue? binding.2 ≠ none) :
    ∃ next, bind? bindings environment = some next := by
  refine Option.ne_none_iff_exists'.mp fun hnone => ?_
  obtain ⟨binding, hmem, hvalue⟩ := bind?_eq_none_iff.mp hnone
  exact h binding hmem hvalue

theorem binds_of_bind? {scope : Scope} (hscope : environment.scopes = .global scope)
    (h : bind? bindings environment = some next) : environment.Binds bindings next := by
  induction bindings generalizing environment scope with
  | nil =>
      cases h
      exact .nil hscope
  | cons binding rest ih =>
      rw [bind?_cons] at h
      obtain ⟨value, hvalue, h⟩ := Option.bind_eq_some_iff.mp h
      have hdefine : (environment.define binding.1 value).scopes =
          .global (scope.insert binding.1 ⟨.let, some value⟩) := by
        change environment.scopes.insert binding.1 ⟨.let, some value⟩ = _
        rw [hscope]
        rfl
      exact .cons hvalue (ih hdefine h)

theorem bind?_eq_some_iff {scope : Scope} (hscope : environment.scopes = .global scope) :
    bind? bindings environment = some next ↔
      (∀ binding ∈ bindings, literalValue? binding.2 ≠ none) ∧
        environment.Binds bindings next := by
  constructor
  · intro h
    refine ⟨fun binding hmem hnone => ?_, binds_of_bind? hscope h⟩
    rw [bind?_eq_none_iff.mpr ⟨binding, hmem, hnone⟩] at h
    cases h
  · rintro ⟨hvalues, hbinds⟩
    obtain ⟨other, h⟩ := exists_bind?_eq_some hvalues
    rw [h, (binds_of_bind? hscope h).unique hbinds]

/-- How a call of `eval` with the given bindings ends, by what its file holds. -/
inductive Ends (bindings : List (String × String)) (mode : LogicMode) :
    Option ByteArray → Outcome → Prop where
  /-- There is no file, or it is not UTF-8. -/
  | unreadable {contents : Option ByteArray} (hread : contents.bind String.fromUTF8? = none) :
      Ends bindings mode contents ⟨1, ""⟩
  /-- The file can be read, but a literal has no value. -/
  | unbound {contents : Option ByteArray} {source : String} {binding : String × String}
      (hread : contents.bind String.fromUTF8? = some source) (hmem : binding ∈ bindings)
      (hnone : literalValue? binding.2 = none) :
      Ends bindings mode contents ⟨1, ""⟩
  /-- All literals have values, but the file is not an expression. -/
  | malformed {contents : Option ByteArray} {source : String} {error : SyntaxError}
      (hread : contents.bind String.fromUTF8? = some source)
      (hvalues : ∀ binding ∈ bindings, literalValue? binding.2 ≠ none)
      (hparse : ExprLang.parse source = .error error) :
      Ends bindings mode contents ⟨65, ""⟩
  /-- The file is an expression, but it has no value. -/
  | valueless {contents : Option ByteArray} {source : String} {expr : Expr}
      {environment : Environment} {error : RuntimeError} {machine : Machine}
      (hread : contents.bind String.fromUTF8? = some source)
      (hvalues : ∀ binding ∈ bindings, literalValue? binding.2 ≠ none)
      (hparse : ExprLang.parse source = .ok expr)
      (hbinds : Environment.empty.withBuiltins.Binds bindings environment)
      (hrun : (expr.evaluate mode).run (.ofEnvironment environment) = .error error machine) :
      Ends bindings mode contents ⟨70, ""⟩
  /-- The file has a value. -/
  | success {contents : Option ByteArray} {source : String} {expr : Expr}
      {environment : Environment} {value : Value} {machine : Machine}
      (hread : contents.bind String.fromUTF8? = some source)
      (hvalues : ∀ binding ∈ bindings, literalValue? binding.2 ≠ none)
      (hparse : ExprLang.parse source = .ok expr)
      (hbinds : Environment.empty.withBuiltins.Binds bindings environment)
      (hrun : (expr.evaluate mode).run (.ofEnvironment environment) = .ok value machine) :
      Ends bindings mode contents ⟨0, machine.heap.display value ++ "\n"⟩

theorem Ends.of_perm {reordered : List (String × String)} {mode : LogicMode}
    {contents : Option ByteArray} {outcome : Outcome} (h : Ends bindings mode contents outcome)
    (hperm : bindings.Perm reordered) (hnames : (bindings.map Prod.fst).Nodup) :
    Ends reordered mode contents outcome := by
  have hvalues (h : ∀ binding ∈ bindings, literalValue? binding.2 ≠ none) :
      ∀ binding ∈ reordered, literalValue? binding.2 ≠ none := fun binding hmem =>
    h binding (hperm.mem_iff.mpr hmem)
  cases h with
  | unreadable hread => exact .unreadable hread
  | unbound hread hmem hnone => exact .unbound hread (hperm.mem_iff.mp hmem) hnone
  | malformed hread hall hparse => exact .malformed hread (hvalues hall) hparse
  | valueless hread hall hparse hbinds hrun =>
      exact .valueless hread (hvalues hall) hparse (hbinds.of_perm hperm hnames) hrun
  | success hread hall hparse hbinds hrun =>
      exact .success hread (hvalues hall) hparse (hbinds.of_perm hperm hnames) hrun

variable {mode : LogicMode} {contents : Option ByteArray} {outcome : Outcome} {file : String}

/-- What happens after the file is read and the names are bound. -/
theorem execute_eval_of_bind? {source : String}
    (hread : contents.bind String.fromUTF8? = some source)
    (hbind : bind? bindings Environment.empty.withBuiltins = some environment) :
    (eval file bindings mode).execute contents =
      match ExprLang.parse source with
      | .error _ => ⟨65, ""⟩
      | .ok expr =>
        match (expr.evaluate mode).run (.ofEnvironment environment) with
        | .ok value machine => ⟨0, machine.heap.display value ++ "\n"⟩
        | .error .. => ⟨70, ""⟩ := by
  simp only [execute, hread, executeOn, hbind, Machine.answer]
  rw [EStateM.run, run]
  cases ExprLang.parse source with
  | error error => rfl
  | ok expr =>
      dsimp only
      cases (expr.evaluate mode).run (.ofEnvironment environment) <;> rfl

theorem ends_execute_eval :
    Ends bindings mode contents ((eval file bindings mode).execute contents) := by
  cases hread : contents.bind String.fromUTF8? with
  | none =>
      rw [execute, hread]
      exact .unreadable hread
  | some source =>
      cases hbind : bind? bindings Environment.empty.withBuiltins with
      | none =>
          obtain ⟨binding, hmem, hnone⟩ := bind?_eq_none_iff.mp hbind
          simp only [execute, hread, executeOn, hbind]
          exact .unbound hread hmem hnone
      | some environment =>
          obtain ⟨hvalues, hbinds⟩ := (bind?_eq_some_iff rfl).mp hbind
          rw [execute_eval_of_bind? hread hbind]
          split
          next hparse => exact .malformed hread hvalues hparse
          next hparse =>
            split
            next hrun => exact .success hread hvalues hparse hbinds hrun
            next hrun => exact .valueless hread hvalues hparse hbinds hrun

theorem execute_eval_of_ends (h : Ends bindings mode contents outcome) :
    (eval file bindings mode).execute contents = outcome := by
  cases h with
  | unreadable hread =>
      rw [execute, hread]
      rfl
  | unbound hread hmem hnone =>
      simp only [execute, hread, executeOn, bind?_eq_none_iff.mpr ⟨_, hmem, hnone⟩]
      rfl
  | malformed hread hvalues hparse =>
      obtain ⟨environment, hbind⟩ := exists_bind?_eq_some hvalues
      rw [execute_eval_of_bind? hread hbind, hparse]
  | valueless hread hvalues hparse hbinds hrun =>
      have hbind := (bind?_eq_some_iff rfl).mpr ⟨hvalues, hbinds⟩
      rw [execute_eval_of_bind? hread hbind, hparse]
      dsimp only
      rw [hrun]
  | success hread hvalues hparse hbinds hrun =>
      have hbind := (bind?_eq_some_iff rfl).mpr ⟨hvalues, hbinds⟩
      rw [execute_eval_of_bind? hread hbind, hparse]
      dsimp only
      rw [hrun]

/-- A call of `eval` is read as the command that it asks for, whose outcome is told by the first
thing that is the matter, and which does not depend on the order of definitions of different names.
-/
theorem Call.faithful (call : Call) :
    ∃ command, call.command? = some command ∧ command.file = call.file ∧
      (∀ contents outcome, command.execute contents = outcome ↔
        Ends call.bindings call.mode contents outcome) ∧
      ∀ other : Call, other.mode = call.mode → call.bindings.Perm other.bindings →
        (call.bindings.map Prod.fst).Nodup →
        ∃ reordered, other.command? = some reordered ∧
          ∀ contents, reordered.execute contents = command.execute contents := by
  refine ⟨_, call.command?_eq, rfl, fun contents outcome => ?_, ?_⟩
  · constructor
    · rintro rfl
      exact ends_execute_eval
    · exact execute_eval_of_ends
  · intro other hmode hperm hnames
    refine ⟨_, other.command?_eq, fun contents => ?_⟩
    have hends : Ends call.bindings call.mode contents
        ((eval call.file call.bindings call.mode).execute contents) := ends_execute_eval
    rw [hmode]
    exact execute_eval_of_ends (hends.of_perm hperm hnames)

/-- Two definitions can change places. -/
theorem Call.faithful_exchanged :
    ∃ command reordered,
      eval? "main" [" n =1".toList, "m=n=2".toList] .shortCircuit = some command ∧
      eval? "main" ["m =n=2".toList, "n=1".toList] .shortCircuit = some reordered ∧
      ∀ contents, reordered.execute contents = command.execute contents := by
  let n : Definition := ⟨" n ".toList, "1".toList, by decide, by decide⟩
  let m : Definition := ⟨"m".toList, "n=2".toList, by decide, by decide⟩
  let n' : Definition := ⟨"n".toList, "1".toList, by decide, by decide⟩
  let m' : Definition := ⟨"m ".toList, "n=2".toList, by decide, by decide⟩
  let call : Call := ⟨"main", [n, m], .shortCircuit⟩
  let other : Call := ⟨"main", [m', n'], .shortCircuit⟩
  obtain ⟨command, hcommand, -, -, hother⟩ := call.faithful
  obtain ⟨reordered, hreordered, hsame⟩ := hother other rfl (by decide) (by decide)
  exact ⟨command, reordered, hcommand, hreordered, hsame⟩

end Command

end ExprLang
