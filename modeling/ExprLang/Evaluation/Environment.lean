import ExprLang.Evaluation.Error
import ExprLang.Evaluation.Scopes
import ExprLang.Host.Function

/-!
# Environments

An environment binds names to values in nested scopes and knows the functions of the host by name.
Declarations go into the innermost scope of all; an assignment changes the binding that the name
means, and makes one in the innermost scope if there is none.
-/

namespace ExprLang

/-- The names that an expression can use. -/
structure Environment where
  scopes : Scopes
  functions : Std.ExtTreeMap String HostFunction compare

namespace Environment

/-- The environment without any name. -/
def empty : Environment :=
  ⟨.global ∅, ∅⟩

/-- Opens a scope inside the others. -/
def pushScope (environment : Environment) : Environment :=
  { environment with scopes := .inner ∅ environment.scopes }

/-- Leaves the innermost scope and forgets its bindings. -/
def popScope (environment : Environment) : Environment :=
  { environment with scopes := environment.scopes.pop }

/-- Binds a name in the innermost scope, replacing a binding that it has there. -/
def declare (environment : Environment) (name : String) (kind : DeclarationKind)
    (value : Option Value) : Environment :=
  { environment with scopes := environment.scopes.insert name ⟨kind, value⟩ }

/-- Binds a name to a value that can be changed. -/
def define (environment : Environment) (name : String) (value : Value) : Environment :=
  environment.declare name .let (some value)

/-- Gives a function a name. -/
def defineFunction (environment : Environment) (name : String) (function : HostFunction) :
    Environment :=
  { environment with functions := environment.functions.insert name function }

/-- The function of a name. -/
def function? (environment : Environment) (name : String) : Option HostFunction :=
  environment.functions[name]?

/-- The value that a name has, if it has one. -/
def get? (environment : Environment) (name : String) : Option Value :=
  (environment.scopes.find? name).bind (·.value)

/-- The value of a name. -/
def lookup (environment : Environment) (name : String) : Except RuntimeError Value :=
  match environment.scopes.find? name with
  | some ⟨_, some value⟩ => .ok value
  | some ⟨_, none⟩ => .error (.uninitialized name)
  | none => .error (.unknownVariable name)

/-- Gives the binding that a name means a new value, and binds the name if it has none. A constant
with a value keeps it. -/
def assign (environment : Environment) (name : String) (value : Value) :
    Except RuntimeError Environment :=
  match environment.scopes.find? name with
  | some binding =>
    if binding.isFixed then .error (.constantReassignment name)
    else
      .ok { environment with
        scopes := environment.scopes.update name { binding with value := some value } }
  | none => .ok (environment.define name value)

end Environment

end ExprLang
