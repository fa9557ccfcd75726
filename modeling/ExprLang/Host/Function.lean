import ExprLang.Host.Behaviour

/-!
# Functions of the host

A host function declares the types of its parameters and of its result. An invocation checks the
arguments against them before the function runs and its result afterwards, so the function itself
only ever sees arguments of the declared types.
-/

namespace ExprLang

/-- The types of the parameters and of the result of a function. -/
structure Signature where
  params : List ValueType
  returns : ValueType
  deriving DecidableEq, Repr

/-- A function that the host provides. -/
structure HostFunction where
  signature : Signature
  entry : List Value → HostM Value

namespace Signature

/-- The signature in the description of a function. -/
def describe (signature : Signature) : String :=
  "Signature \x7b params: [" ++ ", ".intercalate (signature.params.map ValueType.tag) ++
    "], returns: " ++ signature.returns.tag ++ " \x7d"

end Signature

namespace HostFunction

/-- The arguments as values of the types of the parameters; the first one that cannot serve is
reported with its place, the places being counted on from the given one. -/
def coerceArguments : Nat → List ValueType → List Value → Except HostError (List Value)
  | position, expected :: params, argument :: arguments =>
    match expected.coerce? argument with
    | some value => (coerceArguments (position + 1) params arguments).map (value :: ·)
    | none => .error (.argumentType position expected argument.kind)
  | _, _, _ => .ok []

/-- The arguments as the function asks for them. -/
def accept (function : HostFunction) (arguments : List Value) : Except HostError (List Value) :=
  let params := function.signature.params
  if params.length = arguments.length then coerceArguments 1 params arguments
  else .error (.arity params.length arguments.length)

/-- The result as the function has promised it. -/
def deliver (function : HostFunction) (result : Value) : Except HostError Value :=
  match function.signature.returns.coerce? result with
  | some value => .ok value
  | none => .error (.returnType function.signature.returns result.kind)

/-- Calls the function. -/
def invoke (function : HostFunction) (arguments : List Value) : HostM Value := do
  let accepted ← HostM.ofExcept (function.accept arguments)
  let result ← function.entry accepted
  HostM.ofExcept (function.deliver result)

/-- A description of the function by its signature. -/
def describe (function : HostFunction) : String :=
  "HostFunction \x7b signature: " ++ function.signature.describe ++ ", .. \x7d"

end HostFunction

end ExprLang
