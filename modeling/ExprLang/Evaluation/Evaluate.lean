import ExprLang.Evaluation.Environment
import ExprLang.Evaluation.Operation

/-!
# Evaluation

Evaluating an expression answers its value or an error and may change the environment and the
objects of the host on the way; what was changed before an error stays changed. Operands,
arguments, targets and indexes are evaluated once and from left to right.
-/

namespace ExprLang

/-- Whether `&&` and `||` evaluate their right operand where the left one decides the result. -/
inductive LogicMode where
  | eager
  | shortCircuit
  deriving DecidableEq, Repr, Inhabited

/-- What an evaluation works on. It never changes how the objects of the host behave. -/
structure Machine where
  environment : Environment
  heap : Heap
  /-- The behaviours of the sorts of objects that the host adds. -/
  behaviours : Nat → Behaviour := fun _ => .plain

namespace Machine

/-- The machine with an environment and no objects. -/
def ofEnvironment (environment : Environment) : Machine :=
  { environment, heap := .empty }

/-- The behaviour of the object of a number. -/
def behaviour (machine : Machine) (id : ObjectId) : Behaviour :=
  machine.heap.behaviour machine.behaviours id

end Machine

/-- An evaluation, whose changes also survive a failure. -/
abbrev EvalM := EStateM RuntimeError Machine

/-- Where a value can be written to, its object and index being evaluated. -/
inductive Place where
  | var (name : String)
  | declaration (kind : DeclarationKind) (name : String)
  | property (id : ObjectId) (name : String)
  | element (id : ObjectId) (index : Value)

namespace EvalM

/-- An answer that changes nothing. -/
def ofExcept {α : Type} : Except RuntimeError α → EvalM α
  | .ok a => pure a
  | .error error => throw error

/-- A call of a function of the host. -/
def host {α : Type} (wrap : HostError → RuntimeError) (call : HostM α) : EvalM α := fun machine =>
  match call.run machine.heap with
  | .ok answer heap => .ok answer { machine with heap }
  | .error error heap => .error (wrap error) { machine with heap }

/-- A request to an object, which meets it in its own way. -/
def request {α : Type} (id : ObjectId) (use : Behaviour → HostM α) : EvalM α := do
  host .host (use ((← get).behaviour id))

end EvalM

namespace Place

/-- The value at a place. A new name has none. -/
def read : Place → EvalM Value
  | var name => do EvalM.ofExcept ((← get).environment.lookup name)
  | declaration _ name => throw (.uninitialized name)
  | property id name => EvalM.request id (·.getProperty id name)
  | element id index => EvalM.request id (·.getIndex id index)

/-- Puts a value at a place. -/
def write (value : Value) : Place → EvalM Unit
  | var name => do
    let machine ← get
    let environment ← EvalM.ofExcept (machine.environment.assign name value)
    set { machine with environment }
  | declaration kind name =>
    modify fun machine =>
      { machine with environment := machine.environment.declare name kind (some value) }
  | property id name => EvalM.request id (·.setProperty id name value)
  | element id index => EvalM.request id (·.setIndex id index value)

/-- Changes the value at a place by one; a step before the place answers the new value, a step
after it the old one. -/
def step (op : UnaryOp) (place : Place) : EvalM Value := do
  let old ← place.read
  let new ← EvalM.ofExcept (op.stepped old)
  place.write new
  return if op.isAfter then old else new

/-- Stores a value at a place; a compound operator applies to the value that is there by then. -/
def assign (op : AssignOp) (place : Place) (value : Value) : EvalM Value := do
  let stored ←
    match op.binary? with
    | none => pure value
    | some op => do EvalM.ofExcept (op.apply (← place.read) value)
  place.write stored
  return stored

end Place

namespace LiteralKind

/-- The value that the text of a constant spells. -/
def value (kind : LiteralKind) (text : String) : Except RuntimeError Value :=
  let spelled : Option Value :=
    match kind with
    | int => (Integer.read? text.toList).toOption.map .int
    | decimal => (Decimal.read? text.toList).map .decimal
    | string => some (.string text)
    | bool =>
      if text = "true" then some (.bool true)
      else if text = "false" then some (.bool false)
      else none
  match spelled with
  | some value => .ok value
  | none => .error (.invalidLiteral kind text)

end LiteralKind

namespace BinaryOp

/-- The result where the left operand decides it. -/
def decided? (mode : LogicMode) : BinaryOp → Value → Option Value
  | and, .bool false => if mode = .shortCircuit then some (.bool false) else none
  | or, .bool true => if mode = .shortCircuit then some (.bool true) else none
  | _, _ => none

end BinaryOp

namespace Value

/-- The object whose member is asked for. -/
def owner : Value → Except RuntimeError ObjectId
  | object id => .ok id
  | value => .error (.notAnObject value.kind)

/-- The object whose element is asked for. -/
def container : Value → Except RuntimeError ObjectId
  | object id => .ok id
  | value => .error (.notIndexable value.kind)

end Value

/-- Calls the function of a name. -/
def callFunction (name : String) (arguments : List Value) : EvalM Value := do
  match (← get).environment.function? name with
  | some function => EvalM.host (.callFailed name) (function.invoke arguments)
  | none => throw (.unknownFunction name)

namespace Expr

variable (mode : LogicMode)

mutual

/-- Evaluates an expression. -/
def evaluate : Expr → EvalM Value
  | constant kind text => EvalM.ofExcept (kind.value text)
  | var name => (Place.var name).read
  | declaration _ name => throw (.missingInitializer name)
  | group inner => evaluate inner
  | unary op operand => do
    if op.mutates then
      (← evaluatePlace operand).step op
    else
      EvalM.ofExcept (op.apply (← evaluate operand))
  | binary op left right => do
    let first ← evaluate left
    match op.decided? mode first with
    | some result => return result
    | none => EvalM.ofExcept (op.apply first (← evaluate right))
  | ternary condition ifTrue ifFalse => do
    match ← evaluate condition with
    | .bool true => evaluate ifTrue
    | .bool false => evaluate ifFalse
    | value => throw (.conditionNotBool value.kind)
  | assignment op target value => do
    let place ← evaluatePlace target
    place.assign op (← evaluate value)
  | call name arguments => do
    callFunction name (← evaluateAll arguments)
  | member target part => do
    let id ← EvalM.ofExcept (← evaluate target).owner
    match part with
    | var name => (Place.property id name).read
    | call name arguments => do
      let values ← evaluateAll arguments
      EvalM.request id (·.invoke id name values)
    | other => throw (.invalidMember other.kind)
  | index target position => do
    let id ← EvalM.ofExcept (← evaluate target).container
    (Place.element id (← evaluate position)).read
termination_by structural expr => expr

/-- Evaluates what stands in front of an assignment or under a step. -/
def evaluatePlace : Expr → EvalM Place
  | var name => return .var name
  | declaration kind name => return .declaration kind name
  | member target (var name) => do
    let id ← EvalM.ofExcept (← evaluate target).owner
    return .property id name
  | member _ part => throw (.notAssignable part.kind)
  | index target position => do
    let id ← EvalM.ofExcept (← evaluate target).container
    return .element id (← evaluate position)
  | other => throw (.notAssignable other.kind)
termination_by structural expr => expr

/-- Evaluates arguments from left to right. -/
def evaluateAll : List Expr → EvalM (List Value)
  | [] => return []
  | argument :: rest => do
    let value ← evaluate argument
    let values ← evaluateAll rest
    return value :: values
termination_by structural exprs => exprs

end

end Expr

end ExprLang
