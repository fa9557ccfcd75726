import ExprLang.Proofs.Evaluation.Order
import ExprLang.Proofs.Evaluation.Outcome

/-!
# Runs of requests

A host works on an environment by requests: it declares names and assigns to them, opens and leaves
scopes, and has expressions evaluated. A request that fails leaves the machine as it is by then, and
the run goes on.
-/

namespace ExprLang

/-- What a host asks for. -/
inductive Request where
  | define (name : String) (value : Value)
  | declare (name : String) (kind : DeclarationKind) (value : Option Value)
  | assign (name : String) (value : Value)
  | pushScope
  | popScope
  | evaluate (mode : LogicMode) (expr : Expr)

namespace Machine

/-- The machine after a request. -/
def perform (machine : Machine) : Request → Machine
  | .define name value =>
    { machine with environment := machine.environment.define name value }
  | .declare name kind value =>
    { machine with environment := machine.environment.declare name kind value }
  | .assign name value =>
    match machine.environment.assign name value with
    | .ok environment => { machine with environment }
    | .error _ => machine
  | .pushScope => { machine with environment := machine.environment.pushScope }
  | .popScope => { machine with environment := machine.environment.popScope }
  | .evaluate mode expr => (expr.evaluate mode).after machine

/-- The machine after a run of requests. -/
def performAll (machine : Machine) (requests : List Request) : Machine :=
  requests.foldl perform machine

end Machine

/-- Whether evaluating an expression on a machine declares a name: an assignment to a declaration of
the name is evaluated on the way and succeeds. -/
def Expr.Declares (mode : LogicMode) (expr : Expr) (machine : Machine) (name : String) : Prop :=
  ∃ op kind source start result next,
    Visits mode expr machine (.assignment op (.declaration kind name) source) start ∧
      ((Expr.assignment op (.declaration kind name) source).evaluate mode).run start =
        .ok result next

/-- Whether a request neither leaves the scope at a depth nor declares a name while that scope is
the innermost one. The global scope is never left. -/
def Request.Spares (depth : Nat) (name : String) (machine : Machine) : Request → Prop
  | define other _ | declare other _ _ => ¬ (machine.environment.depth = depth ∧ other = name)
  | assign .. | pushScope => True
  | popScope => machine.environment.depth ≠ depth ∨ depth = 0
  | evaluate mode expr => machine.environment.depth = depth → ¬ expr.Declares mode machine name

/-- Whether each request of a run leaves the scope at a depth open and the name in it undeclared. -/
def Machine.Spares (depth : Nat) (name : String) : Machine → List Request → Prop
  | _, [] => True
  | machine, request :: rest =>
    request.Spares depth name machine ∧ (machine.perform request).Spares depth name rest

end ExprLang
