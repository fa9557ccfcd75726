import ExprLang.Evaluation.Evaluate
import ExprLang.Grammar.Parser
import ExprLang.Text.Character

/-!
# Running a text

`run` evaluates the expression that a text spells. Two functions come with the language: `parseInt`
reads an integer, and `eval` runs a text in an environment of its own, which has nothing but these
two functions, and answers the text of the value.

A text that runs another one is longer than it, unless the other is the text of a number or a truth
value, which runs nothing; so a count of levels that starts above the length of the text is never
used up.
-/

namespace ExprLang

/-- Why a text has no value. -/
inductive Error where
  | syntactic (error : SyntaxError)
  | runtime (error : RuntimeError)
  deriving DecidableEq, Repr

namespace Error

/-- What is told about the error. -/
def diagnostic : Error → Diagnostic
  | syntactic error => error.diagnostic
  | runtime error => error.diagnostic

end Error

/-- Evaluates the expression that a text spells. -/
def run (mode : LogicMode) (source : String) : EStateM Error Machine Value := fun machine =>
  match parse source with
  | .error error => .error (.syntactic error) machine
  | .ok expr =>
    match (expr.evaluate mode).run machine with
    | .ok value machine => .ok value machine
    | .error error machine => .error (.runtime error) machine

namespace Machine

/-- The machine without any name or object. -/
def empty : Machine :=
  .ofEnvironment .empty

/-- The answer of a run that starts on the machine, with objects shown as they are after it. -/
def answer (machine : Machine) (mode : LogicMode) (source : String) : Except Error String :=
  match (run mode source).run machine with
  | .ok value machine => .ok (machine.heap.display value)
  | .error error _ => .error error

end Machine

namespace Builtin

/-- A function of one string. -/
def ofString (returns : ValueType) (body : String → Except String Value) : HostFunction where
  signature := ⟨[.string], returns⟩
  entry
    | [.string text] =>
      match body text with
      | .ok value => pure value
      | .error reason => throw (.failed reason)
    | _ => throw (.failed "expected a string")

/-- Reads an integer, blanks around it being left out. -/
def parseInt : HostFunction :=
  ofString .int fun text =>
    match Integer.read? (Text.trim text.toList) with
    | .ok n => .ok (.int n)
    | .error error => .error ("`" ++ text ++ "` is not an integer: " ++ error.message)

/-- Runs a text by the given rule and answers the text of its value. -/
def eval (answer : String → Except String String) : HostFunction :=
  ofString .string fun text => (answer text).map .string

/-- Gives an environment the two functions of the language. -/
def define (answer : String → Except String String) (environment : Environment) : Environment :=
  (environment.defineFunction "parseInt" parseInt).defineFunction "eval" (eval answer)

/-- Runs a text that may run others in it, down to the given number of levels. -/
def answer : (levels : Nat) → String → Except String String
  | 0, _ => .error "too many nested runs"
  | levels + 1, source =>
    let machine := Machine.ofEnvironment (define (answer levels) .empty)
    (machine.answer .eager source).mapError (·.diagnostic.message)

/-- Runs a text that may run others in it. -/
def answerText (source : String) : Except String String :=
  answer (source.utf8ByteSize + 2) source

end Builtin

/-- Gives an environment the functions of the language. -/
def Environment.withBuiltins (environment : Environment) : Environment :=
  Builtin.define Builtin.answerText environment

end ExprLang
