import ExprLang.CommandLine.Command
import ExprLang.Evaluation.Run
import ExprLang.Expr.Display
import ExprLang.Expr.Interchange
import ExprLang.Json.Print

/-!
# What a command answers

A command either prints its result and succeeds or prints nothing and fails with a status that tells
how: the command line is wrong, the file or a binding is unusable, the text is no expression, or it
has no value.
-/

namespace ExprLang

/-- What a command prints and the status that it ends with. -/
structure Outcome where
  status : Nat
  output : String
  deriving DecidableEq, Repr

namespace Outcome

/-- The command succeeds. -/
def success (output : String) : Outcome :=
  ⟨0, output⟩

/-- The file cannot be read or a binding has no value. -/
def unusable : Outcome :=
  ⟨1, ""⟩

/-- The command line asks for nothing that there is. -/
def misused : Outcome :=
  ⟨2, ""⟩

/-- The text of the file is not an expression. -/
def malformed : Outcome :=
  ⟨65, ""⟩

/-- The expression of the file has no value. -/
def valueless : Outcome :=
  ⟨70, ""⟩

end Outcome

namespace Command

/-- Binds names to the values of their literals, each of which is evaluated in an environment of its
own without any name. -/
def bind? : List (String × String) → Environment → Option Environment
  | [], environment => some environment
  | (name, literal) :: rest, environment =>
    match (run .eager literal).run .empty with
    | .ok value _ => bind? rest (environment.define name value)
    | .error .. => none

/-- Carries out a command on the text of its file. -/
def executeOn (source : String) : Command → Outcome
  | tokenize _ =>
    match ExprLang.tokenize source with
    | .ok tokens => .success (String.join (tokens.map fun token => token.display ++ "\n"))
    | .error _ => .malformed
  | parse _ asJson =>
    match ExprLang.parse source with
    | .ok expr => .success ((if asJson then expr.toJson.pretty else expr.display) ++ "\n")
    | .error _ => .malformed
  | eval _ bindings mode =>
    match bind? bindings Environment.empty.withBuiltins with
    | none => .unusable
    | some environment =>
      match (Machine.ofEnvironment environment).answer mode source with
      | .ok text => .success (text ++ "\n")
      | .error (.syntactic _) => .malformed
      | .error (.runtime _) => .valueless

/-- Carries out a command, given the bytes of its file unless there is none. The file must be
UTF-8. -/
def execute (command : Command) (contents : Option ByteArray) : Outcome :=
  match contents.bind String.fromUTF8? with
  | some source => command.executeOn source
  | none => .unusable

end Command

end ExprLang
