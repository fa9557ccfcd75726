import ExprLang.Evaluation.Evaluate
import ExprLang.Text.Character

/-!
# Commands

A command says what is to be done with one file. The command `eval` may also define names, each by a
text that holds a name, an equals sign and a literal.
-/

namespace ExprLang

/-- What a command line asks for. -/
inductive Command where
  /-- List the tokens of a file. -/
  | tokenize (file : String)
  /-- Show the tree of a file, in parenthesized form or as data. -/
  | parse (file : String) (asJson : Bool)
  /-- Evaluate a file after binding names to the values of literals. -/
  | eval (file : String) (bindings : List (String × String)) (mode : LogicMode)
  deriving DecidableEq, Repr

namespace Command

/-- The file that the command is about. -/
def file : Command → String
  | tokenize file | parse file _ | eval file _ _ => file

/-- The name and the literal of a definition. The name ends at the first equals sign and must not be
blank; blanks around it do not belong to it. -/
def binding? (definition : List Char) : Option (String × String) :=
  let name := Text.trim (definition.takeWhile (· != '='))
  match definition.dropWhile (· != '=') with
  | '=' :: literal => if name.isEmpty then none else some (.ofList name, .ofList literal)
  | _ => none

/-- The command `eval` with its options, if all definitions can be read. -/
def eval? (file : String) (definitions : List (List Char)) (mode : LogicMode) :
    Option Command := do
  return .eval file (← definitions.mapM binding?) mode

end Command

end ExprLang
