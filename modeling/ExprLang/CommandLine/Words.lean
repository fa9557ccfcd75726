import ExprLang.CommandLine.Command

/-!
# The words of a command line

A command line names a command and one file. Options may stand before or after the file; after the
word `--` every word is a file. The option `-D` takes a definition, either in the same word or as
the next one, which then must not look like an option.
-/

namespace ExprLang.Command

/-- What one or two words after the command say. -/
inductive Word where
  | file (name : String)
  | json
  | shortCircuit
  | definition (text : List Char)
  deriving DecidableEq, Repr

namespace Word

/-- A file has a name. -/
def ofFile? (name : String) : Option Word :=
  if name.isEmpty then none else some (.file name)

/-- Whether a word is an option rather than a file or a value. -/
def looksLikeOption (word : String) : Bool :=
  match word.toList with
  | '-' :: _ :: _ => true
  | _ => false

/-- A word that begins with `-D` holds a definition, perhaps after an equals sign. -/
def ofAttached? (word : String) : Option Word :=
  match word.toList with
  | '-' :: 'D' :: '=' :: text => some (.definition text)
  | '-' :: 'D' :: text => some (.definition text)
  | _ => none

/-- Reads the words after the command. -/
def readAll? : List String → Option (List Word)
  | [] => some []
  | "--" :: files => files.mapM ofFile?
  | "--json" :: rest => (readAll? rest).map (.json :: ·)
  | "--short-circuit" :: rest => (readAll? rest).map (.shortCircuit :: ·)
  | ["-D"] => none
  | "-D" :: value :: rest =>
    if looksLikeOption value then none
    else (readAll? rest).map (.definition value.toList :: ·)
  | word :: rest => do
    let first ← if looksLikeOption word then ofAttached? word else ofFile? word
    return first :: (← readAll? rest)

/-- The text of a definition. -/
def definition? : Word → Option (List Char)
  | definition text => some text
  | _ => none

/-- The name of a file. -/
def file? : Word → Option String
  | file name => some name
  | _ => none

end Word

/-- The command of a command line. One file must be named, every other word must belong to the
command, and only definitions may be given more than once. -/
def ofArguments? : List String → Option Command
  | [] => none
  | name :: rest => do
    let words ← Word.readAll? rest
    let [file] := words.filterMap Word.file? | none
    let definitions := words.filterMap Word.definition?
    match name, words.count .json, words.count .shortCircuit, definitions with
    | "tokenize", 0, 0, [] => return .tokenize file
    | "parse", 0, 0, [] => return .parse file false
    | "parse", 1, 0, [] => return .parse file true
    | "eval", 0, 0, definitions => eval? file definitions .eager
    | "eval", 0, 1, definitions => eval? file definitions .shortCircuit
    | _, _, _, _ => none

end ExprLang.Command
