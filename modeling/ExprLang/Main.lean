import ExprLang.CommandLine.Outcome
import ExprLang.CommandLine.Words

/-!
# The program

Reads the file that the command line names, prints what the command answers and ends with its
status.
-/

namespace ExprLang

/-- The bytes of a file, if it can be read. -/
def readContents (name : String) : IO (Option ByteArray) := do
  try
    return some (← IO.FS.readBinFile name)
  catch _ =>
    return none

end ExprLang

open ExprLang in
def main (arguments : List String) : IO UInt32 := do
  let outcome ←
    match Command.ofArguments? arguments with
    | some command => pure (command.execute (← readContents command.file))
    | none => pure .misused
  IO.print outcome.output
  return outcome.status.toUInt32
