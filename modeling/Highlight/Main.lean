import Highlight.CommandLine.Command

/-!
# The program

Reads arguments, environment and files, and prints what the command answers.
-/

namespace Highlight.CommandLine

/-- The content of a file, if it can be read. -/
def readFile? (path : String) : IO (Option ByteArray) := do
  try
    return some (← IO.FS.readBinFile path)
  catch _ => return none

end Highlight.CommandLine

open Highlight.CommandLine in
def main (arguments : List String) : IO UInt32 := do
  -- The languages the command knows ask for no property of characters.
  match ← run .none readFile? arguments (← IO.getEnv "IDE_HIGHLIGHT_CONFIG") with
  | .printed output =>
    IO.print output
    return 0
  | .failed message =>
    IO.eprintln s!"Error: {message}"
    return 1
  | .misuse =>
    IO.eprint helpText
    return 2
  | .broken fault =>
    IO.eprintln fault.message
    return 101
