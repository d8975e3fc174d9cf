import ReactiveSpace.Command

/-!
# The command line

The host of commands that reads and writes real files. It starts no programs, so that every build
ends with a compiler that could not be started.
-/

namespace ReactiveSpace

/-- The text of a file, if it can be read. -/
def readText (path : String) : IO (Option String) := do
  try
    return some (← IO.FS.readFile path)
  catch _ =>
    return none

/-- Writes a file and answers whether that was possible. -/
def writeText (path text : String) : IO Bool := do
  try
    IO.FS.writeFile path text
    return true
  catch _ =>
    return false

/-- The host of the command line. -/
def commandHost : Command.Host IO Unit where
  read := readText
  write := writeText
  launch _ _ _ := return .notStarted "no program can be started from here"

end ReactiveSpace

/-- Carries out the command that the arguments make. -/
def main (arguments : List String) : IO UInt32 := do
  let outcome ← ReactiveSpace.Command.runArguments ReactiveSpace.commandHost arguments
  IO.print outcome.output
  IO.eprint outcome.errors
  return UInt32.ofNat outcome.status
