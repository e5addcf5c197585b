import Nes.CommandLine.Basic

/-!
# The program

Reads the file that the arguments name, and prints what `CommandLine` answers.
-/

open Nes CommandLine

/-- The bytes of a file that can be read. -/
def readImage (path : String) : IO (Option (Array UInt8)) := do
  try
    return some (← IO.FS.readBinFile path).data
  catch _ =>
    return none

def main (args : List String) : IO UInt32 := do
  let outcome ← match Options.ofArguments args with
    | .ok o => do
      let image ← match o.path with
        | some path => readImage path
        | none => pure none
      pure (o.outcome image)
    | .error i => pure i.outcome
  for line in outcome.lines do
    IO.println line
  if let some complaint := outcome.complaint then
    IO.eprintln complaint
  return outcome.code.toUInt32
