/-
# The program

The command line, performed on the files of the machine. Files are read and written one at a time;
directories are not listed, and there is no way from here to a judge, so a run that would need one
fails and says so.
-/

import HarnessSynthesis.Command.Perform

namespace HarnessSynthesis

/-- What an action gives, unless it fails. -/
def succeeded {α : Type} (action : IO α) : IO (Option α) := do
  try
    return some (← action)
  catch _ =>
    return none

/-- The machine on which the program runs. -/
def machine : Host IO where
  read path := do
    return (← succeeded (IO.FS.readFile (String.ofList path))).map String.toList
  entries _ := return none
  write path text := do
    return (← succeeded (IO.FS.writeFile (String.ofList path) (String.ofList text))).isSome
  input := do
    return (← succeeded (do (← IO.getStdin).readToEnd)).map String.toList
  judge :=
    { cancelled := return false
      run := fun _ => return .error ⟨"no judge is connected", []⟩ }

end HarnessSynthesis

open HarnessSynthesis in
def main (arguments : List String) : IO UInt32 := do
  match Command.parse? (arguments.map String.toList) with
  | none =>
    IO.eprint (String.ofList (Topic.page .program))
    return Command.usageStatus.toUInt32
  | some command =>
    let done ← command.perform machine
    IO.print (String.ofList done.output)
    IO.eprint (String.ofList done.aside)
    return done.exitStatus.toUInt32
