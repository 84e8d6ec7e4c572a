import SelectionEngine.CommandLine.Session
import SelectionEngine.Showcase

namespace SelectionEngine

/-- Runs a session on the files and the standard input of the process. -/
def Session.run : Session → IO Ending
  | finish ending => return ending
  | fileText path next => do
    let text ← try pure (some (← IO.FS.readFile path)) catch _ => pure none
    (next text).run
  | inputText next => do
    let text ← try pure (some (← (← IO.getStdin).readToEnd)) catch _ => pure none
    (next text).run

/-- The variables that the program looks at. -/
def CommandLine.environmentNames : List String :=
  [CommandLine.threadsVariable, Options.logVariable, Options.jsonLogsVariable, Options.configurationVariable]

end SelectionEngine

open SelectionEngine in
/-- Executes the request that the command line names on the showcase schema. -/
def main (arguments : List String) : IO UInt32 := do
  let environment ← CommandLine.environmentNames.filterMapM fun name => do
    return (← IO.getEnv name).map (name, ·)
  let seed ← IO.rand 0 0x80000000
  let schema := Showcase.schema (Showcase.draws seed)
  let ending ← (CommandLine.session schema arguments fun name => List.lookup name environment).run
  IO.print ending.output
  IO.eprint ending.notice
  if let some error := ending.error then
    IO.eprintln ("Error: " ++ error)
  return ending.exitCode.toUInt32
