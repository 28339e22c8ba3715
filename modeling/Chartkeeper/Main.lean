import Chartkeeper.Command
/-!
# The program

Reads what a command needs, carries the command out, and prints what it reports.
-/

namespace Chartkeeper

/-- Why the system could not read a file. -/
def readFault : IO.Error → ReadFault
  | .noFileOrDirectory .. => .missing
  | .permissionDenied .. => .denied
  | .inappropriateType _ 20 _ => .notFolder
  | .inappropriateType .. => .folder
  | failure => .other (toString failure)

/-- Reads what a command needs. -/
def fetch : Option Command.Source → IO (Except ReadFault String)
  | none => return .ok ""
  | some .input => do return textOfBytes (← (← IO.getStdin).readBinToEnd)
  | some (.file path) => do
    try return textOfBytes (← IO.FS.readBinFile path)
    catch failure => return .error (readFault failure)

/-- The variables that settings are read from. -/
def variableNames : List String :=
  ["HELM_MAX_HISTORY", "KRATEO_NAMESPACE", "SERVICE_ACCOUNT_NAME", "SERVICE_ACCOUNT_NAMESPACE",
    "RECONCILE_TIMEOUT_SECS"]

/-- Reads the variables that are set. -/
def readVariables : IO (List (String × String)) :=
  variableNames.filterMapM fun name => do return (← IO.getEnv name).map fun value => (name, value)

end Chartkeeper

open Chartkeeper in
/-- Runs the program: two for a wrong usage, one for a failure. -/
def main (words : List String) : IO UInt32 := do
  match Command.ofWords? words with
  | none =>
    IO.eprint Command.usage
    return 2
  | some command =>
    let content ← fetch command.source?
    let env ← readVariables
    match command.run content (fun name => env.lookup name) with
    | .printed output =>
      IO.print output
      return 0
    | .failed reason causes =>
      IO.eprint (Command.failureText reason causes)
      return 1
