import InfraOperator.CommandLine
import InfraOperator.Json.Printer
import InfraOperator.Manifest.Kinds

/-!
# The program

Reads the command line and prints the manifests if asked for. Running the controllers takes a
connection to an API server, which whoever embeds the library gives as an answer to its requests;
the program by itself has none.
-/

set_option autoImplicit false

namespace InfraOperator.Main

open CommandLine

def environment : IO (Dict String) := do
  let mut env : Dict String := ∅
  for name in options.filterMap (·.envName) do
    if let some value ← IO.getEnv name then env := env.insert name value
  return env

def run (i : Invocation) : IO UInt32 := do
  if i.crd then
    for manifest in Manifest.all do
      IO.println ("---\n" ++ manifest.toJson.pretty)
    return 0
  else
    IO.eprintln "Error: Failed to create Kubernetes client: no API server is connected"
    return 1

def refuse (r : Refusal) : IO UInt32 := do
  match r with
  | .displayHelp | .displayVersion =>
    IO.println r.message
    return 0
  | _ =>
    IO.eprintln r.message
    return 2

end InfraOperator.Main

def main (args : List String) : IO UInt32 := do
  match InfraOperator.CommandLine.parse args (← InfraOperator.Main.environment) with
  | .ok invocation => InfraOperator.Main.run invocation
  | .error r => InfraOperator.Main.refuse r
