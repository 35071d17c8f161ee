import IamKeeper.Json.Writer
import IamKeeper.Resource.Definition
import IamKeeper.Settings

namespace IamKeeper

/-- The variables of the environment that stand in for flags. -/
def readEnvironment : IO (List (String × String)) :=
  Flag.all.filterMapM fun flag => do
    let value ← IO.getEnv flag.variableName
    return value.map (flag.variableName, ·)

def printDefinition (kind : Kind) : IO Unit := do
  IO.println "---"
  IO.println kind.definition.compact

/-- Carries out the command; the result is the exit code. -/
def runCommand (arguments : List String) : IO UInt32 := do
  let environment ← readEnvironment
  match Settings.read arguments fun name => environment.lookup name with
  | .ok settings =>
    IO.eprintln settings.summary
    Kind.all.forM printDefinition
    return 0
  | .error stop =>
    if stop.isRequest then
      IO.println stop.message
      return 0
    else
      IO.eprintln stop.message
      return 2

end IamKeeper

def main (arguments : List String) : IO UInt32 :=
  IamKeeper.runCommand arguments
