import OutcomeRelay.CommandLine.Service
import OutcomeRelay.Log.Filter
import OutcomeRelay.Log.Line

/-!
The program. It reads the files that its arguments and its environment name, runs, prints its log,
and tells by its exit code whether it failed.
-/

namespace OutcomeRelay.CommandLine

def fileNames (environment : List (String × String)) (arguments : List String) : List String :=
  match parse arguments with
  | .error _ => []
  | .ok i =>
    let named := i.configPath.toList ++ (environment.lookup Config.fileVariable).toList
    (Config.defaultFile :: named).flatMap Config.candidates ++
      match i.action with
      | .publish file => [file]
      | .consume _ => []

def readFile? (name : String) : IO (Option (String × Bytes)) := do
  try
    let content ← IO.FS.readBinFile name
    return some (name, content.toList)
  catch _ => return none

def readVariable? (name : String) : IO (Option (String × String)) := do
  return (← IO.getEnv name).map fun value => (name, value)

def runProgram (arguments : List String) : IO UInt32 := do
  let environment ← (Log.filterVariable :: Config.variableNames).filterMapM readVariable?
  let files ← (fileNames environment arguments).filterMapM readFile?
  let finished := run { file? := fun name => files.lookup name, environment } "0" arguments
  let filter := Log.Filter.ofSetting (environment.lookup Log.filterVariable)
  for entry in finished.log do
    if filter.lets entry then IO.println entry.line
  match finished.result with
  | .ok _ => return 0
  | .error _ => return 1

end OutcomeRelay.CommandLine

def main (arguments : List String) : IO UInt32 :=
  OutcomeRelay.CommandLine.runProgram arguments
