import DiagramShare.Startup

/-!
The command line of the server. Variables are those of the process and of the file for them. There is
no connection to a database here, no directory is made and no address is listened at, so that the
server reads its settings and then gives up, with the reason on standard error.
-/
namespace DiagramShare

def processVariables : IO Settings.Environment := do
  try
    let content ← IO.FS.readFile "/proc/self/environ"
    return (Text.splitWhere (· == '\x00') content.toList).filterMap fun entry =>
      (Text.splitFirst? (· == '=') entry).map fun (name, value) =>
        (String.ofList name, String.ofList value)
  catch _ => return []

def fileContent? (path : String) : IO (Option String) := do
  try return some (← IO.FS.readFile path)
  catch _ => return none

def filesAt (paths : List String) : IO (String → Option String) := do
  let contents ← paths.mapM fun path => return (path, ← fileContent? path)
  return fun path => (contents.lookup path).join

end DiagramShare

open DiagramShare

/-- Tries to start the server. It never starts: `reachesDatabase`, `makesDirectory` and `listens` are
constantly false here. With settings that are in order the reason is the database. -/
def main : IO UInt32 := do
  let environment ← processVariables
  let known := Startup.withFile environment (← fileContent? Startup.variableFile)
  let settingsPath := (Settings.Environment.get? known Settings.pathVariable).getD Settings.defaultPath
  let surroundings : Surroundings := {
    environment := environment
    file := ← filesAt [Startup.variableFile, settingsPath]
    reachesDatabase := fun _ => false
    makesDirectory := fun _ => false
    listens := fun _ _ => false }
  match Startup.run surroundings with
  | .ok _ => return 0
  | .error e =>
    IO.eprintln s!"Error: {e.message}"
    return 1
