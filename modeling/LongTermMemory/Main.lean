import LongTermMemory.CommandLine.Use
import LongTermMemory.Storage.Saved
import LongTermMemory.Version
import Std.Time.DateTime.Timestamp

/-!
The command line program. It reads the arguments, the configuration file and the store, runs the
command, writes the store back and prints what the command says.
-/

namespace LongTermMemory.CommandLine

def usage : String :=
  "Usage: ltm [OPTIONS] <COMMAND>\n\nCommands:\n" ++
    String.join (commands.map fun c => "  " ++ c.name ++ "\n") ++ "\nOptions:\n" ++
    String.join (callForm.options.map fun o => "  --" ++ o.name ++ "\n")

def currentTime : IO Instant := do
  let t ← Std.Time.Timestamp.now
  pure ⟨t.toMillisecondsSinceUnixEpoch.val⟩

def environment : IO (List (String × String)) := do
  let mut found := []
  for (_, name) in variableNames do
    if let some value ← IO.getEnv name then
      found := (name, value) :: found
  pure found

def isFolder (path : String) : IO Bool := do
  try
    let found ← IO.FS.realPath path
    found.isDir
  catch _ => pure false

/-- What stands at a path, with its size in bytes. A file that is no text is no database. -/
def placeAt (path : String) : IO (Place × Nat) := do
  if (← isFolder path) || !(← isFolder ((Address.folderOf? path).getD ".")) then
    return (.unreachable, 0)
  try
    let bytes ← IO.FS.readBinFile path
    pure ((String.fromUTF8? bytes).elim .foreign Place.ofText, bytes.size)
  catch
    | .noFileOrDirectory .. => pure (.absent, 0)
    | e => throw e

/-- Runs a command once, or again and again, and answers the exit code. -/
partial def runCommand (engine : Engine) (c : Call) : IO UInt32 := do
  let storage := engine.config.storage
  if let some folder := Address.folderOf? storage.path then
    IO.FS.createDirAll folder
  let (place, storeSize) ← match storage.file? with
    | none => pure (.absent, 0)
    | some path => placeAt path
  let now ← currentTime
  let (said, left) := c.answer { engine, owner := c.owner, now, storeSize } place
  if let (some path, some text) := (storage.file?, left.text?) then
    if place.text? ≠ some text then
      IO.FS.writeFile path text
  match said with
  | .error failure =>
    IO.eprintln failure.report
    pure 1
  | .ok output =>
    IO.print output.printed
    match c.command.interval? with
    | none => pure 0
    | some seconds =>
      (← IO.getStdout).flush
      IO.sleep (UInt32.ofNat (min (1000 * seconds) 4294967295))
      runCommand engine c

def runCall (c : Call) : IO UInt32 := do
  let home ← IO.getEnv "HOME"
  let contents ← match c.configPath home with
    | none => pure none
    | some path => some <$> IO.FS.readFile path
  match c.engine home contents with
  | .error failure =>
    IO.eprintln failure.report
    pure 1
  | .ok engine =>
    if let some warning := engine.config.storage.warning? then
      IO.eprintln warning
    runCommand engine c

def answerTo (args : List String) : IO UInt32 := do
  match Call.read (← environment) args with
  | .error .refused =>
    IO.eprint usage
    pure 2
  | .error .help =>
    IO.print usage
    pure 0
  | .error .version =>
    IO.println banner
    pure 0
  | .ok call =>
    try runCall call
    catch e =>
      IO.eprintln ("Error: " ++ toString e)
      pure 1

end LongTermMemory.CommandLine

def main (args : List String) : IO UInt32 := LongTermMemory.CommandLine.answerTo args
