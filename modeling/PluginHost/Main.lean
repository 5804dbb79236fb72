import PluginHost.CommandLine.Run
import PluginHost.CommandLine.Usage
import PluginHost.Json.Reader
import PluginHost.Scripted

/-!
# The program

The files that a command works on come in on standard input, as a JSON object from paths to
contents: a text for a file, `null` for a directory. The settings in force come from the
environment, and so does the home directory; no other list of users is asked. What a command
prints goes to standard output and standard error.
-/
namespace PluginHost.Program

/-- Reads everything that is left of a stream. -/
partial def readRest (input : IO.FS.Stream) (text : String) : IO String := do
  let line ← input.getLine
  if line.isEmpty then return text
  readRest input (text ++ line)

/-- The node that a member stands for. -/
def nodeOfMember : Json → Node
  | .string s => .file (Text.utf8 s)
  | _ => .directory

/-- The files that a text describes. -/
def filesOfText (text : String) : FileTree :=
  match Json.read? text with
  | some (.object members) => FileTree.ofList (members.map fun m => (m.1, nodeOfMember m.2))
  | _ => FileTree.empty

/-- The variables of the environment that are read. -/
def readEnvironment : IO Environment := do
  let mut env : Environment := ∅
  for name in Environment.variableNames do
    if let some value ← IO.getEnv name then
      env := env.insert name value
  return env

/-- The home directory, if the environment names one. -/
def readHome : IO (Option String) := do
  return (← IO.getEnv "HOME").filter (· ≠ "")

/-- Prints lines to a stream. -/
def printLines (output : IO.FS.Stream) (lines : List String) : IO Unit := do
  output.putStr (CommandLine.printed lines)
  output.flush

/-- Waits until the program is interrupted. -/
partial def waitForever : IO UInt32 := do
  IO.sleep 1000
  waitForever

/-- Prints what a command printed and ends as it ended. -/
def conclude (o : CommandLine.Output) : IO UInt32 := do
  printLines (← IO.getStderr) o.err
  printLines (← IO.getStdout) o.out
  match o.ending with
  | .status code => return code.toUInt32
  | .interrupted => waitForever

end PluginHost.Program

open PluginHost Program in
/-- Runs the program. -/
def main (arguments : List String) : IO UInt32 := do
  match CommandLine.Invocation.ofArguments arguments with
  | .help =>
    printLines (← IO.getStdout) CommandLine.usage
    return 0
  | .misuse =>
    printLines (← IO.getStderr) CommandLine.usage
    return 2
  | .version command =>
    printLines (← IO.getStdout) [CommandLine.versionLine command]
    return 0
  | .invocation i =>
    let files := filesOfText (← readRest (← IO.getStdin) "")
    let setting : CommandLine.Setting Scripted.World :=
      { plugins := Scripted.plugins
        world := Scripted.World.empty
        environment := ← readEnvironment
        home := ← readHome
        files }
    conclude (CommandLine.execute setting i)
