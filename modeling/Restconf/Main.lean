import Restconf.Http.Console
import Restconf.Settings.Arguments
import Restconf.Settings.Seed
import Restconf.Settings.Startup

/-!
# The program

Reads the settings and the first document of the datastore, and then answers the requests of
standard input, one on each line, until it ends.
-/

namespace Restconf

/-- What the program prints when it is asked for help. -/
def usage : String :=
  "Usage: restconf [OPTIONS] [config.toml]

Options:
  -d, --data <file.json>  The document that the datastore begins with
  -h, --help              Print this message

Each line of standard input is a request: the method, the URI and the body."

/-- The content of a file, if it can be read. -/
def contentOf (file : String) : IO (Option String) := do
  try return some (← IO.FS.readFile file)
  catch _ => return none

/-- The settings that the command line names. -/
def loadSettings : Option String → IO Settings
  | none => return {}
  | some file => do
    match Settings.ofFile file (← contentOf file) with
    | .ok settings => return settings
    | .error (.invalid file (.flawed flaw)) =>
      throw <| IO.userError
        ((SettingsFileFault.invalid file (.flawed flaw)).message ++ ": " ++ flaw.message)
    | .error fault => throw <| IO.userError fault.message

/-- The nodes of the document that the command line names. -/
def loadNodes : Option String → IO (List Node)
  | none => return []
  | some file => do
    match Seed.ofFile file (← contentOf file) with
    | .ok nodes => return nodes
    | .error fault => throw <| IO.userError fault.message

/-- Prints lines. -/
def printLines (lines : List String) : IO Unit := do
  for line in lines do
    IO.println line
  (← IO.getStdout).flush

/-- Answers the lines of standard input. -/
partial def answerLines (console : Console) : IO Unit := do
  let line ← (← IO.getStdin).getLine
  if line.isEmpty then printLines console.close
  else
    let (lines, console) := console.respond (line.dropEndWhile Char.isWhitespace).toString
    printLines lines
    answerLines console

/-- Serves what the command line names. -/
def serve (arguments : Arguments) : IO Unit := do
  let settings ← loadSettings arguments.config
  let nodes ← loadNodes arguments.data
  match Gateway.start settings nodes with
  | .ok gateway => answerLines { gateway }
  | .error flaw => throw <| IO.userError flaw.message

end Restconf

/-- Runs the program. -/
def main (arguments : List String) : IO Unit := do
  match Restconf.Invocation.parse arguments with
  | .ok .help => IO.eprintln Restconf.usage
  | .ok (.serve arguments) => Restconf.serve arguments
  | .error flaw => throw <| IO.userError flaw.message
