import UiScenario.Command

/-!
The program: reads the files of a command, runs it, and writes what it tells.
-/

namespace UiScenario

def fileReason : IO.Error → String
  | .noFileOrDirectory .. => "No such file or directory (os error 2)"
  | e => toString e

def readFile (name : String) : IO (String × Except String String) := do
  try
    return (name, .ok (← IO.FS.readFile name))
  catch e =>
    return (name, .error (fileReason e))

def writeOutput : Command.Output → IO Unit
  | .standard text => IO.print text
  | .error text => IO.eprint text
  | .file name text => IO.FS.writeFile name text

def runCommand (c : Command) : IO UInt32 := do
  let files ← c.inputFiles.mapM readFile
  let input ← (← IO.getStdin).readToEnd
  let missing : Except String String := .error "No such file or directory (os error 2)"
  let outcome := c.run (fun name => (files.lookup name).getD missing) input
  try
    outcome.outputs.forM writeOutput
    return outcome.exit.toUInt32
  catch e =>
    IO.eprintln (Command.Failure.file (fileReason e)).message
    return 1

end UiScenario

def main (arguments : List String) : IO UInt32 := do
  match UiScenario.Command.read? arguments with
  | some c => UiScenario.runCommand c
  | none =>
    IO.eprintln "usage: vero [-v] tokens|check|compile|explain ..."
    return 2
