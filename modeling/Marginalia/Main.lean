import Marginalia.CommandLine

/-!
# The program

Reads the two files that an invocation names, runs it on them, and writes what it left behind.
-/

namespace Marginalia.Main

/-- The content of a file, or why it cannot be read. -/
def readFile (path : Text) : IO (Except FileFault Text) := do
  try
    let content ← IO.FS.readFile (String.ofList path)
    return .ok content.toList
  catch
    | .noFileOrDirectory .. => return .error .missing
    | .inappropriateType .. => return .error .notDirectory
    | .userError .. => return .error .notText
    | _ => return .error .isDirectory

/-- The name and version, as they are told on request. -/
def nameAndVersion : String := "codenotes 0.3.0"

/-- How the program is used. -/
def usage : String := "Usage: codenotes [--config FILE] annotate|repair [OPTIONS] FILE"

/-- Runs an invocation on the files it names. -/
def execute (i : CommandLine.Invocation) : IO UInt32 := do
  let config ← readFile i.configPath
  let source ← readFile i.sourcePath
  let files : Files := fun path => if path = i.configPath then config else source
  match CommandLine.run? files i with
  | none =>
    IO.eprintln "Error: the calls in the source cannot be completed"
    return 1
  | some r =>
    for (path, content) in r.created do
      IO.FS.writeFile (String.ofList path) (String.ofList content)
    IO.print (String.ofList r.stdout)
    IO.eprint (String.ofList r.stderr)
    return .ofNat r.exitCode

end Marginalia.Main

def main (args : List String) : IO UInt32 := do
  match Marginalia.CommandLine.asked (args.map String.toList) with
  | .run i => Marginalia.Main.execute i
  | .help =>
    IO.println Marginalia.Main.usage
    return 0
  | .version =>
    IO.println Marginalia.Main.nameAndVersion
    return 0
  | .unclear =>
    IO.eprintln Marginalia.Main.usage
    return 2
