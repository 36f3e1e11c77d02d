import RecordWalk.Program

/-!
The command: reads the configuration file that the arguments name, runs the program, and prints.
-/

namespace RecordWalk.Program

/-- What to say about a problem. -/
def Problem.text : Problem → String
  | .usage .unknownArgument => "error: unexpected argument found"
  | .usage .invalidValue => "error: a value is missing or invalid"
  | .usage .tooManyValues => "error: unexpected value for a flag"
  | .usage _ => "error: an argument cannot be used multiple times"
  | .config e => "Error: " ++ e.message
  | .fixture e => "Error: " ++ e.message

/-- The text of a configuration file. A directory sets nothing; a file that is there but cannot be
read is no valid one. -/
def configText (path : String) : IO (Except ConfigError String) := do
  match ← (IO.FS.Handle.mk path .read).toBaseIO with
  | .error (.permissionDenied ..) => return .error (.invalid path)
  | .error _ => return .error (.missing path)
  | .ok handle =>
    match ← handle.readToEnd.toBaseIO with
    | .ok text => return .ok text
    -- Only a directory can be opened and then not be of a type to read from.
    | .error (.inappropriateType ..) => return .ok ""
    | .error _ => return .error (.invalid path)

/-- Run the program with the file that the arguments name. The listing reads no file. -/
def runWithFile (arguments : List String) : IO Result := do
  match CommandLine.parse arguments with
  | .ok { configFile? := some path, list := false, .. } =>
    match ← configText path with
    | .ok text => return run arguments fun p => if p = path then some text else none
    | .error e => return ⟨1, "", some (.config e)⟩
  | _ => return run arguments fun _ => none

end RecordWalk.Program

open RecordWalk

def main (arguments : List String) : IO UInt32 := do
  let result ← Program.runWithFile arguments
  IO.print result.output
  if let some problem := result.problem? then
    IO.eprintln problem.text
  return result.exit.toUInt32
