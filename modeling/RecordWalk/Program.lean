import RecordWalk.CommandLine
import RecordWalk.Config.File
import RecordWalk.Fixture.Run
import RecordWalk.Report.Json
import RecordWalk.Report.Text

/-!
# The program

The program runs the fixtures that the command line and the configuration file select, and prints
their report. The configuration is the default one under the layer of the file under the layer of
the command line. `Program.run` gives the exit code and the output as a function of the arguments
and of the texts of the files.
-/

namespace RecordWalk

/-- Why a configuration cannot be had. -/
inductive ConfigError where
  | missing (path : String)
  | invalid (path : String)
deriving DecidableEq

def ConfigError.message : ConfigError → String
  | missing path => "Configuration file " ++ quote path ++ " does not exist"
  | invalid path => "Failed to parse configuration from " ++ quote path

namespace CommandLine.Arguments

/-- The layer of the configuration file, if there is one. -/
def fileLayer (a : Arguments) (files : String → Option String) : Except ConfigError Layer :=
  match a.configFile? with
  | none => .ok .empty
  | some path =>
    match files path with
    | none => .error (.missing path)
    | some contents =>
      match Layer.ofFileText? contents with
      | some l => .ok l
      | none => .error (.invalid path)

/-- The configuration under all layers. -/
def config (a : Arguments) (files : String → Option String) : Except ConfigError Config :=
  (a.fileLayer files).map fun file => (Config.default.overlay file).overlay a.layer

end CommandLine.Arguments

namespace Program

def name : String := "forin-runner"

def versionText : String := name ++ " 0.1.0\n"

/-- Why the program ended without a report. -/
inductive Problem where
  | usage (stop : CommandLine.Stop)
  | config (e : ConfigError)
  | fixture (e : FixtureError)

/-- The exit code, what goes to standard output, and what went wrong. -/
structure Result where
  exit : Nat
  output : String
  problem? : Option Problem

/-- The line of a fixture in the listing. -/
def listLine (fixture : Fixture Store) : String :=
  alignLeft 18 fixture.name ++ " " ++ fixture.description ++
    (if fixture.expectation.reason?.isSome then " [known discrepancy]" else "")

/-- The listing of the catalogue. -/
def listing : String := unlines (catalogue.map listLine)

/-- The report in the format that the configuration asks for. -/
def render (report : Report) : ReportFormat → String
  | .text => report.text
  | .json => report.jsonText ++ "\n"

/-- Run the fixtures of a configuration. -/
def runConfig (c : Config) : Result :=
  match c.run with
  | .ok report => ⟨if report.isSuccess then 0 else 1, render report c.format, none⟩
  | .error e => ⟨1, "", some (.fixture e)⟩

/-- Do what the command line asks for. The listing needs no configuration. -/
def runArguments (a : CommandLine.Arguments) (files : String → Option String) : Result :=
  if a.list then ⟨0, listing, none⟩
  else match a.config files with
    | .ok c => runConfig c
    | .error e => ⟨1, "", some (.config e)⟩

/-- Run the program. The text of the help is left out: asked for help, the program gives no
output. -/
def run (arguments : List String) (files : String → Option String) : Result :=
  match CommandLine.parse arguments with
  | .ok a => runArguments a files
  | .error .displayHelp => ⟨0, "", none⟩
  | .error .displayVersion => ⟨0, versionText, none⟩
  | .error stop => ⟨2, "", some (.usage stop)⟩

end Program

end RecordWalk
