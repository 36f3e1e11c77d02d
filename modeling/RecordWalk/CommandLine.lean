import RecordWalk.Config.Basic
import RecordWalk.Text.Quoted

/-!
# The command line

Arguments are read from left to right. An option takes a value, written in the next argument or in
the same one; a flag takes none. No option or flag but the fixture option may be given twice.

**Pending options.** An option whose value stands in the next argument is only settled when the
next option or flag comes, or at the end: then it has to have a value that fits. An argument that
is not known, or a flag with a value, is refused at once.

Reading stops early at the first argument that is refused, and at the flags for help and version.
-/

namespace RecordWalk.CommandLine

/-- Why reading stopped before the end. -/
inductive Stop where
  | unknownArgument
  | invalidValue
  | tooManyValues
  | argumentConflict
  | displayHelp
  | displayVersion
deriving DecidableEq

/-- Options, which take a value. -/
inductive Opt where
  | configFile | fixture | format
deriving DecidableEq

/-- Flags, which take none. -/
inductive Flag where
  | strict | list | debug | help | version
deriving DecidableEq

/-- What the command line asks for. -/
structure Arguments where
  configFile? : Option String
  fixtures : List String
  strict : Bool
  format? : Option ReportFormat
  list : Bool
  debug : Bool
deriving DecidableEq

def Arguments.empty : Arguments := ⟨none, [], false, none, false, false⟩

/-- The arguments settled so far, and the option not settled yet with the value found for it. -/
structure State where
  settled : Arguments
  pending : Option (Opt × Option String)

def State.start : State := ⟨.empty, none⟩

def Opt.ofName? (s : String) : Option Opt :=
  [("config-file", configFile), ("fixture", fixture), ("format", format)].lookup s

def Flag.ofName? (s : String) : Option Flag :=
  [("strict", strict), ("list", list), ("debug", debug), ("help", help),
    ("version", version)].lookup s

namespace Arguments

/-- Give an option its value. -/
def setOption (a : Arguments) (o : Opt) (value : String) : Except Stop Arguments :=
  match o with
  | .fixture => .ok { a with fixtures := a.fixtures ++ [value] }
  | .configFile =>
    if a.configFile?.isSome then .error .argumentConflict
    else if value.isEmpty then .error .invalidValue
    else .ok { a with configFile? := some value }
  | .format =>
    if a.format?.isSome then .error .argumentConflict
    else match ReportFormat.ofLabel? value with
      | some f => .ok { a with format? := some f }
      | none => .error .invalidValue

/-- Raise a flag. -/
def setFlag (a : Arguments) : Flag → Except Stop Arguments
  | .strict => if a.strict then .error .argumentConflict else .ok { a with strict := true }
  | .list => if a.list then .error .argumentConflict else .ok { a with list := true }
  | .debug => if a.debug then .error .argumentConflict else .ok { a with debug := true }
  | .help => .error .displayHelp
  | .version => .error .displayVersion

end Arguments

namespace State

/-- The arguments with the pending option settled. -/
def settle (s : State) : Except Stop Arguments :=
  match s.pending with
  | none => .ok s.settled
  | some (_, none) => .error .invalidValue
  | some (o, some value) => s.settled.setOption o value

/-- Take a flag. -/
def takeFlag (s : State) (f : Flag) : Except Stop State := do
  let a ← s.settle
  let a ← a.setFlag f
  .ok ⟨a, none⟩

/-- Take an option whose value is in the next argument. -/
def takeOption (s : State) (o : Opt) : Except Stop State := do
  let a ← s.settle
  .ok ⟨a, some (o, none)⟩

/-- Take an option together with its value. -/
def takeOptionValue (s : State) (o : Opt) (value : String) : Except Stop State := do
  let a ← s.settle
  let a ← a.setOption o value
  .ok ⟨a, none⟩

/-- Take an argument that is no option and no flag: it is a value, if one is missing. -/
def takePlain (s : State) (argument : String) : Except Stop State :=
  match s.pending with
  | some (o, none) => .ok ⟨s.settled, some (o, some argument)⟩
  | _ => .error .unknownArgument

/-- Take the name after two dashes, with the value after an equals sign. -/
def takeLong (s : State) (name : String) (value? : Option String) : Except Stop State :=
  match Opt.ofName? name, Flag.ofName? name, value? with
  | some o, _, some value => s.takeOptionValue o value
  | some o, _, none => s.takeOption o
  | none, some _, some _ => .error .tooManyValues
  | none, some f, none => s.takeFlag f
  | none, none, _ => .error .unknownArgument

/-- Take the letter after one dash, with the characters that follow it. -/
def takeShort (s : State) (letter : Char) (rest : List Char) : Except Stop State :=
  if letter = 'h' then s.takeFlag .help
  else if letter = 'V' then s.takeFlag .version
  else if letter = 'f' then
    match rest with
    | [] => s.takeOption .fixture
    | '=' :: value => s.takeOptionValue .fixture (String.ofList value)
    | value => s.takeOptionValue .fixture (String.ofList value)
  else .error .unknownArgument

/-- The text after the first equals sign. -/
def valuePart? (cs : List Char) : Option String :=
  match cs.dropWhile (· ≠ '=') with
  | [] => none
  | _ :: value => some (String.ofList value)

/-- Take an argument. -/
def take (s : State) (argument : String) : Except Stop State :=
  match argument.toList with
  | '-' :: '-' :: cs => s.takeLong (String.ofList (cs.takeWhile (· ≠ '='))) (valuePart? cs)
  | '-' :: letter :: rest => s.takeShort letter rest
  | _ => s.takePlain argument

end State

/-- Read arguments. After two dashes alone, no argument may follow. -/
def parseFrom : List String → State → Except Stop Arguments
  | [], s => s.settle
  | argument :: rest, s =>
    if argument = "--" then
      if rest.isEmpty then s.settle else .error .unknownArgument
    else do
      let s ← s.take argument
      parseFrom rest s

/-- Read the command line. -/
def parse (arguments : List String) : Except Stop Arguments := parseFrom arguments .start

namespace Arguments

/-- The layer that the command line puts on a configuration. -/
def layer (a : Arguments) : Layer where
  fixtures? := if a.fixtures.isEmpty then none else some a.fixtures
  strict? := if a.strict then some true else none
  format? := a.format?

end Arguments

end RecordWalk.CommandLine
