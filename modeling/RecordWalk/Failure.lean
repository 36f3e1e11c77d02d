import RecordWalk.Text.Quoted
import RecordWalk.Value.Basic

/-!
# Failures

A failure has a code, an optional message and an optional value that it carries. Its message is
its own one or, when it has none, that of its code.
-/

namespace RecordWalk

/-- The causes of a failure. -/
inductive FailureCode where
  | propertyNotFound
  | notFunction
  | thrown
deriving DecidableEq

namespace FailureCode

def label : FailureCode → String
  | propertyNotFound => "E_PROPNF"
  | notFunction => "E_NOTFN"
  | thrown => "E_THROWN"

/-- The message of a failure that has none of its own. -/
def message : FailureCode → String
  | propertyNotFound => "Property not found"
  | notFunction => "Value is not a function"
  | thrown => "Uncaught exception"

end FailureCode

structure Failure where
  code : FailureCode
  message? : Option String
  value? : Option Value

namespace Failure

/-- The look-up of a name that a record lacks. -/
def propertyNotFound (name : String) : Failure :=
  ⟨.propertyNotFound, some ("Property not found: " ++ quote name), none⟩

/-- The call of a value that is no function. -/
def notFunction (v : Value) : Failure :=
  ⟨.notFunction, some (v.kind.typeof ++ " is not a function"), none⟩

def message (f : Failure) : String := f.message?.getD f.code.message

/-- The code, with the failure's own message in parentheses. -/
def display (f : Failure) : String :=
  match f.message? with
  | some m => f.code.label ++ " (" ++ m ++ ")"
  | none => f.code.label

/-- The code, with the failure's own message quoted in parentheses. -/
def debug (f : Failure) : String :=
  match f.message? with
  | some m => f.code.label ++ "(" ++ quote m ++ ")"
  | none => f.code.label

end Failure

/-- The value of a property of a record, or a failure. -/
def Record.get (r : Record Value) (name : String) : Except Failure Value :=
  match r.get? name with
  | some v => .ok v
  | none => .error (.propertyNotFound name)

end RecordWalk
