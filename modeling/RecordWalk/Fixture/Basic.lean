import RecordWalk.Value.Equality
import RecordWalk.Walk

/-!
# Fixtures

A fixture builds a record and makes a list of checks on it, in order, up to the first error. A
check states an assertion, walks the record and asserts something of what came out, or raises a
failure. The record is built once, so what the callables do to the state carries over from one
check to the next.

The tally counts the assertions made, the failing one included. A fixture is expected to pass, or
it is a known discrepancy, with the reason why it should fail.
-/

namespace RecordWalk

/-- Why a fixture did not pass. -/
inductive FixtureError where
  | assertion (diagnostic : String)
  | raised (f : Failure)
  | unknown (name : String)

namespace FixtureError

def message : FixtureError → String
  | assertion diagnostic => "Assertion failed: " ++ diagnostic
  | raised f => "Fixture raised " ++ f.display
  | unknown name => "Unknown fixture: " ++ name

/-- The kind of error, with its content in parentheses. -/
def debug : FixtureError → String
  | assertion diagnostic => "Assertion(" ++ quote diagnostic ++ ")"
  | raised f => "Value(" ++ f.debug ++ ")"
  | unknown name => "UnknownFixture(" ++ quote name ++ ")"

end FixtureError

/-- A condition, and what to say if it does not hold. -/
structure Assertion where
  holds : Bool
  diagnostic : String

/-- The number of assertions made. -/
structure Tally where
  checked : Nat
deriving DecidableEq

namespace Tally

def zero : Tally := ⟨0⟩

/-- Count an assertion, and fail unless it holds. -/
def assert (t : Tally) (a : Assertion) : Except FixtureError Unit × Tally :=
  (if a.holds then .ok () else .error (.assertion a.diagnostic), ⟨t.checked + 1⟩)

/-- Make assertions up to the first that fails. -/
def assertAll (t : Tally) : List Assertion → Except FixtureError Unit × Tally
  | [] => (.ok (), t)
  | a :: rest =>
    match t.assert a with
    | (.ok (), t) => t.assertAll rest
    | (.error e, t) => (.error e, t)

/-- Make all assertions, whether they hold or not; each with its outcome and the tally after it. -/
def assertEach (t : Tally) : List Assertion → List (Except FixtureError Unit × Tally)
  | [] => []
  | a :: rest => t.assert a :: (t.assert a).2.assertEach rest

end Tally

/-- What a check asserts of the outcome of a walk; a failure ends the fixture. -/
abbrev Judge := Except Failure String → Except Failure (List Assertion)

inductive Check where
  | assert (a : Assertion)
  | walk (judge : Judge)
  | raise (f : Failure)

namespace Check

/-- The walk gives a text that is loosely equal to a value. -/
def looselyEquals (v : Value) (diagnostic : String) : Check :=
  walk fun
    | .ok s => .ok [⟨(Value.text s).looseEq v, diagnostic⟩]
    | .error f => .error f

/-- The walk gives a certain text. -/
def equals (text diagnostic : String) : Check :=
  walk fun
    | .ok s => .ok [⟨s == text, diagnostic⟩]
    | .error f => .error f

/-- The assertion that a failure has a certain code. -/
def codeAssertion (code : FailureCode) (f : Failure) : Assertion :=
  ⟨f.code == code, "expected " ++ code.label ++ ", got " ++ f.display⟩

/-- The walk fails with a certain code. -/
def failsWith (code : FailureCode) : Check :=
  walk fun
    | .ok s => .ok [⟨false, "expected " ++ code.label ++ ", got " ++ quote s⟩]
    | .error f => .ok [codeAssertion code f]

/-- The walk throws a certain text. -/
def throwsText (text : String) : Check :=
  walk fun
    | .ok s => .ok [⟨false, "expected a throw, got " ++ quote s⟩]
    | .error f => .ok [codeAssertion .thrown f,
        ⟨f.value?.any fun v => v.strictEq (.text text), "thrown value is " ++ quote text⟩]

end Check

inductive Expectation where
  | pass
  | knownDiscrepancy (reason : String)

variable {σ : Type}

/-- A named list of checks on a record. -/
structure Fixture (σ : Type) where
  name : String
  description : String
  expectation : Expectation
  /-- Build the record anew. -/
  record : σ → Record Value × σ
  checks : List Check

namespace Check

/-- Make a check on a record. -/
def run (invoke : Invoke σ) (r : Record Value) (c : Check) (t : Tally) (s : σ) :
    Except FixtureError Unit × Tally × σ :=
  match c with
  | assert a =>
    let (outcome, t) := t.assert a
    (outcome, t, s)
  | walk judge =>
    let (outcome, s) := r.walk invoke s
    match judge outcome with
    | .ok assertions =>
      let (outcome, t) := t.assertAll assertions
      (outcome, t, s)
    | .error f => (.error (.raised f), t, s)
  | raise f => (.error (.raised f), t, s)

/-- Make checks up to the first error. -/
def runAll (invoke : Invoke σ) (r : Record Value) :
    List Check → Tally → σ → Except FixtureError Unit × Tally × σ
  | [], t, s => (.ok (), t, s)
  | c :: rest, t, s =>
    match c.run invoke r t s with
    | (.ok (), t, s) => runAll invoke r rest t s
    | (.error e, t, s) => (.error e, t, s)

end Check

/-- Build the record of a fixture and make its checks. -/
def Fixture.run (invoke : Invoke σ) (fixture : Fixture σ) (t : Tally) (s : σ) :
    Except FixtureError Unit × Tally × σ :=
  let (r, s) := fixture.record s
  Check.runAll invoke r fixture.checks t s

/-- Run a fixture so many times with one tally; each run with its outcome and the tally after it. -/
def Fixture.runTimes (invoke : Invoke σ) (fixture : Fixture σ) :
    Nat → Tally → σ → List (Except FixtureError Unit × Tally)
  | 0, _, _ => []
  | n + 1, t, s =>
    let (outcome, t, s) := fixture.run invoke t s
    (outcome, t) :: fixture.runTimes invoke n t s

end RecordWalk
