/-!
# Reports

A report lists the results of fixtures in the order in which they ran. A run is a success if all
fixtures passed; a known discrepancy that failed as expected does no harm unless the report is
strict.
-/

namespace RecordWalk

/-- How a fixture ended, compared with what was expected of it. -/
inductive Outcome where
  | passed
  | failed
  | expectedFailure
  | unexpectedPass
deriving DecidableEq

namespace Outcome

def display : Outcome → String
  | passed => "passed"
  | failed => "FAILED"
  | expectedFailure => "expected failure"
  | unexpectedPass => "UNEXPECTED PASS"

end Outcome

structure FixtureResult where
  name : String
  outcome : Outcome
  /-- The number of assertions made. -/
  assertions : Nat
  diagnostic? : Option String
  /-- Why the fixture is expected to fail, if it is. -/
  discrepancy? : Option String
deriving DecidableEq

structure Report where
  results : List FixtureResult
  strict : Bool
deriving DecidableEq

namespace Report

/-- The number of fixtures that ended in a certain way. -/
def count (r : Report) (outcome : Outcome) : Nat := r.results.countP (·.outcome == outcome)

def isSuccess (r : Report) : Bool :=
  r.results.all fun result =>
    match result.outcome with
    | .passed => true
    | .expectedFailure => !r.strict
    | _ => false

end Report

end RecordWalk
