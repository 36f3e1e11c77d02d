import RecordWalk.Config.Basic
import RecordWalk.Fixture.Catalogue
import RecordWalk.Report.Basic

/-!
# Running fixtures

A fixture is run with a tally of its own, and its outcome is judged against what was expected of
it. A configuration selects the fixtures to run: the named ones in the order of their names, or the
whole catalogue. All names are looked up before anything runs.
-/

namespace RecordWalk

variable {σ : Type}

namespace Expectation

/-- The outcome of a fixture that passed or not. -/
def outcome : Expectation → Bool → Outcome
  | pass, true => .passed
  | pass, false => .failed
  | knownDiscrepancy _, true => .unexpectedPass
  | knownDiscrepancy _, false => .expectedFailure

def reason? : Expectation → Option String
  | pass => none
  | knownDiscrepancy reason => some reason

end Expectation

namespace Fixture

/-- The result of a fixture whose checks ended in a certain way. -/
def resultOf (fixture : Fixture σ) (outcome : Except FixtureError Unit) (t : Tally) :
    FixtureResult where
  name := fixture.name
  outcome := fixture.expectation.outcome outcome.isOk
  assertions := t.checked
  diagnostic? := match outcome with
    | .ok () => none
    | .error e => some e.message
  discrepancy? := fixture.expectation.reason?

/-- Run a fixture for its result. -/
def result (invoke : Invoke σ) (fixture : Fixture σ) (s : σ) : FixtureResult × σ :=
  let (outcome, t, s) := fixture.run invoke .zero s
  (fixture.resultOf outcome t, s)

/-- Run fixtures one after the other for their results. -/
def results (invoke : Invoke σ) : List (Fixture σ) → σ → List FixtureResult × σ
  | [], s => ([], s)
  | fixture :: rest, s =>
    let (r, s) := fixture.result invoke s
    let (rs, s) := results invoke rest s
    (r :: rs, s)

end Fixture

namespace Config

/-- The fixtures that a configuration selects. -/
def selection (c : Config) : Except FixtureError (List (Fixture Store)) :=
  if c.fixtures.isEmpty then .ok catalogue else c.fixtures.mapM findFixture

/-- The report of a run, or the first name that is not in the catalogue. -/
def run (c : Config) : Except FixtureError Report :=
  match c.selection with
  | .ok fixtures => .ok ⟨(Fixture.results Store.invoke fixtures .empty).1, c.strict⟩
  | .error e => .error e

end Config

end RecordWalk
