import RecordWalk.Json.Parse
import RecordWalk.Json.Write
import RecordWalk.Report.Basic

/-!
# Reports as JSON

A report is written as an object with all members in a fixed order. It is read from an object with
its members in any order and others among them, or from an array of all its fields in order; the
same goes for each result. A diagnostic or a discrepancy that is absent is null or left out.
-/

namespace RecordWalk

namespace Outcome

/-- The name of an outcome in JSON. -/
def label : Outcome → String
  | passed => "passed"
  | failed => "failed"
  | expectedFailure => "expected_failure"
  | unexpectedPass => "unexpected_pass"

def ofLabel? (s : String) : Option Outcome :=
  [passed, failed, expectedFailure, unexpectedPass].find? (·.label == s)

end Outcome

namespace FixtureResult

def toJson (r : FixtureResult) : Json :=
  .ofMembers [("name", .ofText r.name), ("outcome", .ofText r.outcome.label),
    ("assertions", .ofNat r.assertions), ("diagnostic", .ofText? r.diagnostic?),
    ("discrepancy", .ofText? r.discrepancy?)]

/-- The number of assertions fits in 64 bits. -/
def assertions? : Json → Option Nat := Json.toNatBelow? UInt64.size

/-- The result with certain members. -/
def ofMembers? (members : List (String × Json)) : Option FixtureResult := do
  let name ← Json.required? "name" Json.toText? members
  let outcome ← Json.required? "outcome" (Json.toNamed? Outcome.ofLabel?) members
  let assertions ← Json.required? "assertions" assertions? members
  let diagnostic? ← Json.optional? "diagnostic" none Json.toOptionalText? members
  let discrepancy? ← Json.optional? "discrepancy" none Json.toOptionalText? members
  some { name, outcome, assertions, diagnostic?, discrepancy? }

def ofJson? : Json → Option FixtureResult
  | .array [name, outcome, assertions, diagnostic, discrepancy] => do
    let name ← name.toText?
    let outcome ← outcome.toNamed? Outcome.ofLabel?
    let assertions ← assertions? assertions
    let diagnostic? ← diagnostic.toOptionalText?
    let discrepancy? ← discrepancy.toOptionalText?
    some { name, outcome, assertions, diagnostic?, discrepancy? }
  | j => j.toMembers? >>= ofMembers?

end FixtureResult

namespace Report

def toJson (r : Report) : Json :=
  .ofMembers [("results", .array (r.results.map FixtureResult.toJson)),
    ("strict_discrepancies", .bool r.strict)]

/-- The report with certain members. -/
def ofMembers? (members : List (String × Json)) : Option Report := do
  let results ← Json.required? "results" (Json.toList? FixtureResult.ofJson?) members
  let strict ← Json.required? "strict_discrepancies" Json.toBool? members
  some { results, strict }

def ofJson? : Json → Option Report
  | .array [results, strict] => do
    let results ← results.toList? FixtureResult.ofJson?
    let strict ← strict.toBool?
    some { results, strict }
  | j => j.toMembers? >>= ofMembers?

/-- The report as pretty JSON text. -/
def jsonText (r : Report) : String := r.toJson.pretty

/-- The report that a JSON text holds. -/
def ofJsonText? (s : String) : Option Report := Json.parse? s >>= ofJson?

end Report

end RecordWalk
