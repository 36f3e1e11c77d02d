import RecordWalk.Fixture.Basic
import RecordWalk.Script.Store

/-!
# Scripted fixtures

A fixture can be described by a script, like a value or a function. The values that its checks
hold are built with the fixture, in the order of the checks; its record is built when it runs.
-/

namespace RecordWalk

/-- The description of a check. -/
inductive CheckExpr where
  | assert (a : Assertion)
  | looselyEquals (e : Expr) (diagnostic : String)
  | equals (text diagnostic : String)
  | failsWith (code : FailureCode)
  | raise (f : FailureExpr)

/-- The check of a description. -/
def CheckExpr.build (scope : Scope) : CheckExpr → Store → Check × Store
  | assert a, s => (.assert a, s)
  | looselyEquals e diagnostic, s =>
    let (v, s) := e.build scope s
    (.looselyEquals v diagnostic, s)
  | equals text diagnostic, s => (.equals text diagnostic, s)
  | failsWith code, s => (.failsWith code, s)
  | raise f, s =>
    let (f, s) := f.build scope s
    (.raise f, s)

/-- The checks of descriptions, from left to right. -/
def buildChecks (scope : Scope) : List CheckExpr → Store → List Check × Store
  | [], s => ([], s)
  | c :: rest, s =>
    let (check, s) := c.build scope s
    let (checks, s) := buildChecks scope rest s
    (check :: checks, s)

/-- The description of a fixture. -/
structure FixtureExpr where
  name : String
  expectation : Expectation
  record : Expr
  checks : List CheckExpr

/-- The fixture of a description. -/
def FixtureExpr.build (scope : Scope) (f : FixtureExpr) (s : Store) : Fixture Store × Store :=
  let (checks, s) := buildChecks scope f.checks s
  ({ name := f.name
     description := ""
     expectation := f.expectation
     record := fun s =>
       let (v, s) := f.record.build scope s
       (v.asRecord, s)
     checks }, s)

end RecordWalk
