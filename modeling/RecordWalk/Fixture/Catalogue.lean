import RecordWalk.Fixture.Basic
import RecordWalk.Script.Store

/-!
# The catalogue

The fixtures that come with the program, in the order in which they are listed and run. The first
one asserts that the walk over two functions gives `7`; since the walk concatenates, it gives a
text that is no number, and the fixture is kept as a known discrepancy.
-/

namespace RecordWalk

namespace Catalogue

/-- A function with a name that returns a value. -/
def returning (name : String) (e : Expr) : Expr := .function (some name) (.constant e)

/-- A function without a name that returns a value. -/
def arrow (e : Expr) : Expr := .function none (.constant e)

def number (i : Int) : Expr := .number (.ofInt i)

def sevenWhatever : List (String × Expr) :=
  [("foo", returning "testForIn1" (number 7)),
   ("bar", returning "testForIn2" (.text "whatever"))]

def looseSeven : Fixture Store where
  name := "forin"
  description := "for-in over two functions, asserting q == 7 as written"
  expectation := .knownDiscrepancy
    "the loop yields \"7whatever\", which converts to NaN and is not == 7"
  record := buildRecord [] sevenWhatever
  checks := [.looselyEquals (.number (.ofInt 7)) "q == 7"]

def accumulated : Fixture Store where
  name := "forin-value"
  description := "for-in over two functions, asserting the accumulated string"
  expectation := .pass
  record := buildRecord [] sevenWhatever
  checks := [.equals "7whatever" "q === \"7whatever\""]

def emptyRecord : Fixture Store where
  name := "empty-record"
  description := "for-in over a record with no properties"
  expectation := .pass
  record := buildRecord [] []
  checks := [.equals "" "q === \"\""]

def singleProperty : Fixture Store where
  name := "single-property"
  description := "for-in over a record with one function"
  expectation := .pass
  record := buildRecord [] [("only", arrow (.text "x"))]
  checks := [.equals "x" "q === \"x\""]

def nonCallable : Fixture Store where
  name := "non-callable"
  description := "for-in reaching a property that is not a function"
  expectation := .pass
  record := buildRecord []
    [("foo", returning "testForIn1" (number 7)), ("bar", number 42)]
  checks := [.failsWith .notFunction]

def throwingCallable : Fixture Store where
  name := "throwing-callable"
  description := "for-in reaching a function that throws"
  expectation := .pass
  record := buildRecord []
    [("ok", arrow (.text "a")),
     ("boom", .function (some "thrower")
       (.throw .thrown (some "thrower raised") (some (.text "boom"))))]
  checks := [.throwsText "boom"]

end Catalogue

open Catalogue in
/-- All fixtures. -/
def catalogue : List (Fixture Store) :=
  [looseSeven, accumulated, emptyRecord, singleProperty, nonCallable, throwingCallable]

/-- The fixture with a given name. -/
def findFixture (name : String) : Except FixtureError (Fixture Store) :=
  match catalogue.find? (·.name == name) with
  | some fixture => .ok fixture
  | none => .error (.unknown name)

end RecordWalk
