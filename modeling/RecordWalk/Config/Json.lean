import RecordWalk.Config.Basic
import RecordWalk.Json.Parse
import RecordWalk.Json.Write

/-!
# Configurations as JSON

A configuration is written as an object with all members in a fixed order. It is read from an
object with its members in any order and others among them, or from an array of its fields in
order. Members left out, and fields missing at the end, have their default.
-/

namespace RecordWalk.Config

def toJson (c : Config) : Json :=
  .ofMembers [("fixtures", .array (c.fixtures.map .ofText)),
    ("strict_discrepancies", .bool c.strict), ("report_format", .ofText c.format.label)]

def fixtures? : Json → Option (List String) := Json.toList? Json.toText?

def format? : Json → Option ReportFormat := Json.toNamed? ReportFormat.ofLabel?

/-- The configuration with certain members. -/
def ofMembers? (members : List (String × Json)) : Option Config := do
  let fixtures ← Json.optional? "fixtures" default.fixtures fixtures? members
  let strict ← Json.optional? "strict_discrepancies" default.strict Json.toBool? members
  let format ← Json.optional? "report_format" default.format format? members
  some { fixtures, strict, format }

def ofJson? : Json → Option Config
  | .array [] => some default
  | .array [fixtures] => do
    let fixtures ← fixtures? fixtures
    some { default with fixtures }
  | .array [fixtures, strict] => do
    let fixtures ← fixtures? fixtures
    let strict ← strict.toBool?
    some { default with fixtures, strict }
  | .array [fixtures, strict, format] => do
    let fixtures ← fixtures? fixtures
    let strict ← strict.toBool?
    let format ← format? format
    some { fixtures, strict, format }
  | j => j.toMembers? >>= ofMembers?

/-- The configuration as compact JSON text. -/
def jsonText (c : Config) : String := c.toJson.compact

/-- The configuration that a JSON text holds. -/
def ofJsonText? (s : String) : Option Config := Json.parse? s >>= ofJson?

end RecordWalk.Config
