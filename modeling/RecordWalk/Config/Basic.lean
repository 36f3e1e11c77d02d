/-!
# Configuration

A configuration says which fixtures to run, whether known discrepancies count as failures, and how
to print the report. It is put together from layers: a layer sets some of the fields, and what it
sets replaces what was there before.
-/

namespace RecordWalk

inductive ReportFormat where
  | text
  | json
deriving DecidableEq

namespace ReportFormat

def label : ReportFormat → String
  | text => "text"
  | json => "json"

/-- All formats in order. -/
def all : List ReportFormat := [text, json]

def ofLabel? (s : String) : Option ReportFormat := all.find? (·.label == s)

end ReportFormat

structure Config where
  /-- The names of the fixtures to run; none stand for all. -/
  fixtures : List String
  strict : Bool
  format : ReportFormat
deriving DecidableEq

/-- A setting of some fields. -/
structure Layer where
  fixtures? : Option (List String)
  strict? : Option Bool
  format? : Option ReportFormat
deriving DecidableEq

namespace Layer

/-- The layer that sets nothing. -/
def empty : Layer := ⟨none, none, none⟩

end Layer

namespace Config

def default : Config := ⟨[], false, .text⟩

/-- Put a layer on a configuration. -/
def overlay (c : Config) (l : Layer) : Config where
  fixtures := l.fixtures?.getD c.fixtures
  strict := l.strict?.getD c.strict
  format := l.format?.getD c.format

end Config

end RecordWalk
