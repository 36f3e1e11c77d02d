import RecordWalk.Config.Basic
import RecordWalk.Yaml.Document

/-!
# Configuration files

A configuration file is a YAML mapping. It may set any of the fields; other keys are ignored.
-/

namespace RecordWalk.Layer

/-- The setting of a field by an entry of a mapping, if there is such an entry; one that does not
fit is refused. -/
def setting? {α : Type} (key : String) (value? : Yaml → Option α)
    (entries : List (String × Yaml)) : Option (Option α) :=
  match Yaml.entry? key entries with
  | none => some none
  | some y => (value? y).map some

/-- The layer of the entries of a mapping. -/
def ofEntries? (entries : List (String × Yaml)) : Option Layer := do
  let fixtures? ← setting? "fixtures" (Yaml.toList? Yaml.toText?) entries
  let strict? ← setting? "strict_discrepancies" Yaml.toBool? entries
  let format? ← setting? "report_format"
    (Yaml.toNamed? ReportFormat.all ReportFormat.ofLabel?) entries
  some { fixtures?, strict?, format? }

/-- The layer of the text of a configuration file. -/
def ofFileText? (s : String) : Option Layer := Yaml.document? s >>= ofEntries?

end RecordWalk.Layer
