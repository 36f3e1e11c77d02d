import RecordWalk.Config.Json
import RecordWalk.Main
import RecordWalk.Session
import RecordWalk.Proofs.Digits
import RecordWalk.Proofs.Text.Quoted
import RecordWalk.Proofs.Record.Literal
import RecordWalk.Proofs.Walk
import RecordWalk.Proofs.Decimal.Value
import RecordWalk.Proofs.Decimal.Shortest
import RecordWalk.Proofs.Decimal.Layout
import RecordWalk.Proofs.Decimal.Significant
import RecordWalk.Proofs.Decimal.Fewest
import RecordWalk.Proofs.Decimal.Forms
import RecordWalk.Proofs.Double.RoundTrip
import RecordWalk.Proofs.Double.Display
import RecordWalk.Proofs.Numeral.Grammar
import RecordWalk.Proofs.Numeral.Bytes
import RecordWalk.Proofs.Double.Read
import RecordWalk.Proofs.Double.Nearest
import RecordWalk.Proofs.Double.Natural
import RecordWalk.Proofs.Double.Integral
import RecordWalk.Proofs.Numeral.Radix
import RecordWalk.Proofs.Script.Reach
import RecordWalk.Proofs.Script.Depth
import RecordWalk.Proofs.Script.Building
import RecordWalk.Proofs.Session.Reach
import RecordWalk.Proofs.Session.Cursors
import RecordWalk.Proofs.Session.Identity
import RecordWalk.Proofs.Value.LooseEquality
import RecordWalk.Proofs.Double.Debug
import RecordWalk.Proofs.Value.Debug
import RecordWalk.Proofs.Fixture.Catalogue
import RecordWalk.Proofs.Fixture.Checks
import RecordWalk.Proofs.Json.Scan
import RecordWalk.Proofs.Json.Parse
import RecordWalk.Proofs.Json.RoundTrip
import RecordWalk.Proofs.Json.Shapes
import RecordWalk.Proofs.Report.Text
import RecordWalk.Proofs.CommandLine
import RecordWalk.Proofs.CommandLine.Groups
import RecordWalk.Proofs.Config.Precedence
import RecordWalk.Proofs.Program
