import RecordScan.Text.Code
import RecordScan.Text.Blank
import RecordScan.Text.DecimalDigit
import RecordScan.Text.Lowercase
import RecordScan.Text.Printable
import RecordScan.Text.Quoted
import RecordScan.Utf8.Basic
import RecordScan.Utf8.Encode
import RecordScan.Utf8.Decode
import RecordScan.Utf8.Access
import RecordScan.Decimal.Binary64
import RecordScan.Decimal.Shortest
import RecordScan.Decimal.Written
import RecordScan.Decimal.Numeral
import RecordScan.Literal
import RecordScan.Fault
import RecordScan.Log
import RecordScan.Model.Basic
import RecordScan.Model.Complaint
import RecordScan.Model.Check
import RecordScan.Scan.Unit
import RecordScan.Scan.Basic
import RecordScan.Scan.Source
import RecordScan.Scan.View
import RecordScan.Scan.Consume
import RecordScan.Scan.Recording
import RecordScan.Scan.Split
import RecordScan.Grammar.Number
import RecordScan.Grammar.KeyValue
import RecordScan.Session.Basic
import RecordScan.Session.Operation
import RecordScan.Session.Step
import RecordScan.Settings.EnvFile
import RecordScan.Settings.Basic
import RecordScan.Settings.Load
import RecordScan.Command.Delimiter
import RecordScan.Command.Help
import RecordScan.Command.Json
import RecordScan.Command.Options
import RecordScan.Command.Path
import RecordScan.Command.Result
import RecordScan.Command.Job
import RecordScan.Command.Run
import RecordScan.Main
import RecordScan.Proofs.Utf8.Scalar
import RecordScan.Proofs.Utf8.Boundary
import RecordScan.Proofs.Scan.Position
import RecordScan.Proofs.Scan.Reading
import RecordScan.Proofs.Scan.Search
import RecordScan.Proofs.Scan.Visible
import RecordScan.Proofs.Scan.Segments
import RecordScan.Proofs.Scan.Keeping
import RecordScan.Proofs.Grammar.Keeping
import RecordScan.Proofs.Session.Invariant
import RecordScan.Proofs.Scan.Filtering
import RecordScan.Proofs.Session.Looking
import RecordScan.Proofs.Session.Recorders
import RecordScan.Proofs.Grammar.KeyValue
import RecordScan.Proofs.Grammar.Modes
import RecordScan.Proofs.Session.Deed
import RecordScan.Proofs.Session.Locality
import RecordScan.Proofs.Session.Independence
import RecordScan.Proofs.Session.Backtracking
import RecordScan.Proofs.Utf8.Incremental
import RecordScan.Proofs.Scan.RoundTrip
import RecordScan.Proofs.Scan.Sweeps
import RecordScan.Proofs.Session.Handing
import RecordScan.Proofs.Grammar.Spelling
import RecordScan.Proofs.Grammar.Number
import RecordScan.Proofs.Command.Delimiter
import RecordScan.Proofs.Settings.Loading
import RecordScan.Proofs.Command.Lines
import RecordScan.Proofs.Command.Numbers
import RecordScan.Proofs.Command.Splitting
import RecordScan.Proofs.Grammar.ByteLines
import RecordScan.Proofs.Command.Tokens
import RecordScan.Proofs.Command.Arguments
import RecordScan.Proofs.Command.Status
import RecordScan.Proofs.Json.Grammar
import RecordScan.Proofs.Json.Writing
import RecordScan.Proofs.Decimal.Overflow
import RecordScan.Proofs.Command.NumberList
import RecordScan.Proofs.Grammar.Matching
import RecordScan.Proofs.Scan.Resting
import RecordScan.Proofs.Grammar.Numerals
import RecordScan.Proofs.Grammar.Skipping
import RecordScan.Proofs.Scan.Transparency
import RecordScan.Proofs.Session.Transparency
import RecordScan.Proofs.Scan.Exhaustion
import RecordScan.Proofs.Scan.Refusing
import RecordScan.Proofs.Session.Refusing
import RecordScan.Proofs.Scan.Alike
import RecordScan.Proofs.Scan.Landing
import RecordScan.Proofs.Session.Interruption
import RecordScan.Proofs.Grammar.LineEnds
import RecordScan.Proofs.Session.Alike
import RecordScan.Proofs.Session.Stopping
import RecordScan.Proofs.Session.Ignoring
import RecordScan.Proofs.Scan.Cutting
import RecordScan.Proofs.Utf8.Defects
import RecordScan.Proofs.Session.Defects
import RecordScan.Proofs.Scan.Progress
