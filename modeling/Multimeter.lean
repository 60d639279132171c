import Multimeter.Analysis
import Multimeter.Binary64
import Multimeter.Bm25x.Decode
import Multimeter.Bm25x.Packet
import Multimeter.Capture.Format
import Multimeter.Capture.HexLine
import Multimeter.Capture.Source
import Multimeter.Command.Arguments
import Multimeter.Command.Decode
import Multimeter.Command.Listing
import Multimeter.Command.Outcome
import Multimeter.Command.Run
import Multimeter.Decimal.Display
import Multimeter.Decimal.Shortest
import Multimeter.Es519xx.Annunciators
import Multimeter.Es519xx.Correction
import Multimeter.Es519xx.Decode
import Multimeter.Es519xx.Packet
import Multimeter.Files.Access
import Multimeter.Files.Error
import Multimeter.Files.Tree
import Multimeter.Frame
import Multimeter.Json.Numeral
import Multimeter.Json.Printer
import Multimeter.Json.Reader
import Multimeter.Json.Value
import Multimeter.Main
import Multimeter.Measurement.Qualifier
import Multimeter.Measurement.Quantity
import Multimeter.Measurement.Reading
import Multimeter.Path
import Multimeter.Proofs.Analysis
import Multimeter.Proofs.Bm25x.Display
import Multimeter.Proofs.Bm25x.Lamps
import Multimeter.Proofs.Capture.HexLine
import Multimeter.Proofs.Capture.HexText
import Multimeter.Proofs.Capture.Size
import Multimeter.Proofs.Capture.Source
import Multimeter.Proofs.Checks
import Multimeter.Proofs.Command.Arguments
import Multimeter.Proofs.Command.Delivery
import Multimeter.Proofs.Command.Files
import Multimeter.Proofs.Command.MissingDirectory
import Multimeter.Proofs.Command.Reading
import Multimeter.Proofs.Comparison
import Multimeter.Proofs.Conflicts
import Multimeter.Proofs.Digits
import Multimeter.Proofs.Display
import Multimeter.Proofs.Es519xx.Agreement
import Multimeter.Proofs.Es519xx.Correction
import Multimeter.Proofs.Es519xx.Dependence
import Multimeter.Proofs.Es519xx.FirstMatch
import Multimeter.Proofs.Es519xx.Lamps
import Multimeter.Proofs.Es519xx.Mode
import Multimeter.Proofs.Es519xx.RangeRow
import Multimeter.Proofs.Es519xx.Refusal
import Multimeter.Proofs.Es519xx.SlowCurrent
import Multimeter.Proofs.Es519xx.Stages
import Multimeter.Proofs.Files.Change
import Multimeter.Proofs.Files.ReadOnly
import Multimeter.Proofs.Files.Walk
import Multimeter.Proofs.Flips
import Multimeter.Proofs.Formats
import Multimeter.Proofs.Framing
import Multimeter.Proofs.Idle
import Multimeter.Proofs.Interval
import Multimeter.Proofs.Json.Binary64
import Multimeter.Proofs.Json.Members
import Multimeter.Proofs.Json.Numeral
import Multimeter.Proofs.Json.Strings
import Multimeter.Proofs.Json.Text
import Multimeter.Proofs.Lookup
import Multimeter.Proofs.Misframing
import Multimeter.Proofs.Nearest
import Multimeter.Proofs.OutOfRange
import Multimeter.Proofs.Path
import Multimeter.Proofs.Qualifiers
import Multimeter.Proofs.Reading
import Multimeter.Proofs.Report
import Multimeter.Proofs.RoundTrip
import Multimeter.Proofs.Rounding
import Multimeter.Proofs.Scanner.Accounting
import Multimeter.Proofs.Scanner.Coverage
import Multimeter.Proofs.Scanner.Drain
import Multimeter.Proofs.Scanner.Feed
import Multimeter.Proofs.Scanner.Parity
import Multimeter.Proofs.Scanner.Repeated
import Multimeter.Proofs.Scanner.Resynchronisation
import Multimeter.Proofs.Scanner.Sweep
import Multimeter.Proofs.Shortest
import Multimeter.Proofs.Sign
import Multimeter.Proofs.Splitting
import Multimeter.Proofs.Summaries
import Multimeter.Proofs.Value
import Multimeter.Proofs.Verdict
import Multimeter.Protocol.Error
import Multimeter.Protocol.RangeTable
import Multimeter.Protocol.Variant
import Multimeter.Report.Basic
import Multimeter.Report.Json
import Multimeter.Report.Text
import Multimeter.Scanner
import Multimeter.Tally
import Multimeter.Text.Blank
import Multimeter.Text.Blocks
import Multimeter.Text.HexByte
import Multimeter.Timestamp
import Multimeter.Wildcard.Expansion
import Multimeter.Wildcard.Pattern
