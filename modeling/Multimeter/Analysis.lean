import Multimeter.Capture.Source
import Multimeter.Files.Access
import Multimeter.Report.Basic

/-!
# Analysis

The chunks of a capture go through a scanner; readings are numbered, rejections are tallied. The
first chunk that fails ends the analysis without a report.

* `Analysis.run`: all events of a list of chunks.
* `Analysis.readings`, `Analysis.tally`: the two kinds of events apart.
* `Analysis.report`: the report of a finished analysis.
* `analyzeChunks`, `analyzeFile`: analysing given chunks and a capture file.
-/

namespace Multimeter

structure AnalysisOptions where
  variant : Variant
  maskParity : Bool
deriving DecidableEq, Repr

/-- A finished analysis: the scanner behind the last chunk and all events in order. -/
structure Analysis where
  scanner : Scanner
  events : List ScanEvent
deriving DecidableEq, Repr

inductive AnalysisError where
  /-- The file itself cannot be examined. -/
  | file (e : FileError)
  | source (e : Capture.SourceError)
deriving DecidableEq, Repr

namespace AnalysisError

def message : AnalysisError → String
  | file e => "I/O error: " ++ e.message
  | source e => "Source error: " ++ e.message

def causes : AnalysisError → List String
  | file e => [e.message]
  | source (.file e) => [(Capture.SourceError.file e).message, e.message]
  | source (.capture text) => [(Capture.SourceError.capture text).message]

end AnalysisError

namespace Analysis

/-- The scanner behind all chunks and the events that they complete; the first chunk that fails is
the failure. -/
def runFrom (scanner : Scanner) :
    List (Except Capture.SourceError (List UInt8)) → Except Capture.SourceError Analysis
  | [] => .ok ⟨scanner, []⟩
  | .error e :: _ => .error e
  | .ok chunk :: rest =>
    let (scanner, events) := scanner.push chunk
    (runFrom scanner rest).map fun later => { later with events := events ++ later.events }

/-- The analysis of all chunks, from a scanner at the beginning of the stream. -/
def run (options : AnalysisOptions) (chunks : List (Except Capture.SourceError (List UInt8))) :
    Except Capture.SourceError Analysis :=
  runFrom { variant := options.variant, maskParity := options.maskParity } chunks

/-- The readings in order, with the offsets of their frames. -/
def readings (a : Analysis) : List (Nat × Reading) :=
  a.events.filterMap fun
    | .measurement offset reading => some (offset, reading)
    | .rejected .. => none

/-- The tally of all rejections. -/
def tally (a : Analysis) : Tally :=
  a.events.foldl
    (fun tally event =>
      match event with
      | .measurement .. => tally
      | .rejected offset error => tally.add offset error) {}

/-- The readings as they stand in a report, numbered from zero. -/
def measurements (a : Analysis) : List Report.Measurement :=
  a.readings.zipIdx.map fun ((offset, reading), index) =>
    .ofReading (UInt64.ofNat index) (UInt64.ofNat offset) reading

/-- The counters at the end of the capture. -/
def counters (a : Analysis) : Report.Counters where
  bytesTotal := UInt64.ofNat a.scanner.stats.bytesTotal
  bytesSkipped := UInt64.ofNat a.scanner.stats.bytesSkipped
  bytesTrailing := UInt64.ofNat a.scanner.pending
  framesDecoded := UInt64.ofNat a.scanner.stats.framesDecoded
  framesRejected := UInt64.ofNat a.scanner.stats.framesRejected
  parityMasked := a.scanner.maskParity

/-- The report of a finished analysis of the capture at a path. -/
def report (a : Analysis) (path : Path) (file : Metadata) : Report :=
  { Report.stub path.text file.size with
    generatedAt := file.modified.text?.getD Report.defaultTime
    protocol := .ofVariant a.scanner.variant
    counters := some a.counters
    measurements := a.measurements
    rejections := a.tally.summaries }

end Analysis

section

variable {m : Type → Type} [Monad m] [FileAccess m]

/-- Analyses given chunks as those of the file at a path, which is examined after the last one. -/
def analyzeChunks (path : Path) (options : AnalysisOptions)
    (chunks : List (Except Capture.SourceError (List UInt8))) :
    m (Except AnalysisError Report) := do
  match Analysis.run options chunks with
  | .error e => return .error (.source e)
  | .ok analysis =>
    match ← FileAccess.metadata path with
    | .error e => return .error (.file e)
    | .ok file => return .ok (analysis.report path file)

/-- Analyses the capture at a path, in the format that the path stands for. -/
def analyzeFile (path : Path) (options : AnalysisOptions) : m (Except AnalysisError Report) := do
  match ← FileAccess.contents path with
  | .error e => return .error (.source (.file e))
  | .ok contents =>
    analyzeChunks path options (Capture.Source.ofContents (.ofPath path) contents).chunks

end

end Multimeter
