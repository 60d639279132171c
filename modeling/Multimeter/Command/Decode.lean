import Multimeter.Analysis
import Multimeter.Command.Arguments
import Multimeter.Command.Outcome
import Multimeter.Report.Text
import Multimeter.Wildcard.Expansion

/-!
# Decoding a capture on request

The input is resolved and checked against the destination before anything is read; then the capture
is analysed, the report delivered, and rejections are listed or made a failure.

* `Command.resolveInput`: the one file that the input stands for.
* `Command.analyze`: the report, or the first thing that stands in its way.
* `Command.deliver`: writing the report.
* `Command.decode`: all of it.
-/

namespace Multimeter.Command

def inputHint : String := "use a .hex or .txt hex dump, or any other file as raw bytes"

/-- A failure without hint that names what was tried and the file error behind it. -/
def fileFailure (attempt : String) (e : FileError) : Failure :=
  ⟨attempt ++ ": " ++ e.message, none⟩

/-- The failure of a pattern that cannot be read, or cannot be followed. -/
def badPattern (pattern cause : String) : Failure :=
  ⟨s!"invalid input pattern '{pattern}'", some ("pattern error: " ++ cause)⟩

/-- How many matches of an ambiguous pattern are shown. -/
def maxShownMatches : Nat := 3

def ambiguousPattern (pattern : String) (found : List Path) : Failure where
  message :=
    s!"multiple files match pattern '{pattern}' ({found.length} matches); matches: "
      ++ ", ".intercalate ((found.take maxShownMatches).map Path.text)
      ++ if maxShownMatches < found.length then ", ..." else ""
  hint := some "pass a single capture file, or run once per file"

def reportText (options : DecodeOptions) (report : Report) : String :=
  if options.pretty then report.pretty else report.compact

section

variable {m : Type → Type} [Monad m] [FileAccess m]

def resolveInput (input : Path) : ExceptT Failure m Path := do
  if !Wildcard.isPattern input.text then return input
  match Wildcard.Pattern.ofText input.text with
  | .error e => throw (badPattern input.text e.message)
  | .ok pattern =>
    let paths : m (Except Wildcard.UnreadableDirectory (List Path)) := pattern.paths.run
    match ← liftM paths with
    | .error e => throw (badPattern input.text e.message)
    | .ok paths =>
      let found ← liftM (paths.filterM FileAccess.isFile : m (List Path))
      match found with
      | [path] => return path
      | [] =>
        throw ⟨s!"no files match pattern '{input.text}'",
          some "check the path or quote the pattern; expected a capture file"⟩
      | _ => throw (ambiguousPattern input.text found)

/-- The result of a file operation, with a failure for its error. -/
def require {α : Type} (attempt : String) (operation : m (Except FileError α)) :
    ExceptT Failure m α := do
  match ← liftM operation with
  | .ok result => return result
  | .error e => throw (fileFailure attempt e)

/-- Checks that the report would not be written over the input. The directory of the report has to
be there. -/
def checkDestination (input : Location) : Destination → ExceptT Failure m Unit
  | .standardOutput => return ()
  | .file path => do
    match path.parent? with
    | none => return ()
    | some parent =>
      let directory ← require s!"Failed to resolve output path: {path.text}"
        (FileAccess.locate (if parent.text = "" then ⟨"."⟩ else parent))
      match path.fileName? with
      | none => throw ⟨"Invalid report path", none⟩
      | some name =>
        if directory ++ [name] = input then
          throw ⟨s!"report path must differ from input: {path.text}",
            some "choose a different output path"⟩

/-- The report on the input, or the first thing that stands in its way. -/
def analyze (options : DecodeOptions) : ExceptT Failure m Report := do
  let input ← resolveInput options.input
  let isThere ← liftM (FileAccess.pathExists input : m Bool)
  if !isThere then throw ⟨s!"input file not found: {input.text}", some inputHint⟩
  let location ← require s!"Failed to resolve input path: {input.text}" (FileAccess.locate input)
  checkDestination location options.destination
  let file ← require s!"Failed to read input file: {input.text}" (FileAccess.metadata input)
  if !file.isFile then throw ⟨s!"input is not a file: {options.input.text}", some inputHint⟩
  let analysis ← liftM
    (analyzeFile input ⟨options.variant, options.maskParity⟩ : m (Except AnalysisError Report))
  match analysis with
  | .ok report => return report
  | .error e =>
    throw ⟨": ".intercalate ("capture decoding failed" :: e.message :: e.causes), none⟩

/-- Writes the report where it goes; on standard output it ends in a new line. -/
def deliver (options : DecodeOptions) (report : Report) : ExceptT Failure m Outcome := do
  let text := reportText options report
  match options.destination with
  | .standardOutput => return { output := text ++ "\n" }
  | .file path =>
    match path.parent? with
    | none => pure ()
    | some parent =>
      if parent.text ≠ "" then
        require s!"Failed to create output directory: {parent.text}"
          (FileAccess.createDirectories parent)
    require s!"Failed to write report: {path.text}" (FileAccess.write path text.toUTF8.toList)
    return {
      messages :=
        if options.quiet then ""
        else s!"OK: {report.measurements.length} measurements, " ++
          s!"{report.rejectedCount.toNat} rejected -> {path.text}\n" }

end

def rejectionLines (report : Report) : String :=
  "Packet rejections:\n" ++ String.join (report.rejections.map fun r =>
    s!"  {report.protocol.name} {r.id} ({r.count.toNat})\n"
      ++ String.join (r.examples.map fun text => s!"    {text}\n"))

/-- The outcome after a delivered report: rejections are listed on request, and make a strict
decoding fail. -/
def conclude (options : DecodeOptions) (report : Report) (delivered : Outcome) : Outcome :=
  let listed :=
    if options.listRejections && !options.quiet then
      { delivered with messages := delivered.messages ++ rejectionLines report }
    else delivered
  if options.strict && !report.rejections.isEmpty then
    listed.failed
      ⟨s!"{report.rejectedCount.toNat} packets rejected",
        some "use --list-rejections to inspect"⟩
  else listed

def decode {m : Type → Type} [Monad m] [FileAccess m] (options : DecodeOptions) : m Outcome := do
  let result ← ExceptT.run do
    let report ← analyze options
    let delivered ← deliver options report
    return conclude options report delivered
  match result with
  | .ok outcome => return outcome
  | .error failure => return Outcome.failed {} failure

end Multimeter.Command
