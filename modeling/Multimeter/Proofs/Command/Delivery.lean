import Multimeter.Proofs.Capture.Size
import Multimeter.Proofs.Command.Arguments
import Multimeter.Proofs.Command.Files
import Multimeter.Proofs.Formats

/-!
# How a decoding ends

A capture that can be analysed is decoded to any destination that can take the report. The text of
the report is delivered whatever else is asked for; afterwards rejected frames may be listed, and
make a strict decoding fail.

* `FileTree.NamesFile`: a path names a file, there or not, in a directory that is there.
* `Command.Destination.Open`: a destination that can take a report;
  `Command.Destination.Open.exists_delivered`: the report is delivered to it.
* **`Command.concluded_conclude`**: the exit code and the messages behind a delivered report.
* `Command.Feasible`: a request that nothing stands in the way of.
* **`Command.run_outcome`**: the text that is delivered, the exit code and the messages.
-/

namespace Multimeter

open FileTree Capture

/-! ## Naming a file -/

namespace FileTree

/-- The path names a file, there or not, in a directory that is there. -/
structure NamesFile (tree : FileTree) (path : Path) (spot : Spot) (name : String) : Prop
    extends tree.Names path spot name where
  size_le : name.utf8ByteSize ≤ Spot.maxNameSize
  not_directory : ∀ children, tree.entry? (spot.place ++ [name]) ≠ some (.directory children)
  located : ∀ parent, path.parent? = some parent →
    ∃ directory, tree.locate (if parent.text = "" then ⟨"."⟩ else parent) = .ok directory

namespace NamesFile

variable {tree : FileTree} {path parent : Path} {spot : Spot} {name : String}
  (h : tree.NamesFile path spot name)

include h

theorem locate_parent (hparent : path.parent? = some parent) :
    tree.locate (if parent.text = "" then ⟨"."⟩ else parent) = .ok spot.place := by
  obtain ⟨directory, hlocate⟩ := h.located parent hparent
  rw [hlocate, FileTree.locate_parent h.getLast h.isName hparent hlocate h.walk]

theorem find_parent (hparent : path.parent? = some parent) (htext : parent.text ≠ "") :
    ∃ found, tree.find parent = .ok found ∧ found.entry.isDirectory := by
  have hlocate := h.locate_parent hparent
  rw [if_neg htext] at hlocate
  have hsize := (Path.size_parent_le h.getLast h.isName hparent).trans
    (checkPath_eq_ok_iff.mp h.check).2
  obtain ⟨found, hfind, hplace⟩ := find_of_locate hlocate hsize
  have hspot : spot = found := (holds_find hfind).eq_of_trail_eq (holds_walk h.walk)
    (List.reverse_injective hplace.symm)
  exact ⟨found, hfind, hspot ▸ h.isDirectory⟩

theorem run_createDirectories (hparent : path.parent? = some parent) (htext : parent.text ≠ "") :
    (FileAccess.createDirectories parent : StateM FileTree _).run tree = (.ok (), tree) := by
  obtain ⟨found, hfind, hdirectory⟩ := h.find_parent hparent htext
  have hlocate := h.locate_parent hparent
  rw [if_neg htext] at hlocate
  exact FileTree.run_createDirectories hlocate hfind hdirectory

theorem find_set (contents : List UInt8) (modified : Timestamp) :
    (tree.set (spot.place ++ [name]) (.file contents modified)).find path =
      .ok ⟨name :: spot.trail, .file contents modified⟩ := by
  obtain ⟨children, hentry⟩ := isDirectory_iff.mp h.isDirectory
  refine FileTree.find_set h.toNames hentry h.size_le (fun grandchildren hlookup => ?_) rfl
  rw [← entry?_child (holds_walk h.walk) hentry name, List.reverse_cons] at hlookup
  exact h.not_directory grandchildren hlookup

end NamesFile

end FileTree

namespace Command

variable {tree after : FileTree} {options : DecodeOptions} {report : Report} {path : Path}
  {spot : Spot} {name : String}

/-! ## Delivering -/

theorem attempt_checkDestination {input : Location} (h : tree.NamesFile path spot name)
    (hdiffers : spot.place ++ [name] ≠ input) :
    tree.attempt (checkDestination input (.file path)) = (.ok (), tree) := by
  obtain ⟨hfile, -⟩ := Path.parent?_of_getLast? h.getLast h.isName
  obtain ⟨parent, hparent⟩ := Path.exists_parent h.getLast h.isName
  dsimp only [checkDestination]
  rw [hparent]
  dsimp only
  rw [attempt_bind_of_ok (attempt_require (run_locate (h.locate_parent hparent))), hfile]
  dsimp only
  rw [if_neg hdiffers]
  rfl

def writtenLine (report : Report) (rejected : UInt64) (path : Path) : String :=
  s!"OK: {report.measurements.length} measurements, "
    ++ s!"{rejected.toNat} rejected -> {path.text}\n"

/-- **A report is written** where its destination names a file. -/
theorem attempt_deliver_file (hdestination : options.destination = .file path)
    (h : tree.NamesFile path spot name) :
    tree.attempt (deliver options report) =
      (.ok {
        messages := if options.quiet then "" else writtenLine report report.rejectedCount path },
        tree.set (spot.place ++ [name])
          (.file (reportText options report).toUTF8.toList tree.now)) := by
  have hwrite : (FileAccess.write path (reportText options report).toUTF8.toList :
      StateM FileTree _).run tree = (.ok (), tree.set (spot.place ++ [name])
        (.file (reportText options report).toUTF8.toList tree.now)) :=
    run_write_of_ok (h.writeFile_eq h.size_le h.not_directory)
  obtain ⟨parent, hparent⟩ := Path.exists_parent h.getLast h.isName
  unfold deliver
  rw [hdestination]
  dsimp only
  rw [hparent]
  dsimp only
  by_cases htext : parent.text = ""
  · rw [if_neg (not_not.mpr htext), attempt_bind_of_ok (attempt_require hwrite)]
    rfl
  · rw [if_pos htext,
      attempt_bind_of_ok (attempt_require (h.run_createDirectories hparent htext))]
    exact attempt_bind_of_ok (attempt_require hwrite)

/-- A destination has received a text: standard output with a new line behind it, and a file as its
contents. -/
inductive Received (tree : FileTree) (text : String) : Destination → String → FileTree → Prop where
  | printed : Received tree text .standardOutput (text ++ "\n") tree
  | written {path : Path} {spot : Spot} {after : FileTree} (hfind : after.find path = .ok spot)
      (hentry : spot.entry = .file text.toUTF8.toList tree.now) :
      Received tree text (.file path) "" after

/-- A destination that can take a report, and is not the place of the input. -/
inductive Destination.Open (tree : FileTree) (input : Location) : Destination → Prop where
  | standardOutput : Open tree input .standardOutput
  | file {path : Path} {spot : Spot} {name : String} (hnames : tree.NamesFile path spot name)
      (hdiffers : spot.place ++ [name] ≠ input) : Open tree input (.file path)

/-- What is said of a report that was delivered, `rejected` of whose frames were rejected. -/
def deliveredText (options : DecodeOptions) (report : Report) (rejected : UInt64) : String :=
  match options.destination with
  | .standardOutput => ""
  | .file path => if options.quiet then "" else writtenLine report rejected path

/-- A report was delivered, and no more has happened. -/
structure Delivered (options : DecodeOptions) (tree : FileTree) (report : Report)
    (outcome : Outcome) (after : FileTree) : Prop where
  received : Received tree (reportText options report) options.destination outcome.output after
  exitCode_eq : outcome.exitCode = 0
  messages_eq : outcome.messages = deliveredText options report report.rejectedCount

theorem Destination.Open.text_ne {input : Location} (h : (Destination.file path).Open tree input) :
    path.text ≠ "" := by
  cases h with
  | file hnames hdiffers => exact text_ne_of_checkPath hnames.check

namespace Destination.Open

variable {input : Location} (h : options.destination.Open tree input)

include h

theorem attempt_checkDestination :
    tree.attempt (checkDestination input options.destination) = (.ok (), tree) := by
  cases hdestination : options.destination with
  | standardOutput => rfl
  | file path =>
    rw [hdestination] at h
    cases h with
    | file hnames hdiffers => exact Command.attempt_checkDestination hnames hdiffers

theorem exists_delivered : ∃ delivered after,
    tree.attempt (deliver options report) = (.ok delivered, after) ∧
      Delivered options tree report delivered after := by
  cases hdestination : options.destination with
  | standardOutput =>
    refine ⟨{ output := reportText options report ++ "\n" }, tree, ?_, ?_, rfl, ?_⟩
    · rw [deliver, hdestination]
      rfl
    · rw [hdestination]
      exact .printed
    · rw [deliveredText, hdestination]
  | file path =>
    rw [hdestination] at h
    cases h with
    | file hnames hdiffers =>
      refine ⟨_, _, attempt_deliver_file hdestination hnames, ?_, rfl, ?_⟩
      · rw [hdestination]
        exact .written (hnames.find_set _ _) rfl
      · rw [deliveredText, hdestination]

end Destination.Open

/-! ## Concluding -/

def rejectedText (rejected : UInt64) : String :=
  s!"error: {rejected.toNat} packets rejected\nhint: use --list-rejections to inspect\n"

theorem text_rejected (rejected : UInt64) :
    Failure.text ⟨s!"{rejected.toNat} packets rejected",
      some "use --list-rejections to inspect"⟩ = rejectedText rejected := by
  have hsame (text : String) : toString text = text := rfl
  simp [Failure.text, rejectedText, hsame, String.ext_iff]

/-- All that a decoding says of a report, `rejected` of whose frames were rejected. -/
def messagesOf (options : DecodeOptions) (report : Report) (rejected : UInt64) : String :=
  deliveredText options report rejected
    ++ (if options.listRejections && !options.quiet then rejectionLines report else "")
    ++ if options.strict ∧ rejected ≠ 0 then rejectedText rejected else ""

/-- A decoding has delivered a report with the given counters. -/
structure Concluded (options : DecodeOptions) (tree : FileTree) (report : Report)
    (counters : Report.Counters) (outcome : Outcome) (after : FileTree) : Prop where
  received : Received tree (reportText options report) options.destination outcome.output after
  exitCode_eq : outcome.exitCode =
    if options.strict ∧ counters.framesRejected ≠ 0 then 2 else 0
  messages_eq : outcome.messages = messagesOf options report counters.framesRejected

/-- **The counter of rejected frames decides** how a decoding ends behind its report, and is the
number in all that is said of it. -/
theorem concluded_conclude {counters : Report.Counters} {delivered : Outcome}
    (hcount : report.rejectedCount = counters.framesRejected)
    (hnone : report.rejections = [] ↔ counters.framesRejected = 0)
    (hdelivered : Delivered options tree report delivered after) :
    Concluded options tree report counters (conclude options report delivered) after := by
  obtain ⟨hreceived, hcode, hmessages⟩ := hdelivered
  have hstrict : (options.strict && !report.rejections.isEmpty) = true ↔
      options.strict ∧ counters.framesRejected ≠ 0 := by
    simp [hnone]
  have hlisted (b : Bool) : (if b then { delivered with
      messages := delivered.messages ++ rejectionLines report } else delivered) =
      { delivered with
        messages := delivered.messages ++ if b then rejectionLines report else "" } := by
    cases b with
    | true => rfl
    | false => simp
  unfold conclude
  dsimp only
  rw [hlisted]
  by_cases hfails : options.strict ∧ counters.framesRejected ≠ 0
  · rw [if_pos (hstrict.mpr hfails)]
    refine ⟨hreceived, (if_pos hfails).symm, ?_⟩
    rw [messagesOf, if_pos hfails, Outcome.failed, text_rejected, hmessages, hcount]
  · rw [if_neg (mt hstrict.mp hfails)]
    refine ⟨hreceived, hcode.trans (if_neg hfails).symm, ?_⟩
    rw [messagesOf, if_neg hfails, String.append_empty, hmessages, hcount]

/-! ## Decoding -/

/-- A request that nothing stands in the way of: the input is a file that can be analysed, and the
destination can take the report. -/
structure Feasible (options : DecodeOptions) (tree : FileTree) (input : Path) (spot : Spot)
    (report : Report) : Prop extends InputAt options tree input spot where
  isFile : ∃ contents modified, spot.entry = .file contents modified ∧ contents.length < 2 ^ 64
  analysed : (analyzeFile input ⟨options.variant, options.maskParity⟩ :
    StateM FileTree _).run tree = (.ok report, tree)
  isOpen : options.destination.Open tree spot.place

namespace Feasible

variable {input : Path} (h : Feasible options tree input spot report)

include h

theorem exists_contents :
    ∃ contents, spot.entry.contents = .ok contents ∧ contents.length < 2 ^ 64 := by
  obtain ⟨contents, modified, hentry, hlength⟩ := h.isFile
  exact ⟨contents, by rw [hentry]; rfl, hlength⟩

theorem attempt_analyze : tree.attempt (analyze options) = (.ok report, tree) := by
  obtain ⟨contents, modified, hentry, -⟩ := h.isFile
  have hfile : spot.entry.metadata.isFile := by
    rw [hentry]
    rfl
  exact h.attempt_analyze_of_file h.isOpen.attempt_checkDestination hfile h.analysed

theorem consistent : report.Consistent options.variant := by
  obtain ⟨contents, hcontents, hlength⟩ := h.exists_contents
  obtain ⟨data, hdata, rfl⟩ := exists_data_of_analyzeFile h.found hcontents h.analysed
  exact Analysis.consistent_report _ data
    (Nat.lt_of_le_of_lt (Format.length_flatten_le hdata) hlength) input _

theorem run_decode : ∃ counters outcome after, report.counters = some counters ∧
    (decode options : StateM FileTree _).run tree = (outcome, after) ∧
    Concluded options tree report counters outcome after := by
  obtain ⟨counters, hcounters, hcount, hnone⟩ := h.consistent.rejectedCount_eq
  obtain ⟨delivered, after, hdeliver, hdelivered⟩ := h.isOpen.exists_delivered
  refine ⟨counters, _, after, hcounters, run_decode_of_ok ?_,
    concluded_conclude hcount hnone hdelivered⟩
  rw [attemptDecode, attempt_bind_of_ok h.attempt_analyze, attempt_bind_of_ok hdeliver]
  rfl

theorem run {arguments : List String}
    (hrequest : Request.ofArguments? arguments = some (.decode options)) :
    ∃ counters outcome after, report.counters = some counters ∧
      (Command.run arguments : StateM FileTree _).run tree = (some outcome, after) ∧
      Concluded options tree report counters outcome after := by
  obtain ⟨counters, outcome, after, hcounters, hdecode, hconcluded⟩ := h.run_decode
  exact ⟨counters, outcome, after, hcounters, run_of_decode hrequest hdecode, hconcluded⟩

end Feasible

end Command

end Multimeter
