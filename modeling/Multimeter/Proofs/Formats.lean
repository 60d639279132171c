import Multimeter.Proofs.Capture.HexText
import Multimeter.Proofs.Report

/-!
# Formats of a capture

Hex text and raw bytes cut the same stream at unrelated places. A report does not show where: it
depends on the bytes of the stream alone.

* `Report.SameStream`: two reports say the same of a stream.
* `analyzeFile_of_contents`: which chunks a file is analysed in; `analyzeFile_of_raw`.
* `report_eq_of_entry_eq`: what a report depends on.
* **`analyses_sameStream`**: analyses of the same bytes say the same of them.
* **`formats_sameStream`**: a text and a raw file with the same bytes are analysed alike.
-/

namespace Multimeter

/-- Two reports say the same of a stream, whatever the files are that it was read from. -/
structure Report.SameStream (r s : Report) : Prop where
  measurements_eq : r.measurements = s.measurements
  rejections_eq : r.rejections = s.rejections
  counters_eq : r.counters = s.counters

open Capture

section

variable {options : AnalysisOptions} {path path' : Path} {tree tree' : FileTree}
  {found found' : Spot}

theorem analyzeFile_of_contents (hfound : tree.find path = .ok found) {contents : List UInt8}
    (hcontents : found.entry.contents = .ok contents) :
    (analyzeFile path options : StateM FileTree _) tree =
      (analyzeChunks path options ((Format.ofPath path).chunks contents) :
        StateM FileTree _) tree := by
  have hread :
      (FileAccess.contents path : StateM FileTree _) tree = (.ok (.ok contents), tree) := by
    change ((tree.find path).map (·.entry.contents), tree) = _
    rw [hfound, ← hcontents]
    rfl
  unfold analyzeFile
  simp only [bind, StateT.bind, hread]
  rw [Source.chunks_ofContents]

theorem exists_data_of_analyzeFile {report : Report} {after : FileTree}
    (hfound : tree.find path = .ok found) {contents : List UInt8}
    (hcontents : found.entry.contents = .ok contents)
    (h : (analyzeFile path options : StateM FileTree _) tree = (.ok report, after)) :
    ∃ data : List (List UInt8), (Format.ofPath path).chunks contents = data.map .ok ∧
      report = (Analysis.ofData options data).report path found.entry.metadata := by
  rw [analyzeFile_of_contents hfound hcontents] at h
  obtain ⟨data, hdata⟩ : ∃ data : List (List UInt8),
      (Format.ofPath path).chunks contents = data.map .ok := by
    cases hrun : Analysis.run options ((Format.ofPath path).chunks contents) with
    | ok a => exact Analysis.exists_map_ok_of_runFrom hrun
    | error e =>
      rw [analyzeChunks, hrun] at h
      exact nomatch h
  rw [hdata, analyzeChunks_map_ok, hfound] at h
  exact ⟨data, hdata, (Except.ok.inj (Prod.mk.inj h).1).symm⟩

theorem report_eq_of_entry_eq {report report' : Report} {after after' : FileTree}
    (hfound : tree.find path = .ok found) (hfound' : tree'.find path = .ok found')
    (hentry : found'.entry = found.entry) {contents : List UInt8}
    (hcontents : found.entry.contents = .ok contents)
    (h : (analyzeFile path options : StateM FileTree _) tree = (.ok report, after))
    (h' : (analyzeFile path options : StateM FileTree _) tree' = (.ok report', after')) :
    report' = report := by
  obtain ⟨data, hdata, rfl⟩ := exists_data_of_analyzeFile hfound hcontents h
  obtain ⟨data', hdata', rfl⟩ := exists_data_of_analyzeFile hfound' (hentry ▸ hcontents) h'
  obtain rfl : data' = data :=
    (List.map_inj_right fun _ _ => Except.ok.inj).mp (hdata'.symm.trans hdata)
  rw [hentry]

theorem analyzeFile_of_raw (hfound : tree.find path = .ok found) {contents : List UInt8}
    (hcontents : found.entry.contents = .ok contents) (hraw : Format.ofPath path = .raw) :
    (analyzeFile path options : StateM FileTree _) tree =
      (.ok ((Analysis.ofData options [contents]).report path found.entry.metadata), tree) := by
  have hflatten : (Text.blocks (rawChunkSize - 1) contents).flatten = [contents].flatten := by
    rw [(readIn_blocks contents).flatten_eq, List.flatten_singleton]
  rw [analyzeFile_of_contents hfound hcontents, hraw, Format.chunks, analyzeChunks_map_ok, hfound,
    Analysis.ofData_congr options hflatten]

theorem analyses_sameStream {data data' : List (List UInt8)} (h : data.flatten = data'.flatten)
    (hfound : tree.find path = .ok found) (hfound' : tree'.find path' = .ok found') :
    ∃ r s, (analyzeChunks path options (data.map .ok) : StateM FileTree _) tree = (.ok r, tree) ∧
      (analyzeChunks path' options (data'.map .ok) : StateM FileTree _) tree' = (.ok s, tree') ∧
      r.SameStream s := by
  refine ⟨(Analysis.ofData options data).report path found.entry.metadata,
    (Analysis.ofData options data').report path' found'.entry.metadata, ?_, ?_, ?_⟩
  · rw [analyzeChunks_map_ok, hfound]
  · rw [analyzeChunks_map_ok, hfound']
  · rw [Analysis.ofData_congr options h]
    exact ⟨rfl, rfl, rfl⟩

end

/-- **A text and a raw file with the same bytes are analysed alike.** All lines of the text hold
bytes, maybe none, and together they are the contents of the raw file. Then the reports say the same
of the stream, in whatever pieces the raw file is read; and so it is for two files whose paths stand
for these formats. -/
theorem formats_sameStream (options : AnalysisOptions) (text : String) (data : List (List UInt8))
    (h : (textLines text.toList).mapM HexLine.bytes = .ok data) :
    (∀ (pieces : List (List UInt8)), ReadIn pieces data.flatten →
      ∀ (tree tree' : FileTree) (path path' : Path) (found found' : Spot),
      tree.find path = .ok found → tree'.find path' = .ok found' →
      ∃ r s,
        (analyzeChunks path options (Format.hexText.chunks text.toUTF8.data.toList) :
          StateM FileTree _) tree = (.ok r, tree) ∧
        (analyzeChunks path' options (pieces.map .ok) : StateM FileTree _) tree' =
          (.ok s, tree') ∧
        r.SameStream s) ∧
    (∃ pieces, Format.raw.chunks data.flatten = pieces.map .ok ∧ ReadIn pieces data.flatten) ∧
    (∀ (tree tree' : FileTree) (path path' : Path) (found found' : Spot),
      tree.find path = .ok found → tree'.find path' = .ok found' →
      Format.ofPath path = .hexText → found.entry.contents = .ok text.toUTF8.data.toList →
      Format.ofPath path' = .raw → found'.entry.contents = .ok data.flatten →
      ∃ r s, (analyzeFile path options : StateM FileTree _) tree = (.ok r, tree) ∧
        (analyzeFile path' options : StateM FileTree _) tree' = (.ok s, tree') ∧
        r.SameStream s) := by
  have htext : Format.hexText.chunks text.toUTF8.data.toList =
      (data.filter (!·.isEmpty)).map .ok := by
    rw [toList_toUTF8, chunks_hexText h]
  have hflatten : (data.filter (!·.isEmpty)).flatten = data.flatten :=
    List.flatten_filter_not_isEmpty
  have hraw := readIn_blocks data.flatten
  refine ⟨fun pieces hpieces tree tree' path path' found found' hfound hfound' => ?_,
    ⟨_, rfl, hraw⟩,
    fun tree tree' path path' found found' hfound hfound' hhex hcontents hpath' hcontents' => ?_⟩
  · rw [htext]
    exact analyses_sameStream (hflatten.trans hpieces.flatten_eq.symm) hfound hfound'
  · rw [analyzeFile_of_contents hfound hcontents, analyzeFile_of_contents hfound' hcontents', hhex,
      hpath', htext]
    exact analyses_sameStream (hflatten.trans hraw.flatten_eq.symm) hfound hfound'

/-- A voltage as text, in digits of either case, with a comment, a blank line and a blank within a
pair of digits, and the same bytes in a raw file. -/
theorem formats_sameStream_two_files :
    let text : String := "02 1c 20 3 0\t# volts\r\n\n4A5a6d 798f94aeb0 c0d0E4\n"
    let data : List (List UInt8) := [[0x02, 0x1c, 0x20, 0x30], [],
      [0x4a, 0x5a, 0x6d, 0x79, 0x8f, 0x94, 0xae, 0xb0, 0xc0, 0xd0, 0xe4]]
    let pieces : List (List UInt8) := [[0x02], [0x1c, 0x20, 0x30, 0x4a, 0x5a, 0x6d, 0x79, 0x8f,
      0x94, 0xae, 0xb0, 0xc0, 0xd0, 0xe4]]
    let hex : Entry := .file text.toUTF8.data.toList .epoch
    let raw : Entry := .file data.flatten ⟨1700000000⟩
    let tree : FileTree := ⟨.directory [("volts.HEX", hex), ("volts.bin", raw)], [], .epoch⟩
    let options : AnalysisOptions := ⟨.bm25x, false⟩
    (textLines text.toList).mapM HexLine.bytes = .ok data ∧ ReadIn pieces data.flatten ∧
    (∃ r s, (analyzeFile ⟨"volts.HEX"⟩ options : StateM FileTree _) tree = (.ok r, tree) ∧
      (analyzeFile ⟨"volts.bin"⟩ options : StateM FileTree _) tree = (.ok s, tree) ∧
      r.SameStream s) ∧
    ∃ r s, (analyzeChunks ⟨"volts.HEX"⟩ options (Format.hexText.chunks text.toUTF8.data.toList) :
        StateM FileTree _) tree = (.ok r, tree) ∧
      (analyzeChunks ⟨"volts.bin"⟩ options (pieces.map .ok) : StateM FileTree _) tree =
        (.ok s, tree) ∧
      r.SameStream s := by
  intro text data pieces hex raw tree options
  have hlines : (textLines text.toList).mapM HexLine.bytes = .ok data := by decide +kernel
  have hpieces : ReadIn pieces data.flatten := ⟨by decide, by decide⟩
  have hhex : tree.find ⟨"volts.HEX"⟩ = .ok ⟨["volts.HEX"], hex⟩ := by rfl
  have hraw : tree.find ⟨"volts.bin"⟩ = .ok ⟨["volts.bin"], raw⟩ := by rfl
  obtain ⟨hread, _, hfiles⟩ := formats_sameStream options text data hlines
  exact ⟨hlines, hpieces,
    hfiles tree tree _ _ _ _ hhex hraw (by decide +kernel) rfl (by decide +kernel) rfl,
    hread pieces hpieces tree tree _ _ _ _ hhex hraw⟩

end Multimeter
