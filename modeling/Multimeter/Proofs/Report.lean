import Mathlib.Data.List.Forall2
import Multimeter.Files.Tree
import Multimeter.Proofs.Analysis
import Multimeter.Proofs.Measurement
import Multimeter.Proofs.Verdict

/-!
# Consistent reports

The readings, the tally and the counters of a report come from three places; they agree.

* `Report.Records`: a report lists the readings and the rejections of an analysis, and nothing else.
* `Report.Consistent`: indices, offsets and counters of a report agree with each other;
  `Report.Consistent.rejectedCount_eq`: so does the number of rejections.
* `Analysis.records_report`, `Analysis.consistent_report`: both hold of the report of an analysis.
* **`analyzeChunks_consistent`**: an analysis gives such a report, or none when a chunk fails.
-/

namespace Multimeter

/-- A measurement stands for a reading at an offset of the stream. -/
structure Report.Measurement.StandsFor (m : Measurement) (e : Nat × Reading) : Prop where
  offset_eq : m.offset = UInt64.ofNat e.1
  finiteOrNamed : m.FiniteOrNamed
  /-- The reading can be told from the measurement. -/
  alike : m.toReading.Alike e.2

/-- A report lists the readings of an analysis in order and sums up its rejections. -/
structure Report.Records (r : Report) (a : Analysis) : Prop where
  measured : List.Forall₂ Measurement.StandsFor r.measurements a.readings
  tallied : r.rejections = (Tally.ofRejections a.rejections).summaries
  rejections_sorted : r.rejections.Pairwise RejectionSummary.Before
  /-- Only aligned frames are rejected. -/
  rejection_class : ∀ s ∈ r.rejections,
    s.rejectionClass = .conflict ∨ s.rejectionClass = .decode

/-- The numbers in a report agree with each other. -/
structure Report.Consistent (r : Report) (v : Variant) : Prop where
  index_eq : ∀ (i : Nat) (m : Measurement), r.measurements[i]? = some m → m.index.toNat = i
  offsets_apart : (r.measurements.map fun m => m.offset.toNat).Pairwise fun o o' =>
    o < o' ∧ o + v.frameLength ≤ o'
  counted : ∃ c, r.counters = some c ∧ c.framesDecoded.toNat = r.measurements.length ∧
    c.framesRejected.toNat = (r.rejections.map fun s => s.count.toNat).sum ∧
    (r.rejections = [] ↔ c.framesRejected = 0)
  /-- Each reason has occurred, and its first three texts are kept. -/
  rejection_sampled : ∀ s ∈ r.rejections,
    1 ≤ s.count.toNat ∧ s.examples.length = min 3 s.count.toNat

namespace Report

theorem rejectedCount_eq (r : Report) :
    r.rejectedCount = UInt64.ofNat (r.rejections.map fun s => s.count.toNat).sum := by
  have hfrom (l : List RejectionSummary) (n : UInt64) :
      l.foldl (fun count s => count + s.count) n =
        n + UInt64.ofNat (l.map fun s => s.count.toNat).sum := by
    induction l generalizing n with
    | nil => exact (UInt64.add_zero n).symm
    | cons s l ih =>
      rw [List.foldl_cons, ih, List.map_cons, List.sum_cons, UInt64.ofNat_add, UInt64.ofNat_toNat,
        UInt64.add_assoc]
  rw [rejectedCount, hfrom, UInt64.zero_add]

theorem Consistent.rejectedCount_eq {r : Report} {v : Variant} (h : r.Consistent v) :
    ∃ c, r.counters = some c ∧ r.rejectedCount = c.framesRejected ∧
      (r.rejections = [] ↔ c.framesRejected = 0) := by
  obtain ⟨c, hcounters, -, hsum, hnone⟩ := h.counted
  refine ⟨c, hcounters, ?_, hnone⟩
  rw [Report.rejectedCount_eq, ← hsum, UInt64.ofNat_toNat]

end Report

namespace Analysis

open Report

/-! ## Measurements -/

section

variable (a : Analysis)

theorem length_measurements : a.measurements.length = a.readings.length := by
  rw [measurements, List.length_map, List.length_zipIdx]

theorem getElem?_measurements (i : Nat) : a.measurements[i]? = a.readings[i]?.map fun e =>
    .ofReading (UInt64.ofNat i) (UInt64.ofNat e.1) e.2 := by
  rw [measurements, List.getElem?_map, List.getElem?_zipIdx, Option.map_map, Nat.zero_add]
  rfl

theorem forall₂_measurements :
    List.Forall₂ Measurement.StandsFor a.measurements a.readings := by
  have hreadings : a.readings = a.readings.zipIdx.map Prod.fst := (List.zipIdx_map_fst 0 _).symm
  conv_rhs => rw [hreadings]
  rw [measurements, List.forall₂_map_left_iff, List.forall₂_map_right_iff, List.forall₂_same]
  rintro ⟨⟨offset, reading⟩, index⟩ _
  exact ⟨rfl, Measurement.finiteOrNamed_ofReading _ _ reading,
    Measurement.alike_toReading_ofReading _ _ reading⟩

theorem map_offset_measurements (h : ∀ e ∈ a.readings, e.1 < 2 ^ 64) :
    (a.measurements.map fun m => m.offset.toNat) = a.readings.map Prod.fst := by
  rw [measurements, List.map_map]
  calc a.readings.zipIdx.map _
      = a.readings.zipIdx.map fun e => e.1.1 := by
        refine List.map_congr_left fun e he => ?_
        have hmem : e.1 ∈ a.readings := List.fst_mem_of_mem_zipIdx he
        exact UInt64.toNat_ofNat_of_lt' (h e.1 hmem)
    _ = (a.readings.zipIdx.map Prod.fst).map Prod.fst := by rw [List.map_map]; rfl
    _ = a.readings.map Prod.fst := by rw [List.zipIdx_map_fst]

theorem summaries_report (path : Path) (file : Metadata) :
    (a.report path file).rejections = (Tally.ofRejections a.rejections).summaries :=
  congrArg Tally.summaries a.tally_eq_ofRejections

end

/-! ## Reports -/

section

variable (options : AnalysisOptions) (data : List (List UInt8))

theorem offset_add_le_of_mem_readings {e : Nat × Reading}
    (he : e ∈ (ofData options data).readings) :
    e.1 + options.variant.frameLength ≤ data.flatten.length := by
  rw [mem_readings, events_ofData] at he
  have hfits := (mem_sweep_sound he).1
  rwa [Scanner.length_masked] at hfits

theorem pairwise_offset_readings : (ofData options data).readings.Pairwise fun e e' =>
    e.1 + options.variant.frameLength ≤ e'.1 := by
  rw [readings, List.pairwise_filterMap, events_ofData]
  refine pairwise_offset_sweep.imp fun {event event'} hgap e he e' he' => ?_
  cases event with
  | rejected => simp at he
  | measurement =>
    cases event' with
    | rejected => simp at he'
    | measurement =>
      obtain rfl := Option.some.inj he
      obtain rfl := Option.some.inj he'
      exact hgap

theorem length_readings_add_rejections_le : (ofData options data).readings.length +
    (ofData options data).rejections.length ≤ data.flatten.length := by
  have hsplit := List.length_eq_countP_add_countP (fun e : ScanEvent => e.isMeasurement)
    (l := (ofData options data).events)
  have hle := length_events_sweep_le options.variant
    (Scanner.masked options.maskParity data.flatten)
  rw [← events_ofData, Scanner.length_masked] at hle
  rw [length_readings, length_rejections]
  simp only [Bool.not_eq_true, Bool.decide_eq_false] at hsplit
  omega

theorem records_report (path : Path) (file : Metadata) :
    ((ofData options data).report path file).Records (ofData options data) where
  measured := forall₂_measurements _
  tallied := summaries_report _ path file
  rejections_sorted := by
    rw [summaries_report]
    exact Tally.pairwise_summaries _
  rejection_class s hs := by
    rw [summaries_report] at hs
    obtain ⟨e, he, -, hclass, -⟩ := Tally.exists_of_mem_summaries hs
    rw [hclass]
    exact Scanner.class_of_rejected_mem_feed (mem_rejections.mp he)

theorem pairwise_offset_measurements (h : data.flatten.length < 2 ^ 64) :
    ((ofData options data).measurements.map fun m => m.offset.toNat).Pairwise fun o o' =>
      o < o' ∧ o + options.variant.frameLength ≤ o' := by
  have hoffsets := map_offset_measurements (ofData options data) fun e he => by
    have hfits := offset_add_le_of_mem_readings options data he
    omega
  have hpos := options.variant.frameLength_pos
  rw [hoffsets, List.pairwise_map]
  exact (pairwise_offset_readings options data).imp fun hgap => ⟨by omega, hgap⟩

/-- **The numbers in a report agree**, as long as its counters do not overflow. -/
theorem consistent_report (h : data.flatten.length < 2 ^ 64) (path : Path) (file : Metadata) :
    ((ofData options data).report path file).Consistent options.variant := by
  have hlength := length_readings_add_rejections_le options data
  have hsummaries := summaries_report (ofData options data) path file
  have hfits {n : Nat} (hn : n ≤ data.flatten.length) : (UInt64.ofNat n).toNat = n :=
    UInt64.toNat_ofNat_of_lt' (Nat.lt_of_le_of_lt hn h)
  have hdecoded : (UInt64.ofNat (ofData options data).scanner.stats.framesDecoded).toNat =
      (ofData options data).measurements.length := by
    rw [framesDecoded_ofData, hfits (by omega), length_measurements]
  have hrejected : (UInt64.ofNat (ofData options data).scanner.stats.framesRejected).toNat =
      (ofData options data).rejections.length := by
    rw [framesRejected_ofData, hfits (by omega)]
  refine ⟨fun i m hm => ?_, pairwise_offset_measurements options data h,
    ⟨_, rfl, hdecoded, ?_, ?_⟩, fun s hs => ?_⟩
  · have hget := (getElem?_measurements (ofData options data) i).symm.trans hm
    obtain ⟨e, he, rfl⟩ := Option.map_eq_some_iff.mp hget
    have hi := (List.getElem?_eq_some_iff.mp he).1
    exact hfits (by omega)
  · rw [hsummaries, Tally.sum_count_summaries (by omega)]
    exact hrejected
  · rw [hsummaries, Tally.summaries_eq_nil_iff, ← List.length_eq_zero_iff, ← hrejected,
      ← UInt64.toNat_inj]
    rfl
  · rw [hsummaries] at hs
    exact Tally.sampled_of_mem_summaries (by omega) hs

end

end Analysis

/-! ## Analysing the chunks of a file -/

section

variable (path : Path) (options : AnalysisOptions) (tree : FileTree)

theorem analyzeChunks_map_ok (data : List (List UInt8)) :
    (analyzeChunks path options (data.map .ok) : StateM FileTree _) tree =
      (match tree.find path with
        | .error e => .error (.file e)
        | .ok found => .ok ((Analysis.ofData options data).report path found.entry.metadata),
        tree) := by
  have hmetadata : (FileAccess.metadata path : StateM FileTree _) tree =
      ((tree.find path).map (·.entry.metadata), tree) := rfl
  unfold analyzeChunks
  rw [Analysis.run_map_ok]
  cases hfind : tree.find path with
  | error e =>
    rw [hfind] at hmetadata
    simp only [bind, StateT.bind, hmetadata]
    rfl
  | ok found =>
    rw [hfind] at hmetadata
    simp only [bind, StateT.bind, hmetadata]
    rfl

theorem analyzeChunks_first_error (data : List (List UInt8)) (e : Capture.SourceError)
    (rest : List (Except Capture.SourceError (List UInt8))) :
    (analyzeChunks path options (data.map .ok ++ .error e :: rest) : StateM FileTree _) tree =
      (.error (.source e), tree) := by
  unfold analyzeChunks
  rw [Analysis.run, Analysis.runFrom_first_error]
  rfl

/-- **Every report is consistent.** When no chunk fails and the file can be examined there is a
report, it lists what the scanner has found, and its parts agree, as long as the stream is not too
long for the counters. When a chunk fails there is none. -/
theorem analyzeChunks_consistent :
    (∀ data : List (List UInt8),
      (∀ e, tree.find path = .error e →
        (analyzeChunks path options (data.map .ok) : StateM FileTree _) tree =
          (.error (.file e), tree)) ∧
      ∀ found, tree.find path = .ok found → ∃ report : Report,
        (analyzeChunks path options (data.map .ok) : StateM FileTree _) tree =
          (.ok report, tree) ∧
        report.Records (.ofData options data) ∧
        (data.flatten.length < 2 ^ 64 → report.Consistent options.variant)) ∧
    ∀ chunks, (∃ e, .error e ∈ chunks) → ∃ (data : List (List UInt8)) (e : _) (rest : _),
      chunks = data.map .ok ++ .error e :: rest ∧
      (analyzeChunks path options chunks : StateM FileTree _) tree = (.error (.source e), tree) := by
  refine ⟨fun data => ⟨fun e hfind => ?_, fun found hfind => ?_⟩, fun chunks h => ?_⟩
  · rw [analyzeChunks_map_ok, hfind]
  · refine ⟨(Analysis.ofData options data).report path found.entry.metadata, ?_,
      Analysis.records_report options data path found.entry.metadata,
      fun h => Analysis.consistent_report options data h path found.entry.metadata⟩
    rw [analyzeChunks_map_ok, hfind]
  · obtain ⟨data, e, rest, rfl⟩ := Analysis.exists_first_error h
    exact ⟨data, e, rest, rfl, analyzeChunks_first_error path options tree data e rest⟩

end

/-- Two voltages and four packets with AC and DC lit, one of them cut in two: a report with two
measurements, and three texts for four rejections. A file that is not there and a chunk that fails
give none. -/
theorem analyzeChunks_consistent_four_rejections :
    let volts : List UInt8 := [0x02, 0x1c, 0x20, 0x30, 0x4a, 0x5a, 0x6d, 0x79, 0x8f, 0x94, 0xae,
      0xb0, 0xc0, 0xd0, 0xe4]
    let conflict : List UInt8 := [0x02, 0x16, 0x20, 0x30, 0x4a, 0x5a, 0x6d, 0x79, 0x8f, 0x94, 0xae,
      0xb0, 0xc0, 0xd0, 0xe4]
    let data := [volts ++ conflict, conflict.take 5, conflict.drop 5 ++ conflict, conflict ++ volts]
    let options : AnalysisOptions := ⟨.bm25x, false⟩
    let tree : FileTree := ⟨.directory [("capture.bin", .file [] .epoch)], [], .epoch⟩
    let broken : Capture.SourceError := .capture "line 2"
    let chunks := [.ok volts, .error broken, .ok volts]
    (tree.find ⟨"capture.bin"⟩ = .ok ⟨["capture.bin"], .file [] .epoch⟩ ∧
      data.flatten.length < 2 ^ 64 ∧ ∃ report : Report,
        (analyzeChunks ⟨"capture.bin"⟩ options (data.map .ok) : StateM FileTree _) tree =
          (.ok report, tree) ∧
        report.Records (.ofData options data) ∧ report.Consistent .bm25x ∧
        report.measurements.length = 2 ∧
        report.rejections.map (fun s => (s.id, s.count, s.examples.length)) =
          [("DMM-FLAGS-AC-DC", 4, 3)]) ∧
    (tree.find ⟨"missing.bin"⟩ = .error .notFound ∧
      (analyzeChunks ⟨"missing.bin"⟩ options (data.map .ok) : StateM FileTree _) tree =
        (.error (.file .notFound), tree)) ∧
    ((∃ e, .error e ∈ chunks) ∧ ∃ (before : List (List UInt8)) (e : _) (rest : _),
      chunks = before.map .ok ++ .error e :: rest ∧
      (analyzeChunks ⟨"capture.bin"⟩ options chunks : StateM FileTree _) tree =
        (.error (.source e), tree)) := by
  intro volts conflict data options tree broken chunks
  have hfound : tree.find ⟨"capture.bin"⟩ = .ok ⟨["capture.bin"], .file [] .epoch⟩ := by rfl
  have hmissing : tree.find ⟨"missing.bin"⟩ = .error .notFound := by rfl
  have hlength : data.flatten.length < 2 ^ 64 := by decide
  have hreadings : (Analysis.ofData options data).readings.length = 2 := by decide +kernel
  have hsummaries : (Tally.ofRejections (Analysis.ofData options data).rejections).summaries.map
      (fun s => (s.id, s.count, s.examples.length)) = [("DMM-FLAGS-AC-DC", 4, 3)] := by
    decide +kernel
  have hbroken : ∃ e, .error e ∈ chunks := ⟨broken, by decide⟩
  obtain ⟨hdata, hchunks⟩ := analyzeChunks_consistent ⟨"capture.bin"⟩ options tree
  obtain ⟨report, hreport, hrecords, hconsistent⟩ := (hdata data).2 _ hfound
  exact ⟨⟨hfound, hlength, report, hreport, hrecords, hconsistent hlength,
      hrecords.measured.length_eq.trans hreadings, by rw [hrecords.tallied]; exact hsummaries⟩,
    ⟨hmissing, ((analyzeChunks_consistent ⟨"missing.bin"⟩ options tree).1 data).1 _ hmissing⟩,
    hbroken, hchunks chunks hbroken⟩

end Multimeter
