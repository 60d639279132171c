import Multimeter.Analysis
import Multimeter.Proofs.Scanner.Coverage
import Multimeter.Proofs.Tally

/-!
# Runs of an analysis

Chunks go through a scanner until one of them fails. Of the events of a run, readings and rejections
are told apart, and the scanner has counted as many of each.

* `Analysis.ofData`: the analysis of chunks none of which fails.
* **`Analysis.run_map_ok`**, **`Analysis.runFrom_first_error`**: the two ends of a run;
  `Analysis.exists_first_error`: there is no other.
* `Analysis.rejections`; `Analysis.tally_eq_ofRejections`: what is tallied.
* `Analysis.framesDecoded_ofData`, `Analysis.framesRejected_ofData`: the counters of the scanner.
-/

namespace Multimeter

namespace Analysis

/-! ## Runs -/

/-- The analysis of chunks none of which fails. -/
def ofData (options : AnalysisOptions) (data : List (List UInt8)) : Analysis where
  scanner := ((Scanner.fresh options.variant options.maskParity).feed data).1
  events := ((Scanner.fresh options.variant options.maskParity).feed data).2

theorem runFrom_ok_cons (s : Scanner) (chunk : List UInt8)
    (rest : List (Except Capture.SourceError (List UInt8))) :
    runFrom s (.ok chunk :: rest) = (runFrom (s.push chunk).1 rest).map fun later =>
      { later with events := (s.push chunk).2 ++ later.events } := rfl

theorem runFrom_map_ok (s : Scanner) (data : List (List UInt8)) :
    runFrom s (data.map .ok) = .ok ⟨(s.feed data).1, (s.feed data).2⟩ := by
  induction data generalizing s with
  | nil => rfl
  | cons chunk rest ih =>
    rw [List.map_cons, runFrom_ok_cons, ih]
    rfl

theorem run_map_ok (options : AnalysisOptions) (data : List (List UInt8)) :
    run options (data.map .ok) = .ok (ofData options data) :=
  runFrom_map_ok _ data

/-- **Where chunks end means nothing**: only what they hold together counts. -/
theorem ofData_congr (options : AnalysisOptions) {data data' : List (List UInt8)}
    (h : data.flatten = data'.flatten) : ofData options data = ofData options data' := by
  unfold ofData
  rw [Scanner.feed_fresh, Scanner.feed_fresh, h]

theorem runFrom_first_error (s : Scanner) (data : List (List UInt8)) (e : Capture.SourceError)
    (rest : List (Except Capture.SourceError (List UInt8))) :
    runFrom s (data.map .ok ++ .error e :: rest) = .error e := by
  induction data generalizing s with
  | nil => rfl
  | cons chunk later ih =>
    rw [List.map_cons, List.cons_append, runFrom_ok_cons, ih]
    rfl

theorem exists_first_error {chunks : List (Except Capture.SourceError (List UInt8))}
    (h : ∃ e, .error e ∈ chunks) :
    ∃ (data : List (List UInt8)) (e : Capture.SourceError)
      (rest : List (Except Capture.SourceError (List UInt8))),
      chunks = data.map .ok ++ .error e :: rest := by
  induction chunks with
  | nil =>
    obtain ⟨e, he⟩ := h
    exact absurd he List.not_mem_nil
  | cons chunk rest ih =>
    cases chunk with
    | error e => exact ⟨[], e, rest, rfl⟩
    | ok bytes =>
      obtain ⟨e, he⟩ := h
      have hlater : .error e ∈ rest := (List.mem_cons.mp he).resolve_left (nomatch ·)
      obtain ⟨data, first, behind, rfl⟩ := ih ⟨e, hlater⟩
      exact ⟨bytes :: data, first, behind, rfl⟩

theorem exists_map_ok_of_runFrom {s : Scanner} {a : Analysis}
    {chunks : List (Except Capture.SourceError (List UInt8))} (h : runFrom s chunks = .ok a) :
    ∃ data : List (List UInt8), chunks = data.map .ok := by
  induction chunks generalizing s a with
  | nil => exact ⟨[], rfl⟩
  | cons chunk rest ih =>
    cases chunk with
    | error e => cases h
    | ok bytes =>
      rw [runFrom_ok_cons] at h
      cases hlater : runFrom (s.push bytes).1 rest with
      | error e =>
        rw [hlater] at h
        cases h
      | ok later =>
        obtain ⟨data, rfl⟩ := ih hlater
        exact ⟨bytes :: data, rfl⟩

/-! ## Readings and rejections -/

/-- The rejections in order, with the offsets of their frames. -/
def rejections (a : Analysis) : List (Nat × PacketError) :=
  a.events.filterMap fun
    | .measurement .. => none
    | .rejected offset error => some (offset, error)

theorem tally_eq_ofRejections (a : Analysis) : a.tally = .ofRejections a.rejections := by
  rw [tally, Tally.ofRejections, rejections, List.foldl_filterMap]
  congr 1
  funext t e
  cases e <;> rfl

theorem length_readings (a : Analysis) :
    a.readings.length = a.events.countP (·.isMeasurement) := by
  rw [readings, List.length_filterMap_eq_countP]
  congr 1
  funext e
  cases e <;> rfl

theorem length_rejections (a : Analysis) :
    a.rejections.length = a.events.countP (!·.isMeasurement) := by
  rw [rejections, List.length_filterMap_eq_countP]
  congr 1
  funext e
  cases e <;> rfl

theorem mem_readings {a : Analysis} {e : Nat × Reading} :
    e ∈ a.readings ↔ .measurement e.1 e.2 ∈ a.events := by
  rw [readings, List.mem_filterMap]
  constructor
  · rintro ⟨event, hevent, he⟩
    cases event with
    | measurement offset reading =>
      obtain rfl := Option.some.inj he
      exact hevent
    | rejected => exact nomatch he
  · exact fun h => ⟨_, h, rfl⟩

theorem mem_rejections {a : Analysis} {e : Nat × PacketError} :
    e ∈ a.rejections ↔ .rejected e.1 e.2 ∈ a.events := by
  rw [rejections, List.mem_filterMap]
  constructor
  · rintro ⟨event, hevent, he⟩
    cases event with
    | measurement => exact nomatch he
    | rejected offset error =>
      obtain rfl := Option.some.inj he
      exact hevent
  · exact fun h => ⟨_, h, rfl⟩

section

variable (options : AnalysisOptions) (data : List (List UInt8))

theorem events_ofData : (ofData options data).events =
    (sweep options.variant (Scanner.masked options.maskParity data.flatten) 0).events :=
  Scanner.events_feed_eq_sweep options.variant options.maskParity data

theorem framesDecoded_ofData : (ofData options data).scanner.stats.framesDecoded =
    (ofData options data).readings.length := by
  rw [length_readings, events_ofData, ofData, Scanner.stats_feed_eq_sweep]
  rfl

theorem framesRejected_ofData : (ofData options data).scanner.stats.framesRejected =
    (ofData options data).rejections.length := by
  rw [length_rejections, events_ofData, ofData, Scanner.stats_feed_eq_sweep]
  rfl

end

end Analysis

end Multimeter
