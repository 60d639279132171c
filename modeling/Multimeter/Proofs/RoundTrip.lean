import Multimeter.Proofs.Json.Binary64
import Multimeter.Proofs.Json.Members
import Multimeter.Proofs.Qualifiers
import Multimeter.Proofs.Report
import Multimeter.Proofs.Reading
import Multimeter.Report.Text

/-!
# Reports read back

A written report is read back as the same report. Each part is an object of members that may be
absent. The only data that could be lost are the values of readings, which are numbers on a display,
and bits of their qualifiers that stand for nothing, which are never set.

* `Report.Measurement.ofJson?_toJson`, `Report.rejectionOfJson?_toJson` and others: the parts.
* **`Report.ofJson?_toJson`**, **`Report.readsBack_of_legible`**: a whole report, if its values and
  qualifiers are read back.
* **`Variant.isDisplayed_of_decode`**, `Variant.named_of_decode`, `Analysis.legible_report`: the
  values and the qualifiers of an analysis.
* **`reports_read_back`**: all reports that there are.
-/

namespace Multimeter

namespace Report

theorem qualifiersOfJson?_toJson {s : QualifierSet} (h : s.Named) :
    qualifiersOfJson? (qualifiersToJson s) = some s := by
  rw [qualifiersOfJson?, qualifiersToJson, Json.list?_ofStrings, Option.bind_eq_bind,
    Option.bind_some, QualifierSet.ofNames_names h]
  rfl

/-! ## The parts -/

namespace Tool

def fields (t : Tool) : List (String × Option Json) :=
  [("name", some (.ofString t.name)), ("version", some (.ofString t.version))]

theorem ofJson?_toJson (t : Tool) : ofJson? t.toJson = some t := by
  have hfields : t.toJson.fields? names = some (t.fields.map Prod.snd) :=
    Json.fields?_present t.fields rfl rfl (by decide)
  unfold ofJson?
  rw [hfields]
  -- with proofs by `rfl` left implicit the kernel would run the reader on the numerals
  simp -implicitDefEqProofs [fields]

theorem written_toJson (t : Tool) : t.toJson.Written :=
  Json.written_present t.fields rfl (by simp [fields, Json.Written.string])

end Tool

namespace Input

def fields (i : Input) : List (String × Option Json) :=
  [("path", some (.ofString i.path)), ("bytes", some (.ofNat i.bytes.toNat))]

theorem ofJson?_toJson (i : Input) : ofJson? i.toJson = some i := by
  have hfields : i.toJson.fields? names = some (i.fields.map Prod.snd) :=
    Json.fields?_present i.fields rfl rfl (by decide)
  unfold ofJson?
  rw [hfields]
  simp -implicitDefEqProofs [fields]

theorem written_toJson (i : Input) : i.toJson.Written :=
  Json.written_present i.fields rfl (by simp [fields, Json.Written.string, Json.written_ofNat])

end Input

namespace Protocol

def fields (p : Protocol) : List (String × Option Json) :=
  [("name", some (.ofString p.name)), ("family", some (.ofString p.family.name)),
    ("baud_rate", some (.ofNat p.baudRate.toNat)), ("frame_len", some (.ofNat p.frameLength.toNat)),
    ("display_digits", some (.ofNat p.displayDigits.toNat))]

theorem ofJson?_toJson (p : Protocol) : ofJson? p.toJson = some p := by
  have hfields : p.toJson.fields? names = some (p.fields.map Prod.snd) :=
    Json.fields?_present p.fields rfl rfl (by decide)
  unfold ofJson?
  rw [hfields]
  simp -implicitDefEqProofs [fields]

theorem written_toJson (p : Protocol) : p.toJson.Written :=
  Json.written_present p.fields rfl (by simp [fields, Json.Written.string, Json.written_ofNat])

end Protocol

namespace Counters

def fields (c : Counters) : List (String × Option Json) :=
  [("bytes_total", some (.ofNat c.bytesTotal.toNat)),
    ("bytes_skipped", some (.ofNat c.bytesSkipped.toNat)),
    ("bytes_trailing", some (.ofNat c.bytesTrailing.toNat)),
    ("frames_decoded", some (.ofNat c.framesDecoded.toNat)),
    ("frames_rejected", some (.ofNat c.framesRejected.toNat)),
    ("parity_masked", some (.bool c.parityMasked))]

theorem ofJson?_toJson (c : Counters) : ofJson? c.toJson = some c := by
  have hfields : c.toJson.fields? names = some (c.fields.map Prod.snd) :=
    Json.fields?_present c.fields rfl rfl (by decide)
  unfold ofJson?
  rw [hfields]
  simp -implicitDefEqProofs [fields, Json.bool?]

theorem written_toJson (c : Counters) : c.toJson.Written :=
  Json.written_present c.fields rfl (by simp [fields, Json.Written.bool, Json.written_ofNat])

end Counters

namespace Measurement

/-- A value that is absent is written as null. -/
def valueJson (m : Measurement) : Json :=
  (m.value.map fun x => .number (.ofBinary64 x)).getD .null

def fields (m : Measurement) : List (String × Option Json) :=
  [("index", some (.ofNat m.index.toNat)), ("offset", some (.ofNat m.offset.toNat)),
    ("kind", some (.ofString m.quantity.name)), ("unit", some (.ofString m.unit.name)),
    ("unit_symbol", some (.ofString m.unitSymbol)), ("flags", some (qualifiersToJson m.qualifiers)),
    ("value", some m.valueJson), ("special", m.special.map .ofString),
    ("digits", some (.ofInt m.digits.toInt))]

/-- The qualifiers have names, and the value, if there is one, can be written and is read back. -/
structure Legible (m : Measurement) : Prop where
  named : m.qualifiers.Named
  value : ∀ x ∈ m.value,
    (Numeral.ofBinary64 x).Written ∧ (Numeral.ofBinary64 x).toBinary64? = some x

variable {m : Measurement}

theorem optional?_valueJson (h : m.Legible) :
    Json.optional? Json.binary64? (some m.valueJson) = some m.value := by
  unfold valueJson
  cases hvalue : m.value with
  | none => rfl
  | some x => exact congrArg (Option.map some) (h.value x hvalue).2

theorem optional?_special (m : Measurement) :
    Json.optional? Json.text? (m.special.map .ofString) = some m.special := by
  cases m.special with
  | none => rfl
  | some s => exact congrArg (Option.map some) (Json.text?_ofString s)

theorem ofJson?_toJson (h : m.Legible) : ofJson? m.toJson = some m := by
  have hfields : m.toJson.fields? names = some (m.fields.map Prod.snd) :=
    Json.fields?_present m.fields rfl rfl (by decide)
  unfold ofJson?
  rw [hfields]
  simp -implicitDefEqProofs [fields, qualifiersOfJson?_toJson h.named, optional?_valueJson h,
    optional?_special]

theorem written_valueJson (h : m.Legible) : m.valueJson.Written := by
  unfold valueJson
  cases hvalue : m.value with
  | none => exact .null
  | some x => exact .number (h.value x hvalue).1

theorem written_toJson (h : m.Legible) : m.toJson.Written := by
  refine Json.written_present m.fields rfl ?_
  simp [fields, Json.Written.string, Json.written_ofNat, Json.written_ofInt, qualifiersToJson,
    Json.written_ofStrings, written_valueJson h]

end Measurement

/-! ## Rejections -/

section

variable (r : RejectionSummary)

def examplesJson : Option Json := if r.examples = [] then none else some (.ofStrings r.examples)

def rejectionFields : List (String × Option Json) :=
  [("id", some (.ofString r.id)), ("class", some (.ofString r.rejectionClass.name)),
    ("message", some (.ofString r.message)), ("count", some (.ofNat r.count.toNat)),
    ("examples", examplesJson r)]

theorem list?_examplesJson :
    ((examplesJson r).map (Json.list? Json.text?)).getD (some []) = some r.examples := by
  unfold examplesJson
  split_ifs with hnil
  · rw [hnil]
    rfl
  · exact Json.list?_ofStrings r.examples

theorem rejectionToJson_eq : rejectionToJson r = .ofMembers (Json.present (rejectionFields r)) := by
  simp [rejectionToJson, rejectionFields, Json.present, member?, examplesJson]

theorem rejectionOfJson?_toJson : rejectionOfJson? (rejectionToJson r) = some r := by
  have hfields : (rejectionToJson r).fields? rejectionNames =
      some ((rejectionFields r).map Prod.snd) :=
    Json.fields?_present (rejectionFields r) (rejectionToJson_eq r) rfl (by decide)
  unfold rejectionOfJson?
  rw [hfields]
  simp -implicitDefEqProofs [rejectionFields, list?_examplesJson]

theorem written_rejectionToJson : (rejectionToJson r).Written := by
  have hexamples : ∀ j ∈ examplesJson r, j.Written := by
    intro j hj
    unfold examplesJson at hj
    split_ifs at hj
    · cases hj
    · exact Option.some.inj hj ▸ Json.written_ofStrings _
  refine Json.written_present (rejectionFields r) (rejectionToJson_eq r) ?_
  simpa [rejectionFields, Json.Written.string, Json.written_ofNat] using hexamples

end

/-! ## Whole reports -/

def fields (r : Report) : List (String × Option Json) :=
  [("report_version", some (.ofNat r.version.toNat)), ("tool", some r.tool.toJson),
    ("generated_at", some (.ofString r.generatedAt)), ("input", some r.input.toJson),
    ("protocol", some r.protocol.toJson), ("capture_summary", r.counters.map Counters.toJson),
    ("measurements", some (.array (r.measurements.map Measurement.toJson))),
    ("rejections", some (.array (r.rejections.map rejectionToJson)))]

/-- Every measurement in the report can be written and is read back. -/
def Legible (r : Report) : Prop := ∀ m ∈ r.measurements, m.Legible

theorem optional?_counters (r : Report) :
    Json.optional? Counters.ofJson? (r.counters.map Counters.toJson) = some r.counters := by
  cases r.counters with
  | none => rfl
  | some c => exact congrArg (Option.map some) c.ofJson?_toJson

variable {r : Report}

/-- **The value of a report gives back the report.** -/
theorem ofJson?_toJson (h : r.Legible) : ofJson? r.toJson = some r := by
  have hfields : r.toJson.fields? names = some (r.fields.map Prod.snd) :=
    Json.fields?_present r.fields rfl rfl (by decide)
  have hmeasurements := Json.list?_map fun m hm => Measurement.ofJson?_toJson (h m hm)
  have hrejections := Json.list?_map fun s (_ : s ∈ r.rejections) => rejectionOfJson?_toJson s
  unfold ofJson?
  rw [hfields]
  simp -implicitDefEqProofs [fields, Tool.ofJson?_toJson, Input.ofJson?_toJson,
    Protocol.ofJson?_toJson, optional?_counters, hmeasurements, hrejections]

theorem written_toJson (h : r.Legible) : r.toJson.Written := by
  have hcounters : ∀ j ∈ r.counters.map Counters.toJson, j.Written := by
    intro j hj
    obtain ⟨c, _, rfl⟩ := Option.map_eq_some_iff.mp hj
    exact c.written_toJson
  have hmeasurements : (Json.array (r.measurements.map Measurement.toJson)).Written :=
    Json.written_array_map fun m hm => Measurement.written_toJson (h m hm)
  have hrejections : (Json.array (r.rejections.map rejectionToJson)).Written :=
    Json.written_array_map fun s _ => written_rejectionToJson s
  refine Json.written_present r.fields rfl ?_
  simpa [fields, Json.Written.string, Json.written_ofNat, Tool.written_toJson, Input.written_toJson,
    Protocol.written_toJson, hmeasurements, hrejections] using hcounters

/-- What is written of a report is read back as the report, and written again it is the same text. -/
structure ReadsBack (r : Report) : Prop where
  compact : read? r.compact = some r
  pretty : read? r.pretty = some r
  compact_again : (read? r.compact).map Report.compact = some r.compact
  pretty_again : (read? r.pretty).map Report.pretty = some r.pretty

/-- **A legible report reads back** from both forms. -/
theorem readsBack_of_legible (h : r.Legible) : r.ReadsBack := by
  have hcompact : read? r.compact = some r := by
    rw [read?, Report.compact, Json.read?_compact (written_toJson h)]
    exact ofJson?_toJson h
  have hpretty : read? r.pretty = some r := by
    rw [read?, Report.pretty, Json.read?_pretty (written_toJson h)]
    exact ofJson?_toJson h
  exact ⟨hcompact, hpretty, by rw [hcompact]; rfl, by rw [hpretty]; rfl⟩

end Report

/-! ## Qualifiers and values of readings -/

open QualifierSet in
theorem Bm25x.Packet.named_qualifiers (p : Packet) : p.qualifiers.Named := by
  have hlit : p.litQualifiers.Named :=
    named_empty.addIf _ _ |>.addIf _ _ |>.addIf _ _ |>.addIf _ _ |>.addIf _ _ |>.addIf _ _
      |>.addIf _ _
  unfold qualifiers
  split_ifs
  · exact hlit.union ((named_single _).union (named_single _))
  · exact hlit

open QualifierSet in
theorem Es519xx.named_qualifiers (a : Annunciators) : (qualifiers a).Named := by
  have hlit := named_empty.addIf .ac a.ac |>.addIf .dc a.dc |>.addIf .autorange a.auto
  have hcoupling : (coupling a).Named := by
    unfold coupling
    split_ifs
    · exact (hlit.sdiff _).union ((named_single _).union (named_single _))
    · exact hlit
  exact hcoupling.addIf _ _ |>.addIf _ _ |>.addIf _ _ |>.addIf _ _

/-- A number on a display, with its sign. -/
def Binary64.IsDisplayed (x : Binary64) : Prop :=
  ∃ n e negative, n ≤ 99999 ∧ (-12 ≤ e ∧ e ≤ 6) ∧ x = (decimalValue n e).negIf negative

namespace Variant

variable {v : Variant} {frame : List UInt8} {r : Reading}

theorem open_or_closed_of_decode (h : v.decode frame = .ok r)
    (hquantity : r.quantity = .continuity) : r.value = .zero ∨ r.value = .one := by
  cases hv : v.profile.family with
  | bm25x =>
    rw [decode_of_bm25x frame hv, mapError_eq_ok_iff, Bm25x.Packet.decode_eq_ok_iff] at h
    obtain ⟨_, hlamps, rfl⟩ := h
    exact (Bm25x.Packet.wellFormed_reading hlamps).open_or_closed hquantity
  | es519xx =>
    rw [decode_of_es519xx frame hv, mapError_eq_ok_iff] at h
    exact (Es519xx.wellFormed_of_decode h).open_or_closed hquantity

/-- **Every finite value is a number on a display**; a continuity test shows zero or one. -/
theorem isDisplayed_of_decode (h : v.decode frame = .ok r) (hfinite : r.value.IsFinite) :
    r.value.IsDisplayed := by
  by_cases hquantity : r.quantity = .continuity
  · obtain hopen | hclosed := open_or_closed_of_decode h hquantity
    · exact ⟨0, 0, false, by decide, by decide, hopen.trans (by decide +kernel)⟩
    · exact ⟨1, 0, false, by decide, by decide, hclosed.trans (by decide +kernel)⟩
  · obtain ⟨e, _, he, _, hvalue⟩ := exists_exponent_of_decode h
    obtain ⟨digits, negative, hdisplayed, hvalue⟩ := hvalue hfinite hquantity
    exact ⟨_, e, negative, (isDisplay_of_displayed? hdisplayed).shownNumber_le, he, hvalue⟩

/-- **A reading has no qualifier without a name.** -/
theorem named_of_decode (h : v.decode frame = .ok r) : r.qualifiers.Named := by
  cases hv : v.profile.family with
  | bm25x =>
    rw [decode_of_bm25x frame hv, mapError_eq_ok_iff, Bm25x.Packet.decode_eq_ok_iff] at h
    obtain ⟨_, _, rfl⟩ := h
    exact Bm25x.Packet.named_qualifiers _
  | es519xx =>
    rw [decode_of_es519xx frame hv, mapError_eq_ok_iff] at h
    obtain ⟨a, shown, e, _, _, _, rfl⟩ := Es519xx.decode_eq_ok_iff.mp h
    exact Es519xx.named_qualifiers a

end Variant

/-! ## Reports of an analysis -/

namespace Analysis

theorem exists_reading_of_measurement {options : AnalysisOptions} {data : List (List UInt8)}
    {m : Report.Measurement} (hm : m ∈ (ofData options data).measurements) :
    ∃ frame reading, options.variant.decode frame = .ok reading ∧
      m.qualifiers = reading.qualifiers ∧ ∀ x ∈ m.value, reading.value = x ∧ x.IsFinite := by
  obtain ⟨⟨⟨offset, reading⟩, index⟩, hmem, rfl⟩ := List.mem_map.mp hm
  have hevent := mem_readings.mp (List.fst_mem_of_mem_zipIdx hmem)
  rw [events_ofData] at hevent
  refine ⟨_, reading, (mem_sweep_sound hevent).2.2.symm, rfl, fun x hx => ?_⟩
  obtain hnan | hinfinite | hfinite := reading.value.nan_or_infinite_or_finite
  · simp [Report.Measurement.ofReading, Report.specialName?_of_isNaN hnan] at hx
  · simp [Report.Measurement.ofReading, Report.specialName?_of_isInfinite hinfinite] at hx
  · simp only [Report.Measurement.ofReading, Report.specialName?_of_isFinite hfinite] at hx
    obtain rfl := Option.some.inj hx
    exact ⟨rfl, hfinite⟩

/-- **Every measurement in the report of an analysis is legible.** -/
theorem legible_report (options : AnalysisOptions) (data : List (List UInt8)) (path : Path)
    (file : Metadata) : ((ofData options data).report path file).Legible := by
  intro m hm
  obtain ⟨frame, reading, hdecode, hqualifiers, hvalues⟩ := exists_reading_of_measurement hm
  refine ⟨hqualifiers ▸ Variant.named_of_decode hdecode, fun x hx => ?_⟩
  obtain ⟨rfl, hfinite⟩ := hvalues x hx
  obtain ⟨n, e, negative, hn, ⟨hlow, hhigh⟩, hvalue⟩ :=
    Variant.isDisplayed_of_decode hdecode hfinite
  rw [hvalue]
  exact Numeral.toBinary64?_ofBinary64 hn hlow hhigh negative

end Analysis

theorem Report.legible_stub (path : String) (bytes : UInt64) : (stub path bytes).Legible :=
  fun _ hm => absurd hm List.not_mem_nil

theorem exists_report_of_analyzeChunks {path : Path} {options : AnalysisOptions}
    {chunks : List (Except Capture.SourceError (List UInt8))} {tree after : FileTree} {r : Report}
    (h : (analyzeChunks path options chunks : StateM FileTree _) tree = (.ok r, after)) :
    ∃ data file, r = (Analysis.ofData options data).report path file := by
  cases hrun : Analysis.run options chunks with
  | error e =>
    unfold analyzeChunks at h
    rw [hrun] at h
    cases (Prod.mk.inj h).1
  | ok a =>
    obtain ⟨data, rfl⟩ := Analysis.exists_map_ok_of_runFrom hrun
    rw [analyzeChunks_map_ok] at h
    obtain ⟨h, _⟩ := Prod.mk.inj h
    cases hfind : tree.find path with
    | error e =>
      rw [hfind] at h
      cases h
    | ok found =>
      rw [hfind] at h
      exact ⟨data, _, (Except.ok.inj h).symm⟩

/-- **Every report reads back**: one that an analysis returns, of any stream in any format, and one
without results. The values in it are numbers on a display, and the shortest decimal of such a number
is read as the same number. -/
theorem reports_read_back :
    (∀ (path : Path) (options : AnalysisOptions)
      (chunks : List (Except Capture.SourceError (List UInt8))) (tree after : FileTree) (r : Report),
      (analyzeChunks path options chunks : StateM FileTree _) tree = (.ok r, after) →
        r.ReadsBack) ∧
    ∀ (path : String) (bytes : UInt64), (Report.stub path bytes).ReadsBack := by
  refine ⟨fun path options chunks tree after r h => ?_, fun path bytes =>
    Report.readsBack_of_legible (Report.legible_stub path bytes)⟩
  obtain ⟨data, file, rfl⟩ := exists_report_of_analyzeChunks h
  exact Report.readsBack_of_legible (Analysis.legible_report options data path file)

/-- A voltage, an open circuit behind a minus and a rejected packet, in a file with quotes and a
line break in its name. -/
theorem reports_read_back_three_packets :
    let volts : List UInt8 := [0x02, 0x1c, 0x20, 0x30, 0x4a, 0x5a, 0x6d, 0x79, 0x8f, 0x94, 0xae,
      0xb0, 0xc0, 0xd0, 0xe4]
    let circuit : List UInt8 := [0x02, 0x18, 0x20, 0x31, 0x40, 0x5e, 0x6b, 0x76, 0x81, 0x90, 0xa0,
      0xb2, 0xc4, 0xd0, 0xe0]
    let conflict : List UInt8 := [0x02, 0x16, 0x20, 0x30, 0x4a, 0x5a, 0x6d, 0x79, 0x8f, 0x94, 0xae,
      0xb0, 0xc0, 0xd0, 0xe4]
    let chunks := [.ok volts, .ok (circuit ++ conflict)]
    let tree : FileTree := ⟨.directory [("a \"b\"\n.bin", .file [] ⟨1500000000⟩)], [], .epoch⟩
    ∃ r, (analyzeChunks ⟨"a \"b\"\n.bin"⟩ ⟨.bm25x, false⟩ chunks : StateM FileTree _) tree =
        (.ok r, tree) ∧
      r.generatedAt = "1970-01-01T00:00:01.5Z" ∧
      r.measurements.map (fun m => (m.value, m.special)) =
        [(some ⟨0x4028ae147ae147ae⟩, none), (none, some "-inf")] ∧
      r.rejections.map (fun s => s.examples.length) = [1] ∧ r.ReadsBack := by
  intro volts circuit conflict chunks tree
  have hreport := analyzeChunks_map_ok ⟨"a \"b\"\n.bin"⟩ ⟨.bm25x, false⟩ tree
    [volts, circuit ++ conflict]
  exact ⟨_, hreport, by decide +kernel, by decide +kernel, by decide +kernel,
    reports_read_back.1 _ _ _ _ _ _ hreport⟩

end Multimeter
