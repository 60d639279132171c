import Multimeter.Proofs.Command.Reading

/-!
# What the command does to files

* `Command.Delivers`: the ways in which a report is delivered; `Command.delivers_deliver`: there are no
  others behind the check of the destination.
* `Command.Spares`: what a decoding leaves as it is.
* **`Command.run_spares_files`**: the command never changes a file other than the one for its report,
  and none when it fails before the report is delivered.
-/

namespace Multimeter.Command

open FileTree

variable {tree after : FileTree} {options : DecodeOptions} {report : Report}

/-! ## Delivering -/

/-- What can become of a report: a failure, or a text on standard output, or a file at the
destination. -/
inductive Delivers (options : DecodeOptions) (report : Report) (tree : FileTree) :
    Except Failure Outcome × FileTree → Prop where
  | failed (failure : Failure) : Delivers options report tree (.error failure, tree)
  | printed {outcome : Outcome} (hcode : outcome.exitCode = 0)
      (hdestination : options.destination = .standardOutput) :
      Delivers options report tree (.ok outcome, tree)
  | written {outcome : Outcome} {path : Path} {after : FileTree} (hcode : outcome.exitCode = 0)
      (hdestination : options.destination = .file path)
      (hwrite : tree.writeFile path (reportText options report).toUTF8.toList = .ok after) :
      Delivers options report tree (.ok outcome, after)

theorem Delivers.bind {x : ExceptT Failure (StateM FileTree) PUnit}
    {rest : PUnit → ExceptT Failure (StateM FileTree) Outcome} (hx : Keeps tree x.run)
    (hrest : Delivers options report tree (tree.attempt (rest ()))) :
    Delivers options report tree (tree.attempt (x >>= rest)) := by
  obtain ⟨result, hresult⟩ := hx
  cases result with
  | error failure =>
    rw [attempt_bind_of_error hresult]
    exact .failed failure
  | ok =>
    rw [attempt_bind_of_ok hresult]
    exact hrest

theorem delivers_write {path : Path} {purpose : String} {outcome : Outcome}
    (hcode : outcome.exitCode = 0) (hdestination : options.destination = .file path) :
    Delivers options report tree (tree.attempt (do
      require purpose (FileAccess.write path (reportText options report).toUTF8.toList)
      return outcome)) := by
  cases hafter : tree.writeFile path (reportText options report).toUTF8.toList with
  | ok after =>
    rw [attempt_bind_of_ok (attempt_require (run_write_of_ok hafter))]
    exact .written hcode hdestination hafter
  | error e =>
    rw [attempt_bind_of_error (attempt_require (run_write_of_error hafter))]
    exact .failed _

theorem delivers_deliver {location : Location}
    (h : tree.attempt (checkDestination location options.destination) = (.ok (), tree)) :
    Delivers options report tree (tree.attempt (deliver options report)) := by
  unfold deliver
  cases hdestination : options.destination with
  | standardOutput => exact .printed rfl hdestination
  | file path =>
    rw [hdestination] at h
    dsimp only
    cases hparent : path.parent? with
    | none => exact delivers_write rfl hdestination
    | some parent =>
      dsimp only
      by_cases hcurrent : parent.text = ""
      · rw [if_neg (not_not.mpr hcurrent)]
        exact delivers_write rfl hdestination
      · obtain ⟨directory, name, hlocate, -⟩ := of_checkDestination_eq_ok h hparent
        rw [if_neg hcurrent] at hlocate
        rw [if_pos hcurrent]
        obtain ⟨result, hresult⟩ := keeps_createDirectories hlocate
        exact .bind ⟨_, attempt_require hresult⟩ (delivers_write rfl hdestination)

/-! ## Decoding -/

theorem exitCode_conclude {delivered : Outcome} (h : delivered.exitCode = 0) :
    (conclude options report delivered).exitCode ≠ 0 ↔
      options.strict ∧ report.rejections ≠ [] := by
  have hcode : (if options.listRejections && !options.quiet then
      { delivered with messages := delivered.messages ++ rejectionLines report }
    else delivered).exitCode = 0 := by
    split_ifs
    · exact h
    · exact h
  unfold conclude
  dsimp only
  by_cases hstrict : (options.strict && !report.rejections.isEmpty) = true
  · rw [if_pos hstrict]
    have hboth : options.strict ∧ report.rejections ≠ [] := by simpa using hstrict
    have hfailed : failureCode ≠ 0 := by decide
    exact ⟨fun _ => hboth, fun _ => hfailed⟩
  · rw [if_neg hstrict, hcode]
    have hnot : ¬ (options.strict ∧ report.rejections ≠ []) := by simpa using hstrict
    exact ⟨fun hne => (hne rfl).elim, fun hboth => (hnot hboth).elim⟩

/-- The attempt that a decoding makes. -/
def attemptDecode (options : DecodeOptions) : ExceptT Failure (StateM FileTree) Outcome := do
  let report ← analyze options
  let delivered ← deliver options report
  return conclude options report delivered

theorem run_decode_of_ok {outcome : Outcome}
    (h : tree.attempt (attemptDecode options) = (.ok outcome, after)) :
    (decode options : StateM FileTree _).run tree = (outcome, after) := by
  rw [decode]
  exact run_bind_of_eq h

theorem run_decode_of_error {failure : Failure}
    (h : tree.attempt (attemptDecode options) = (.error failure, after)) :
    (decode options : StateM FileTree _).run tree = (Outcome.failed {} failure, after) := by
  rw [decode]
  exact run_bind_of_eq h

theorem run_of_decode {arguments : List String} {outcome : Outcome}
    (h : Request.ofArguments? arguments = some (.decode options))
    (hdecode : (decode options : StateM FileTree _).run tree = (outcome, after)) :
    (run arguments : StateM FileTree _).run tree = (some outcome, after) := by
  rw [run, h]
  dsimp only
  rw [run_bind_of_eq hdecode]
  rfl

theorem run_decode_cases (options : DecodeOptions) (tree : FileTree) :
    (∃ failure, (decode options : StateM FileTree _).run tree =
      (Outcome.failed {} failure, tree)) ∨
    ∃ report delivered after, tree.attempt (analyze options) = (.ok report, tree) ∧
      tree.attempt (deliver options report) = (.ok delivered, after) ∧
      Delivers options report tree (.ok delivered, after) ∧
      (decode options : StateM FileTree _).run tree = (conclude options report delivered, after) := by
  obtain ⟨result, hresult⟩ := readOnly_analyze options tree
  cases result with
  | error failure => exact .inl ⟨failure, run_decode_of_error (attempt_bind_of_error hresult)⟩
  | ok report =>
    obtain ⟨input, location, spot, -, -, hdestination, -⟩ := of_analyze_eq_ok hresult
    have hdelivers : Delivers options report tree (tree.attempt (deliver options report)) :=
      delivers_deliver hdestination
    rcases hdeliver : tree.attempt (deliver options report) with ⟨result, after⟩
    rw [hdeliver] at hdelivers
    cases result with
    | error failure =>
      obtain rfl : after = tree := by cases hdelivers; rfl
      refine .inl ⟨failure, run_decode_of_error ?_⟩
      rw [attemptDecode, attempt_bind_of_ok hresult]
      exact attempt_bind_of_error hdeliver
    | ok delivered =>
      refine .inr ⟨report, delivered, after, hresult, hdeliver, hdelivers, run_decode_of_ok ?_⟩
      rw [attemptDecode, attempt_bind_of_ok hresult, attempt_bind_of_ok hdeliver]
      rfl

/-- What a decoding leaves of a tree. -/
structure Spares (options : DecodeOptions) (tree : FileTree) (outcome : Outcome)
    (after : FileTree) : Prop where
  /-- Where something is changed, the destination leads to it. -/
  elsewhere (place : Location) : after.thing? place ≠ tree.thing? place →
    ∃ path spot, options.destination = .file path ∧ after.find path = .ok spot ∧
      spot.place = place
  /-- What the input leads to is not changed. -/
  input (input : Path) (spot : Spot) :
    tree.attempt (resolveInput options.input) = (.ok input, tree) → tree.find input = .ok spot →
      after.entry? spot.place = tree.entry? spot.place
  standardOutput : options.destination = .standardOutput → after = tree
  /-- After a failure there is no change, but for rejections in a report that was delivered. -/
  failure : outcome.exitCode ≠ 0 → after = tree ∨
    options.strict ∧ ∃ report delivered, report.rejections ≠ [] ∧
      tree.attempt (analyze options) = (.ok report, tree) ∧
      tree.attempt (deliver options report) = (.ok delivered, after) ∧
      delivered.exitCode = 0 ∧ outcome = conclude options report delivered
  /-- After a success the report is where the destination leads to. -/
  success (path : Path) : outcome.exitCode = 0 → options.destination = .file path →
    ∃ report spot, tree.attempt (analyze options) = (.ok report, tree) ∧
      after.find path = .ok spot ∧
      spot.entry = .file (reportText options report).toUTF8.toList tree.now

theorem Spares.of_failure {outcome : Outcome} (h : outcome.exitCode ≠ 0) :
    Spares options tree outcome tree where
  elsewhere _ hne := (hne rfl).elim
  input _ _ _ _ := rfl
  standardOutput _ := rfl
  failure _ := .inl rfl
  success _ hcode := (h hcode).elim

theorem place_ne_of_checkDestination {location : Location} {path : Path} {spot : Spot}
    {name : String} (h : tree.attempt (checkDestination location (.file path)) = (.ok (), tree))
    (hnames : tree.Names path spot name) : spot.place ++ [name] ≠ location := by
  obtain ⟨hfile, -⟩ := Path.parent?_of_getLast? hnames.getLast hnames.isName
  obtain ⟨parent, hparent⟩ := Path.exists_parent hnames.getLast hnames.isName
  obtain ⟨directory, name', hlocate, hfile', hne⟩ := of_checkDestination_eq_ok h hparent
  obtain rfl := Option.some.inj (hfile.symm.trans hfile')
  rw [← locate_parent hnames.getLast hnames.isName hparent hlocate hnames.walk]
  exact hne

theorem Spares.of_written {path : Path} {delivered : Outcome}
    (hanalyze : tree.attempt (analyze options) = (.ok report, tree))
    (hdeliver : tree.attempt (deliver options report) = (.ok delivered, after))
    (hcode : delivered.exitCode = 0) (hdestination : options.destination = .file path)
    (hwrite : tree.writeFile path (reportText options report).toUTF8.toList = .ok after) :
    Spares options tree (conclude options report delivered) after := by
  obtain ⟨input, location, found, hinput, hlocation, hcheck, hfind, hisFile⟩ :=
    of_analyze_eq_ok hanalyze
  obtain ⟨spot, name, children, hnames, hentry, hsize, hleaf, hafter⟩ := writeFile_eq_ok hwrite
  have hframe {place : Location} (hne : place ≠ spot.place ++ [name]) :
      after.thing? place = tree.thing? place := by
    rw [hafter]
    exact thing?_set_of_ne (holds_walk hnames.walk) hentry hleaf hne
  have hthere := find_set hnames hentry hsize hleaf hafter
  refine ⟨?_, ?_, ?_, ?_, ?_⟩
  · intro place hchanged
    refine ⟨path, _, hdestination, hthere, ?_⟩
    rw [Spot.place, List.reverse_cons]
    exact (not_imp_comm.mp hframe hchanged).symm
  · intro input' spot' hinput' hfind'
    obtain rfl : input' = input := by
      rw [hinput] at hinput'
      cases hinput'
      rfl
    obtain rfl := Except.ok.inj (hfind.symm.trans hfind')
    rw [hdestination] at hcheck
    have hne : found.place ≠ spot.place ++ [name] := by
      rw [place_of_find hfind hlocation]
      exact (place_ne_of_checkDestination hcheck hnames).symm
    exact entry?_eq_of_isFile (holds_find hfind) hisFile (hframe hne)
  · intro hprinted
    cases hdestination.symm.trans hprinted
  · intro hne
    obtain ⟨hstrict, hrejections⟩ := (exitCode_conclude hcode).mp hne
    exact .inr ⟨hstrict, report, delivered, hrejections, hanalyze, hdeliver, hcode, rfl⟩
  · rintro path' - hdestination'
    obtain rfl : path = path' := by simpa [hdestination] using hdestination'
    exact ⟨report, _, hanalyze, hthere, rfl⟩

theorem Spares.of_printed {delivered : Outcome}
    (hdestination : options.destination = .standardOutput) :
    Spares options tree (conclude options report delivered) tree where
  elsewhere _ hne := (hne rfl).elim
  input _ _ _ _ := rfl
  standardOutput _ := rfl
  failure _ := .inl rfl
  success _ _ hfile := nomatch hdestination.symm.trans hfile

/-- **The command spares files.** However a decoding ends, no place is changed but the one to which
the destination leads afterwards, and this is never the place of the input. With standard output for
the destination nothing is changed, and neither is it by a failure, unless a report was delivered and
its rejections make a strict decoding fail. -/
theorem run_spares_files {arguments : List String} {options : DecodeOptions}
    (h : Request.ofArguments? arguments = some (.decode options)) (tree : FileTree) :
    ∃ outcome after, (run arguments : StateM FileTree _).run tree = (some outcome, after) ∧
      Spares options tree outcome after := by
  obtain ⟨outcome, after, hdecode, hspares⟩ : ∃ outcome after,
      (decode options : StateM FileTree _).run tree = (outcome, after) ∧
        Spares options tree outcome after := by
    obtain ⟨failure, hrun⟩ | ⟨report, delivered, after, hanalyze, hdeliver, hdelivers, hrun⟩ :=
      run_decode_cases options tree
    · have hcode : failureCode ≠ 0 := by decide
      exact ⟨_, _, hrun, .of_failure hcode⟩
    · refine ⟨_, _, hrun, ?_⟩
      cases hdelivers with
      | printed hcode hdestination => exact .of_printed hdestination
      | written hcode hdestination hwrite =>
        exact .of_written hanalyze hdeliver hcode hdestination hwrite
  refine ⟨outcome, after, ?_, hspares⟩
  rw [run, h]
  dsimp only
  rw [run_bind_of_eq hdecode]
  rfl

/-- A report over the capture itself, with its name in another spelling. -/
theorem run_spares_files_other_spelling :
    let arguments := ["capture", "decode", "-p", "bm25x", "-o", "d/../a.bin", "./a.bin"]
    let options : DecodeOptions :=
      { input := ⟨"./a.bin"⟩, variant := .bm25x, destination := .file ⟨"d/../a.bin"⟩ }
    let tree : FileTree :=
      { root := .directory [("d", .directory []), ("a.bin", .file [0x02] .epoch)], current := [] }
    Request.ofArguments? arguments = some (.decode options) ∧
      ∃ outcome after, (run arguments : StateM FileTree _).run tree = (some outcome, after) ∧
        Spares options tree outcome after :=
  ⟨by decide, run_spares_files (by decide) _⟩

end Multimeter.Command
