import Multimeter.Command.Run
import Multimeter.Proofs.Files.ReadOnly

/-!
# What the command does before it writes

* `Command.readOnly_resolveInput`, `Command.readOnly_analyze`: finding and analysing the input leaves
  every tree as it is, patterns included.
* `Command.of_analyze_eq_ok`: a report is made only on a file, and only after the destination was
  compared with it.
* `Command.InputAt`: the input of a request is there; **`Command.InputAt.attempt_analyze`**: then the
  comparison with the destination is the first thing that can fail.
-/

namespace Multimeter

open FileTree

namespace Wildcard

theorem readOnly_look (path : Path) :
    ReadOnly (look path : ExceptT UnreadableDirectory (StateM FileTree) Match).run :=
  (readOnly_isDirectory path).run_liftM.run_bind fun _ => readOnly_run_pure _

theorem readOnly_sortedChildren (path : Path) :
    ReadOnly (sortedChildren path : ExceptT UnreadableDirectory (StateM FileTree) _).run :=
  (readOnly_children path).run_liftM.run_bind fun found => by
    cases found with
    | error e => exact readOnly_run_throw _
    | ok children => exact readOnly_run_pure _

theorem readOnly_descend (name : String) (names : List (List Token))
    {next : List (List Token) → ExceptT UnreadableDirectory (StateM FileTree) (List Path)}
    (h : ∀ later, ReadOnly (next later).run) :
    ReadOnly (match names with
      | [] => pure []
      | first :: later => if accepts first name.toList then next later else pure [] :
      ExceptT UnreadableDirectory (StateM FileTree) (List Path)).run := by
  cases names with
  | nil => exact readOnly_run_pure _
  | cons first later => exact readOnly_run_ite (h later) (readOnly_run_pure _)

/-- **Patterns.** Following a pattern only looks. -/
theorem readOnly_expand (directoriesOnly : Bool) (fuel : Nat) (names : List (List Token))
    (here : Match) :
    ReadOnly (expand directoriesOnly fuel names here :
      ExceptT UnreadableDirectory (StateM FileTree) (List Path)).run := by
  -- the induction is on the fuel: `**` goes down a level with the names it came with
  induction fuel generalizing names here with
  | zero =>
    rw [expand]
    exact readOnly_run_pure _
  | succ fuel ih =>
    cases names with
    | nil =>
      rw [expand]
      exact readOnly_run_pure _
    | cons tokens rest =>
      have hlook (path : Path) := (readOnly_look path).run_bind fun next => ih rest next
      rw [expand]
      cases literal? tokens with
      | some name =>
        have hfound (found : Bool) :=
          readOnly_run_ite (c := found) (hlook (below here.path name)) (readOnly_run_pure [])
        exact readOnly_run_ite ((readOnly_run_pure _).run_bind hfound)
          ((readOnly_pathExists _).run_liftM.run_bind hfound)
      | none =>
        have hdescend (child : Child) (names : List (List Token)) := readOnly_descend child.name names
          fun later => ih later ⟨below here.path child.name, child.isDirectory⟩
        refine readOnly_run_ite (readOnly_run_pure _) ?_
        refine (readOnly_sortedChildren _).run_bind fun children => ?_
        refine (readOnly_run_flatMapM (fun name => hlook _) _).run_bind fun special => ?_
        refine (readOnly_run_flatMapM (fun child => ?_) _).run_bind fun _ => readOnly_run_pure _
        let later := rest.dropWhile (· = [.anyDirectories])
        have hbelow (there : List Path) :=
          (ih (tokens :: later) ⟨below here.path child.name, child.isDirectory⟩).run_bind fun found =>
            readOnly_run_pure (there ++ found)
        refine readOnly_run_ite (readOnly_run_ite (readOnly_run_ite ?_ ?_) (hdescend child later))
          (hdescend child (tokens :: rest))
        · exact (readOnly_run_pure _).run_bind hbelow
        · exact (hdescend child later).run_bind hbelow

theorem readOnly_paths (p : Pattern) :
    ReadOnly (p.paths : ExceptT UnreadableDirectory (StateM FileTree) _).run :=
  (readOnly_look _).run_bind fun here => readOnly_expand _ _ _ here

end Wildcard

theorem readOnly_analyzeFile (path : Path) (options : AnalysisOptions) :
    ReadOnly (analyzeFile path options : StateM FileTree _) := by
  refine (readOnly_contents path).bind fun contents => ?_
  cases contents with
  | error e => exact readOnly_pure _
  | ok contents =>
    dsimp only
    unfold analyzeChunks
    split
    · exact readOnly_pure _
    · refine (readOnly_metadata path).bind fun found => ?_
      cases found <;> exact readOnly_pure _

namespace Command

theorem readOnly_run_require {α : Type} (attempt : String)
    {operation : StateM FileTree (Except FileError α)} (h : ReadOnly operation) :
    ReadOnly (require attempt operation).run :=
  h.run_liftM.run_bind fun result => by
    cases result with
    | error e => exact readOnly_run_throw _
    | ok a => exact readOnly_run_pure _

theorem readOnly_resolveInput (input : Path) :
    ReadOnly (resolveInput input : ExceptT Failure (StateM FileTree) Path).run := by
  refine readOnly_run_ite (readOnly_run_pure _) ?_
  cases Wildcard.Pattern.ofText input.text with
  | error e => exact readOnly_run_throw _
  | ok pattern =>
    refine (Wildcard.readOnly_paths pattern).run_liftM.run_bind fun result => ?_
    cases result with
    | error e => exact readOnly_run_throw _
    | ok paths =>
      refine (readOnly_filterM readOnly_isFile paths).run_liftM.run_bind fun found => ?_
      split
      · exact readOnly_run_pure _
      · exact readOnly_run_throw _
      · exact readOnly_run_throw _

theorem readOnly_checkDestination (input : Location) (destination : Destination) :
    ReadOnly (checkDestination input destination : ExceptT Failure (StateM FileTree) Unit).run := by
  cases destination with
  | standardOutput => exact readOnly_run_pure _
  | file path =>
    dsimp only [checkDestination]
    cases path.parent? with
    | none => exact readOnly_run_pure _
    | some parent =>
      refine (readOnly_run_require _ (readOnly_locate _)).run_bind fun directory => ?_
      cases path.fileName? with
      | none => exact readOnly_run_throw _
      | some name => exact readOnly_run_ite (readOnly_run_throw _) (readOnly_run_pure _)

theorem readOnly_analyze (options : DecodeOptions) :
    ReadOnly (analyze options : ExceptT Failure (StateM FileTree) Report).run := by
  refine (readOnly_resolveInput _).run_bind fun input => ?_
  refine (readOnly_pathExists _).run_liftM.run_bind fun isThere => ?_
  refine readOnly_run_check ?_
  refine (readOnly_run_require _ (readOnly_locate _)).run_bind fun location => ?_
  refine (readOnly_checkDestination _ _).run_bind fun _ => ?_
  refine (readOnly_run_require _ (readOnly_metadata _)).run_bind fun file => ?_
  refine readOnly_run_check ?_
  refine (readOnly_analyzeFile _ _).run_liftM.run_bind fun result => ?_
  cases result with
  | error e => exact readOnly_run_throw _
  | ok report => exact readOnly_run_pure _

variable {tree after : FileTree} {options : DecodeOptions} {report : Report}

theorem attempt_require {α : Type} {purpose : String}
    {operation : StateM FileTree (Except FileError α)} {result : Except FileError α}
    (h : operation.run tree = (result, after)) :
    tree.attempt (require purpose operation) = (result.mapError (fileFailure purpose), after) := by
  have hlift : tree.attempt (liftM operation : ExceptT Failure (StateM FileTree) _) =
      (.ok result, after) := attempt_liftM h
  rw [require, attempt_bind_of_ok hlift]
  cases result <;> rfl

theorem attempt_require_eq_ok {α : Type} {purpose : String}
    {operation : StateM FileTree (Except FileError α)} {a : α}
    (h : tree.attempt (require purpose operation) = (.ok a, after)) :
    operation.run tree = (.ok a, after) := by
  rcases hrun : operation.run tree with ⟨result, mid⟩
  rw [attempt_require hrun] at h
  obtain ⟨hresult, rfl⟩ := Prod.ext_iff.mp h
  rw [mapError_eq_ok_iff.mp hresult]

theorem of_checkDestination_eq_ok {input : Location} {path parent : Path}
    (h : tree.attempt (checkDestination input (.file path)) = (.ok (), after))
    (hparent : path.parent? = some parent) :
    ∃ directory name, tree.locate (if parent.text = "" then ⟨"."⟩ else parent) = .ok directory ∧
      path.fileName? = some name ∧ directory ++ [name] ≠ input := by
  dsimp only [checkDestination] at h
  rw [hparent] at h
  obtain ⟨directory, hlocate, h⟩ :=
    (readOnly_run_require _ (readOnly_locate _) tree).attempt_bind_eq_ok h
  have hdirectory := congrArg Prod.fst (attempt_require_eq_ok hlocate)
  cases hname : path.fileName? with
  | none =>
    rw [hname] at h
    exact nomatch h
  | some name =>
    rw [hname] at h
    refine ⟨directory, name, hdirectory, rfl, fun hsame => ?_⟩
    simp only [hsame, if_true] at h
    exact nomatch h

/-- **Reports.** A report is made on one file only, and only after the destination was compared with
its place. -/
theorem of_analyze_eq_ok (h : tree.attempt (analyze options) = (.ok report, after)) :
    ∃ input location spot, tree.attempt (resolveInput options.input) = (.ok input, tree) ∧
      tree.locate input = .ok location ∧
      tree.attempt (checkDestination location options.destination) = (.ok (), tree) ∧
      tree.find input = .ok spot ∧ spot.entry.metadata.isFile := by
  obtain ⟨input, hinput, h⟩ := (readOnly_resolveInput _ tree).attempt_bind_eq_ok h
  obtain ⟨isThere, -, h⟩ := ((readOnly_pathExists _).run_liftM tree).attempt_bind_eq_ok h
  obtain ⟨-, h⟩ := attempt_check_eq_ok h
  obtain ⟨location, hlocation, h⟩ :=
    (readOnly_run_require _ (readOnly_locate _) tree).attempt_bind_eq_ok h
  obtain ⟨⟨⟩, hdestination, h⟩ := (readOnly_checkDestination _ _ tree).attempt_bind_eq_ok h
  obtain ⟨file, hfile, h⟩ := (readOnly_run_require _ (readOnly_metadata _) tree).attempt_bind_eq_ok h
  obtain ⟨hisFile, -⟩ := attempt_check_eq_ok h
  have hmetadata : (tree.find input).map (·.entry.metadata) = .ok file :=
    congrArg Prod.fst (attempt_require_eq_ok hfile)
  cases hfind : tree.find input with
  | error e =>
    rw [hfind] at hmetadata
    exact nomatch hmetadata
  | ok spot =>
    rw [hfind] at hmetadata
    obtain rfl := Except.ok.inj hmetadata
    exact ⟨input, location, spot, hinput, congrArg Prod.fst (attempt_require_eq_ok hlocation),
      hdestination, hfind, by simpa using hisFile⟩

/-! ## Inputs that are there -/

theorem attempt_resolveInput {input : Path} (h : Wildcard.isPattern input.text = false) :
    tree.attempt (resolveInput input) = (.ok input, tree) := by
  rw [resolveInput, h]
  rfl

/-- The input of the request stands for one path, which can be found and has a place. -/
structure InputAt (options : DecodeOptions) (tree : FileTree) (input : Path) (spot : Spot) :
    Prop where
  resolved : tree.attempt (resolveInput options.input) = (.ok input, tree)
  found : tree.find input = .ok spot
  located : tree.locate input = .ok spot.place

/-- The part of the analysis behind the comparison with the destination. -/
def analyzeCompared (options : DecodeOptions) (input : Path) :
    ExceptT Failure (StateM FileTree) Report := do
  let file ← require s!"Failed to read input file: {input.text}" (FileAccess.metadata input)
  if !file.isFile then throw ⟨s!"input is not a file: {options.input.text}", some inputHint⟩
  let analysis ← liftM
    (analyzeFile input ⟨options.variant, options.maskParity⟩ :
      StateM FileTree (Except AnalysisError Report))
  match analysis with
  | .ok report => return report
  | .error e =>
    throw ⟨": ".intercalate ("capture decoding failed" :: e.message :: e.causes), none⟩

namespace InputAt

variable {input : Path} {spot : Spot}

theorem text_ne (h : InputAt options tree input spot) : options.input.text ≠ "" := by
  intro hempty
  have hpattern : Wildcard.isPattern options.input.text = false := by
    rw [hempty]
    decide
  obtain rfl : options.input = input :=
    Except.ok.inj (Prod.mk.inj ((attempt_resolveInput hpattern).symm.trans h.resolved)).1
  obtain ⟨⟨⟩, hcheck, -⟩ := bind_eq_ok_iff.mp h.found
  exact text_ne_of_checkPath hcheck hempty

/-- **Where the input is there, the destination is looked at first.** -/
theorem attempt_analyze (h : InputAt options tree input spot) :
    tree.attempt (analyze options) = tree.attempt (do
      checkDestination spot.place options.destination
      analyzeCompared options input) := by
  have hthere : (FileAccess.pathExists input : StateM FileTree Bool).run tree = (true, tree) := by
    rw [FileAccess.pathExists, run_bind_of_eq (run_metadata h.found)]
    rfl
  rw [analyze, attempt_bind_of_ok h.resolved, attempt_bind_of_ok (attempt_liftM hthere)]
  exact attempt_bind_of_ok (attempt_require (run_locate h.located))

theorem attempt_analyze_of_file (h : InputAt options tree input spot)
    (hcheck : tree.attempt (checkDestination spot.place options.destination) = (.ok (), tree))
    (hfile : spot.entry.metadata.isFile)
    (hreport : (analyzeFile input ⟨options.variant, options.maskParity⟩ :
      StateM FileTree _).run tree = (.ok report, after)) :
    tree.attempt (analyze options) = (.ok report, after) := by
  rw [h.attempt_analyze, attempt_bind_of_ok hcheck, analyzeCompared,
    attempt_bind_of_ok (attempt_require (run_metadata h.found))]
  simp only [hfile]
  exact attempt_bind_of_ok (attempt_liftM hreport)

end InputAt

end Command

end Multimeter
