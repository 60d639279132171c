import Multimeter.Proofs.Command.Files
import Multimeter.Proofs.Formats

/-!
# Destinations in missing directories

The comparison of the destination with the input asks for the place of the directory of the report,
so that the directory has to be there. The creation of missing directories stands behind it.

* `Path.parent?_of_names`: the parent of a path that is made of names only.
* `FileTree.place_of_foldlM`, `FileTree.failsOnly_foldlM_stepWithin`: where names lead, and why they
  may not.
* `FileTree.MissingDirectory`: names that lead nowhere, and past no file.
* **`FileTree.MissingDirectory.locate`**: such a directory has no place.
* **`Command.missing_directory_fails`**: a destination in it makes every decoding fail.
-/

namespace Multimeter

theorem Path.parent?_of_names {path : Path} {names : List String} {name : String}
    (hsegments : path.segments = names ++ [name]) (hname : Path.isName name)
    (hnames : ∀ name ∈ names, Path.isName name) (hne : names ≠ []) :
    ∃ parent, path.parent? = some parent ∧ parent.text ≠ "" ∧ parent.isAbsolute = false ∧
      parent.segments = names := by
  have hlast : path.segments.getLast? = some name := by rw [hsegments, List.getLast?_concat]
  obtain ⟨hsingle, _⟩ | ⟨head, rest, idle, hall, hidle, hparent⟩ :=
    (Path.parent?_of_getLast? hlast hname).2
  · rw [hsegments] at hsingle
    exact absurd (List.append_left_eq_self.mp hsingle) hne
  · obtain rfl : names = head :: (rest ++ idle) :=
      List.append_cancel_right (hsegments.symm.trans hall)
    have hslash : ∀ segment ∈ head :: rest, '/' ∉ segment.toList := by
      intro segment hsegment
      refine not_mem_of_mem_segments (p := path) ?_
      rw [hall]
      simp at hsegment ⊢
      tauto
    obtain rfl : idle = [] := by
      refine List.eq_nil_iff_forall_not_mem.mpr fun segment hsegment => ?_
      have hsegmentName := hnames segment (by simp [hsegment])
      simp [isName, hidle segment hsegment] at hsegmentName
    have hhead : head ≠ "" := by
      rintro rfl
      exact absurd (hnames "" List.mem_cons_self) (by decide)
    refine ⟨_, hparent, text_ofSegments_ne hslash, ?_, ?_⟩
    · exact Bool.eq_false_iff.mpr fun h => hhead ((isAbsolute_ofSegments hslash).mp h)
    · rw [List.append_nil]
      exact segments_ofSegments_of_ne hslash fun h => hhead h.1

namespace FileTree

open Multimeter.Path (isName)

variable {tree : FileTree} {spot next : Spot} {names : List String} {name : String}

/-! ## Following names -/

theorem move_of_isName (trail : List String) (h : isName name) :
    move trail name = name :: trail := by
  obtain ⟨hidle, hup⟩ : Path.isIdle name = false ∧ name ≠ ".." := by simpa [isName] using h
  simp [move, hidle, hup]

theorem place_of_foldlM (hspot : tree.Holds spot) (hnames : ∀ name ∈ names, isName name)
    (h : names.foldlM tree.step spot = .ok next) : next.place = spot.place ++ names := by
  induction names generalizing spot with
  | nil =>
    cases h
    exact (List.append_nil _).symm
  | cons name names ih =>
    obtain ⟨hname, hnames⟩ := List.forall_mem_cons.mp hnames
    rw [List.foldlM_cons] at h
    obtain ⟨mid, hmid, h⟩ := bind_eq_ok_iff.mp h
    obtain ⟨_, _, hholds, htrail⟩ := (step_eq_ok_iff hspot).mp hmid
    rw [move_of_isName _ hname] at htrail
    rw [ih hholds hnames h, Spot.place, Spot.place, htrail, List.reverse_cons, List.append_assoc]
    rfl

theorem failsOnly_stepWithin (hdirectory : spot.entry.isDirectory) (hname : isName name) :
    FailsOnly (fun e => e = .notFound ∨ e = .nameTooLong) (tree.stepWithin spot name) := by
  obtain ⟨hidle, hup⟩ : Path.isIdle name = false ∧ name ≠ ".." := by simpa [isName] using hname
  obtain ⟨children, hchildren⟩ := isDirectory_iff.mp hdirectory
  intro e he
  dsimp only [stepWithin] at he
  split at he
  · cases he
    exact Or.inr rfl
  · rw [step_eq hdirectory, hidle, if_neg Bool.false_ne_true, if_neg hup, child?_eq hchildren] at he
    split at he
    · cases he
      exact Or.inr rfl
    · cases hchild : children.lookup name with
      | some entry =>
        rw [hchild] at he
        cases he
      | none =>
        rw [hchild] at he
        cases he
        exact Or.inl rfl

/-- **Names that lead past no file** only fail by not being there and by their sizes. -/
theorem failsOnly_foldlM_stepWithin (hspot : tree.Holds spot)
    (hnames : ∀ name ∈ names, isName name)
    (hfile : ∀ k contents modified,
      tree.entry? (spot.place ++ names.take k) ≠ some (.file contents modified)) :
    FailsOnly (fun e => e = .notFound ∨ e = .nameTooLong)
      (names.foldlM tree.stepWithin spot) := by
  induction names generalizing spot with
  | nil => exact failsOnly_ok spot
  | cons name names ih =>
    obtain ⟨hname, hrest⟩ := List.forall_mem_cons.mp hnames
    have hdirectory : spot.entry.isDirectory := by
      have hhere := hfile 0
      rw [List.take_zero, List.append_nil, show tree.entry? spot.place = _ from hspot] at hhere
      cases hentry : spot.entry with
      | directory children => rfl
      | file contents modified => exact absurd (congrArg some hentry) (hhere contents modified)
    rw [List.foldlM_cons]
    refine (failsOnly_stepWithin hdirectory hname).bind fun mid hmid => ?_
    obtain ⟨_, _, hholds, htrail⟩ := (step_eq_ok_iff hspot).mp (step_of_stepWithin hmid)
    rw [move_of_isName _ hname] at htrail
    refine ih hholds hrest fun k contents modified => ?_
    have hnext := hfile (k + 1) contents modified
    rw [Spot.place, htrail, List.reverse_cons, List.append_assoc]
    exact hnext

/-! ## Missing directories -/

/-- Names that lead to no place, and past no file. -/
structure MissingDirectory (tree : FileTree) (names : List String) : Prop where
  ne_nil : names ≠ []
  isName : ∀ name ∈ names, isName name
  missing : tree.entry? (tree.current ++ names) = none
  no_file : ∀ k contents modified,
    tree.entry? (tree.current ++ names.take k) ≠ some (.file contents modified)

/-- Why a missing directory cannot be located. -/
def missingErrors : List FileError := [.notFound, .nameTooLong, .zeroInName]

theorem failsOnly_checkText (path : Path) : FailsOnly (· ∈ missingErrors) (checkText path) := by
  unfold checkText
  split_ifs
  · exact failsOnly_error (by decide)
  · exact failsOnly_error (by decide)
  · exact failsOnly_ok ()

namespace MissingDirectory

variable {parent : Path} (h : tree.MissingDirectory names) (hrelative : parent.isAbsolute = false)
  (hsegments : parent.segments = names)

include h hrelative hsegments

theorem failsOnly_locate : FailsOnly (· ∈ missingErrors) (tree.locate parent) := by
  refine (failsOnly_checkText parent).bind fun _ _ => ?_
  rw [FileTree.start, hrelative, if_neg Bool.false_ne_true, hsegments]
  refine FailsOnly.bind ?_ fun start hstart => ?_
  · unfold spotAt
    split
    · exact failsOnly_ok _
    · exact failsOnly_error (by decide)
  · obtain ⟨hholds, htrail⟩ := spotAt_eq_ok_iff.mp hstart
    have hplace : start.place = tree.current := by rw [Spot.place, htrail, List.reverse_reverse]
    have hnames := failsOnly_foldlM_stepWithin hholds h.isName (hplace ▸ h.no_file)
    refine FailsOnly.bind (fun e he => ?_) fun _ _ => failsOnly_ok _
    obtain rfl | rfl := hnames e he <;> decide

theorem locate : ∃ e ∈ missingErrors, tree.locate parent = .error e := by
  cases hlocate : tree.locate parent with
  | error e => exact ⟨e, h.failsOnly_locate hrelative hsegments e hlocate, rfl⟩
  | ok place =>
    obtain ⟨_, spot, hwalk, _⟩ := locate_eq_ok hlocate
    obtain ⟨start, hstart, hfold⟩ := walk_eq_ok_iff.mp hwalk
    rw [FileTree.start, hrelative, if_neg Bool.false_ne_true] at hstart
    obtain ⟨hholds, htrail⟩ := spotAt_eq_ok_iff.mp hstart
    have hthere : tree.entry? spot.place = some spot.entry := holds_walk hwalk
    rw [place_of_foldlM hholds (hsegments ▸ h.isName) hfold, hsegments, Spot.place, htrail,
      List.reverse_reverse, h.missing] at hthere
    cases hthere

end MissingDirectory

end FileTree

namespace Command

open FileTree

variable {tree : FileTree} {options : DecodeOptions} {path input : Path} {spot : Spot}
  {names : List String} {name : String}

theorem attempt_analyze_of_missing (hinput : InputAt options tree input spot)
    (hdestination : options.destination = .file path) (hsegments : path.segments = names ++ [name])
    (hname : Path.isName name) (hmissing : tree.MissingDirectory names) :
    ∃ e ∈ missingErrors, tree.attempt (analyze options) =
      (.error (fileFailure s!"Failed to resolve output path: {path.text}" e), tree) := by
  obtain ⟨parent, hparent, htext, hrelative, hparentSegments⟩ :=
    Path.parent?_of_names hsegments hname hmissing.isName hmissing.ne_nil
  obtain ⟨e, he, hlocate⟩ := hmissing.locate hrelative hparentSegments
  refine ⟨e, he, ?_⟩
  rw [hinput.attempt_analyze, hdestination]
  refine attempt_bind_of_error ?_
  dsimp only [checkDestination]
  rw [hparent]
  dsimp only
  rw [if_neg htext]
  exact attempt_bind_of_error (attempt_require (run_locate hlocate))

theorem failed_fileFailure (attempt : String) (e : FileError) :
    Outcome.failed {} (fileFailure attempt e) =
      { exitCode := 2
        output := ""
        messages := "error: " ++ attempt ++ ": " ++ e.message ++ "\n" } := by
  simp [Outcome.failed, Failure.text, fileFailure, failureCode, String.append_assoc]

section

variable {arguments : List String} (h : Request.ofArguments? arguments = some (.decode options))
  (hinput : InputAt options tree input spot) (hdestination : options.destination = .file path)
  (hsegments : path.segments = names ++ [name]) (hname : Path.isName name)
  (hmissing : tree.MissingDirectory names)

include h hinput hdestination hsegments hname hmissing

theorem run_of_missing : ∃ e ∈ missingErrors, (run arguments : StateM FileTree _).run tree =
    (some (Outcome.failed {}
      (fileFailure s!"Failed to resolve output path: {path.text}" e)), tree) := by
  obtain ⟨e, he, hanalyze⟩ :=
    attempt_analyze_of_missing hinput hdestination hsegments hname hmissing
  exact ⟨e, he, run_of_decode h (run_decode_of_error (attempt_bind_of_error hanalyze))⟩

/-- **A destination in a missing directory makes every decoding fail.** However many directories are
missing on the way to it, and whatever the capture holds, none of them is created: the destination
cannot be resolved, the command fails, and the files stay as they are. -/
theorem missing_directory_fails :
    ∃ e ∈ missingErrors, (run arguments : StateM FileTree _).run tree = (some {
      exitCode := 2
      output := ""
      messages := "error: " ++ s!"Failed to resolve output path: {path.text}" ++ ": " ++ e.message
        ++ "\n" }, tree) := by
  obtain ⟨e, he, hrun⟩ := run_of_missing h hinput hdestination hsegments hname hmissing
  exact ⟨e, he, hrun.trans (by rw [failed_fileFailure])⟩

end

/-- Two missing directories. -/
theorem missing_directory_fails_two_deep :
    let path : Path := ⟨"out/deep/r.json"⟩
    let arguments := ["capture", "decode", "a.bin", "-p", "bm25x", "-o", path.text]
    let tree : FileTree :=
      { root := .directory [("a.bin", .file [0x02] .epoch)], current := [] }
    tree.MissingDirectory ["out", "deep"] ∧
      ∃ e ∈ missingErrors, (run arguments : StateM FileTree _).run tree = (some {
        exitCode := 2
        output := ""
        messages := "error: " ++ s!"Failed to resolve output path: {path.text}" ++ ": " ++ e.message
          ++ "\n" }, tree) := by
  intro path arguments tree
  let options : DecodeOptions :=
    { input := ⟨"a.bin"⟩, variant := .bm25x, destination := .file path }
  have hinput : InputAt options tree ⟨"a.bin"⟩ ⟨["a.bin"], .file [0x02] .epoch⟩ :=
    ⟨attempt_resolveInput (by decide), rfl, rfl⟩
  have hmissing : tree.MissingDirectory ["out", "deep"] := by
    refine ⟨by decide, by decide, rfl, fun k contents modified => ?_⟩
    match k with
    | 0 => nofun
    | 1 => nofun
    | _ + 2 => nofun
  have hrequest : Request.ofArguments? arguments = some (.decode options) := by decide
  have hsegments : path.segments = ["out", "deep"] ++ ["r.json"] := by decide
  exact ⟨hmissing, missing_directory_fails hrequest hinput rfl hsegments (by decide) hmissing⟩

/-- **Missing directories are not created.** Not every capture that can be analysed is decoded to a
destination in them. -/
theorem not_forall_missing_directory_created :
    ¬ ∀ (arguments : List String) (options : DecodeOptions) (tree : FileTree) (path input : Path)
      (spot : Spot) (names : List String) (name : String),
      Request.ofArguments? arguments = some (.decode options) → options.strict = false →
      InputAt options tree input spot →
      (∃ report, (analyzeFile input ⟨options.variant, options.maskParity⟩ :
        StateM FileTree _) tree = (.ok report, tree)) →
      options.destination = .file path → path.segments = names ++ [name] → Path.isName name →
      tree.MissingDirectory names →
      ∃ outcome after, (run arguments : StateM FileTree _).run tree = (some outcome, after) ∧
        outcome.exitCode = 0 := by
  intro h
  let path : Path := ⟨"out/r.json"⟩
  let options : DecodeOptions :=
    { input := ⟨"a.bin"⟩, variant := .bm25x, destination := .file path }
  let tree : FileTree :=
    { root := .directory [("a.bin", .file [0x02] .epoch)], current := [] }
  have hinput : InputAt options tree ⟨"a.bin"⟩ ⟨["a.bin"], .file [0x02] .epoch⟩ :=
    ⟨attempt_resolveInput (by decide), rfl, rfl⟩
  have hmissing : tree.MissingDirectory ["out"] := by
    refine ⟨by decide, by decide, rfl, fun k contents modified => ?_⟩
    match k with
    | 0 => nofun
    | _ + 1 => nofun
  have hrequest : Request.ofArguments?
      ["capture", "decode", "a.bin", "-p", "bm25x", "-o", path.text] = some (.decode options) := by
    decide
  have hsegments : path.segments = ["out"] ++ ["r.json"] := by decide
  have hname : Path.isName "r.json" := by decide
  have hreport : ∃ report, (analyzeFile ⟨"a.bin"⟩ ⟨.bm25x, false⟩ : StateM FileTree _) tree =
      (.ok report, tree) := ⟨_, analyzeFile_of_raw hinput.found rfl (by decide +kernel)⟩
  obtain ⟨outcome, after, hrun, hcode⟩ := h _ options tree path _ _ ["out"] "r.json" hrequest rfl
    hinput hreport rfl hsegments hname hmissing
  obtain ⟨e, -, hfails⟩ := run_of_missing hrequest hinput rfl hsegments hname hmissing
  obtain rfl := Option.some.inj (Prod.mk.inj (hrun.symm.trans hfails)).1
  exact nomatch hcode

end Command

end Multimeter
