import Multimeter.Proofs.Files.Walk
import Multimeter.Proofs.Lookup

/-!
# What changes in a tree

* `Entry.thing`, `FileTree.thing?`: what stands at a place, a directory without what is below it.
* `Entry.thing?_put_of_ne`: a file put into a directory leaves everything else as it is.
* `FileTree.writeFile_eq_ok`: what writing a file does to a tree, and that the path leads to the file
  afterwards; `FileTree.Names.writeFile_eq`: when it succeeds.
* `FileTree.makeDirectory_of_locate`: no directory is made where a path leads.
-/

namespace Multimeter

/-- What stands at a place, less what stands below it. -/
inductive Thing where
  | directory
  | file (contents : List UInt8) (modified : Timestamp)
deriving DecidableEq, Repr

namespace Entry

def thing : Entry → Thing
  | directory _ => .directory
  | file contents modified => .file contents modified

theorem below?_put_cons (children : List (String × Entry)) (name other : String)
    (rest later : Location) (entry : Entry) :
    ((directory children).put (name :: rest) entry).below? (other :: later) =
      if other = name then
        (((children.lookup name).getD (directory [])).put rest entry).below? later
      else (directory children).below? (other :: later) := by
  by_cases h : other = name
  · simp [put, below?, h]
  · have hother : (other == name) = false := by simpa using h
    rw [if_neg h, put, below?, List.lookup_cons, hother, lookup_filter_ne children h]
    rfl

variable {here : Entry} {directory : Location} {name : String}
  {children : List (String × Entry)}

theorem below?_put (entry : Entry) (h : here.below? directory = some (.directory children)) :
    (here.put (directory ++ [name]) entry).below? (directory ++ [name]) = some entry := by
  induction directory generalizing here with
  | nil =>
    obtain rfl : here = .directory children := by simpa using h
    rw [List.nil_append, below?_put_cons, if_pos rfl, below?_nil, put]
  | cons first directory ih =>
    cases here with
    | file contents modified => exact nomatch h
    | directory siblings =>
      obtain ⟨next, hnext, hbelow⟩ := Option.bind_eq_some_iff.mp h
      rw [List.cons_append, below?_put_cons, if_pos rfl, hnext]
      exact ih hbelow

/-- **Frame.** Putting a file into a directory, where no directory is, leaves what stands elsewhere. -/
theorem thing?_put_of_ne (contents : List UInt8) (modified : Timestamp)
    (h : here.below? directory = some (.directory children))
    (hleaf : ∀ grandchildren, children.lookup name ≠ some (.directory grandchildren))
    {place : Location} (hne : place ≠ directory ++ [name]) :
    ((here.put (directory ++ [name]) (.file contents modified)).below? place).map thing =
      (here.below? place).map thing := by
  -- the induction is on the path to the directory; a place that turns off it is as it was
  induction directory generalizing here place with
  | nil =>
    obtain rfl : here = .directory children := by simpa using h
    cases place with
    | nil => rw [below?_nil, below?_nil]; rfl
    | cons other rest =>
      rw [List.nil_append, below?_put_cons]
      split_ifs with hother
      · obtain ⟨first, rest, rfl⟩ : ∃ first later, rest = first :: later :=
          List.exists_cons_of_ne_nil (by rintro rfl; exact hne (by rw [hother]; rfl))
        cases hchild : children.lookup name with
        | none => simp [put, below?, hother, hchild]
        | some child =>
          cases child with
          | file contents modified => simp [put, below?, hother, hchild]
          | directory grandchildren => exact (hleaf _ hchild).elim
      · rfl
  | cons first directory ih =>
    cases here with
    | file contents modified => cases h
    | directory siblings =>
      obtain ⟨next, hnext, hbelow⟩ := Option.bind_eq_some_iff.mp h
      cases place with
      | nil => rw [below?_nil, below?_nil]; rfl
      | cons other rest =>
        rw [List.cons_append, below?_put_cons]
        split_ifs with hother
        · have hrest : rest ≠ directory ++ [name] := by
            rintro rfl
            exact hne (by rw [hother]; rfl)
          have hthere : (Entry.directory siblings).below? (other :: rest) = next.below? rest := by
            rw [below?, hother, hnext]
            rfl
          rw [hnext, hthere]
          exact ih hbelow hrest
        · rfl

end Entry

namespace FileTree

open Multimeter.Path (isName)

def thing? (tree : FileTree) (place : Location) : Option Thing :=
  (tree.entry? place).map Entry.thing

variable {tree after : FileTree} {path : Path} {spot next : Spot} {name : String}
  {contents : List UInt8}

theorem entry?_eq_of_isFile (hspot : tree.Holds spot) (hfile : spot.entry.metadata.isFile)
    (hthing : after.thing? spot.place = tree.thing? spot.place) :
    after.entry? spot.place = tree.entry? spot.place := by
  have hentry : tree.entry? spot.place = some spot.entry := hspot
  rw [thing?, thing?, hentry] at hthing
  obtain ⟨entry, hafter, hthing⟩ := Option.map_eq_some_iff.mp hthing
  rw [hafter, hentry]
  cases hspotEntry : spot.entry with
  | directory children => simp [hspotEntry, Entry.metadata] at hfile
  | file contents modified =>
    cases entry with
    | directory children => simp [hspotEntry, Entry.thing] at hthing
    | file => simp_all [Entry.thing]

/-! ## Targets -/

/-- The path ends in a name, and what stands before it leads to a directory. -/
structure Names (tree : FileTree) (path : Path) (spot : Spot) (name : String) : Prop where
  check : checkPath path = .ok ()
  getLast : path.segments.getLast? = some name
  isName : Path.isName name
  walk : tree.walk path path.segments.dropLast = .ok spot
  isDirectory : spot.entry.isDirectory

theorem segments_eq_append (path : Path) : ∃ empty, (∀ s ∈ empty, s = "") ∧
    path.segments = (path.segments.reverse.dropWhile (· = "")).reverse ++ empty := by
  refine ⟨(path.segments.reverse.takeWhile (· = "")).reverse, ?_, ?_⟩
  · intro s hs
    simpa using List.mem_takeWhile_imp (List.mem_reverse.mp hs)
  · rw [← List.reverse_append, List.takeWhile_append_dropWhile, List.reverse_reverse]

theorem checkPath_eq_ok_iff :
    checkPath path = .ok () ↔ checkText path = .ok () ∧ path.text.utf8ByteSize ≤ maxPathSize := by
  unfold checkPath
  cases checkText path with
  | error e => exact ⟨fun h => (nomatch h), fun h => (nomatch h.1)⟩
  | ok =>
    rw [bind_of_eq_ok rfl]
    by_cases hsize : maxPathSize < path.text.utf8ByteSize
    · simp [hsize, Nat.not_le.mpr hsize, throw, throwThe, MonadExceptOf.throw]
    · simp [hsize, Nat.not_lt.mp hsize, pure, Except.pure]

theorem find_of_locate {place : Location} (h : tree.locate path = .ok place)
    (hsize : path.text.utf8ByteSize ≤ maxPathSize) :
    ∃ spot, tree.find path = .ok spot ∧ spot.place = place := by
  obtain ⟨hcheck, spot, hwalk, hplace⟩ := locate_eq_ok h
  refine ⟨spot, ?_, hplace⟩
  rw [find, bind_of_eq_ok (checkPath_eq_ok_iff.mpr ⟨hcheck, hsize⟩)]
  exact hwalk

theorem text_ne_of_checkPath (h : checkPath path = .ok ()) : path.text ≠ "" := by
  intro hempty
  have := (checkPath_eq_ok_iff.mp h).1
  rw [checkText, hempty] at this
  exact nomatch this

/-- A path that does not end in a slash has its target where its last segment is a name. -/
theorem names_of_target (h : tree.target path = .ok (some (spot, name)))
    (hslash : path.text.toList.getLast? ≠ some '/') : tree.Names path spot name := by
  obtain ⟨⟨⟩, hcheck, h⟩ := bind_eq_ok_iff.mp h
  obtain ⟨found, hwalk, h⟩ := bind_eq_ok_iff.mp h
  obtain ⟨children, hchildren, h⟩ := bind_eq_ok_iff.mp h
  have hlast := Path.getLast?_segments_ne (text_ne_of_checkPath hcheck) hslash
  have hsame : (path.segments.reverse.dropWhile (· = "")).reverse = path.segments := by
    cases hreverse : path.segments.reverse with
    | nil => rw [List.dropWhile_nil, ← hreverse, List.reverse_reverse]
    | cons last rest =>
      have hempty : last ≠ "" := by
        rintro rfl
        exact hlast (by rw [← List.head?_reverse, hreverse]; rfl)
      rw [List.dropWhile_cons_of_neg (by simpa using hempty), ← hreverse, List.reverse_reverse]
  rw [hsame] at h hwalk
  split at h
  · exact nomatch h
  · next last hgetLast =>
    split at h
    · exact nomatch h
    · next hname =>
      cases h
      refine ⟨hcheck, hgetLast, by simpa [Path.isName] using hname, hwalk, ?_⟩
      rw [children_eq_ok_iff.mp hchildren]
      rfl

/-! ## Writing -/

theorem writeFile_eq_ok (h : tree.writeFile path contents = .ok after) :
    ∃ spot name children, tree.Names path spot name ∧ spot.entry = .directory children ∧
      name.utf8ByteSize ≤ Spot.maxNameSize ∧
      (∀ grandchildren, children.lookup name ≠ some (.directory grandchildren)) ∧
      after = tree.set (spot.place ++ [name]) (.file contents tree.now) := by
  obtain ⟨target, htarget, h⟩ := bind_eq_ok_iff.mp h
  split at h
  · exact nomatch h
  · next spot name =>
    split_ifs at h with hslash
    · exact nomatch h
    · have hnames := names_of_target htarget hslash
      obtain ⟨children, hentry⟩ := isDirectory_iff.mp hnames.isDirectory
      obtain ⟨child, hchild, h⟩ := bind_eq_ok_iff.mp h
      rw [child?_eq hentry] at hchild
      split_ifs at hchild with hsize
      obtain rfl := Except.ok.inj hchild
      refine ⟨spot, name, children, hnames, hentry, Nat.not_lt.mp hsize, ?_, ?_⟩
      · intro grandchildren hlookup
        rw [hlookup] at h
        exact nomatch h
      · split at h
        · exact nomatch h
        · exact (Except.ok.inj h).symm

theorem Names.target_eq (h : tree.Names path spot name) :
    tree.target path = .ok (some (spot, name)) := by
  obtain ⟨hidle, hup⟩ : Path.isIdle name = false ∧ name ≠ ".." := by
    simpa [Path.isName] using h.isName
  obtain ⟨init, hsegments⟩ := List.getLast?_eq_some_iff.mp h.getLast
  have hempty : name ≠ "" := by
    rintro rfl
    exact absurd hidle (by decide)
  have hsame : (path.segments.reverse.dropWhile (· = "")).reverse = path.segments := by
    rw [hsegments, List.reverse_concat, List.dropWhile_cons_of_neg (by simpa using hempty),
      ← List.reverse_concat, List.reverse_reverse]
  obtain ⟨children, hentry⟩ := isDirectory_iff.mp h.isDirectory
  rw [target, bind_of_eq_ok h.check]
  dsimp only
  have hdots : ¬ (Path.isIdle name || name = "..") = true := by simp [hidle, hup]
  rw [hsame, bind_of_eq_ok h.walk, bind_of_eq_ok (children_eq_ok_iff.mpr hentry), h.getLast]
  dsimp only
  rw [if_neg hdots]
  rfl

/-- **Writing succeeds** where a path names something that is no directory. -/
theorem Names.writeFile_eq (h : tree.Names path spot name)
    (hsize : name.utf8ByteSize ≤ Spot.maxNameSize)
    (hleaf : ∀ children, tree.entry? (spot.place ++ [name]) ≠ some (.directory children)) :
    tree.writeFile path contents =
      .ok (tree.set (spot.place ++ [name]) (.file contents tree.now)) := by
  obtain ⟨children, hentry⟩ := isDirectory_iff.mp h.isDirectory
  have hslash : path.text.toList.getLast? ≠ some '/' := by
    intro hslash
    have hlast := (Path.getLast?_segments_of_slash hslash).symm.trans h.getLast
    obtain rfl := Option.some.inj hlast
    exact nomatch h.isName
  have hlookup : tree.entry? (spot.place ++ [name]) = children.lookup name := by
    rw [← entry?_child (holds_walk h.walk) hentry name, List.reverse_cons, Spot.place]
  rw [writeFile, bind_of_eq_ok h.target_eq]
  dsimp only
  rw [if_neg hslash, child?_eq hentry, if_neg (Nat.not_lt.mpr hsize), ← hlookup]
  cases hchild : tree.entry? (spot.place ++ [name]) with
  | none => rfl
  | some child =>
    cases child with
    | directory grandchildren => exact absurd hchild (hleaf grandchildren)
    | file => rfl

section

variable {children : List (String × Entry)} {modified : Timestamp}

theorem thing?_set_of_ne (hspot : tree.Holds spot) (hentry : spot.entry = .directory children)
    (hleaf : ∀ grandchildren, children.lookup name ≠ some (.directory grandchildren))
    {place : Location} (hne : place ≠ spot.place ++ [name]) :
    (tree.set (spot.place ++ [name]) (.file contents modified)).thing? place = tree.thing? place :=
  Entry.thing?_put_of_ne contents modified (hentry ▸ hspot) hleaf hne

theorem exists_directory_set (hspot : tree.Holds spot) (hentry : spot.entry = .directory children)
    (hleaf : ∀ grandchildren, children.lookup name ≠ some (.directory grandchildren))
    (hnext : tree.Holds next) (hdirectory : next.entry.isDirectory) :
    ∃ there, (tree.set (spot.place ++ [name]) (.file contents modified)).Holds there ∧
      there.trail = next.trail ∧ there.entry.isDirectory := by
  have hthing : tree.thing? next.place = some .directory := by
    obtain ⟨grandchildren, hnextEntry⟩ := isDirectory_iff.mp hdirectory
    rw [thing?, show tree.entry? next.place = some next.entry from hnext, hnextEntry]
    rfl
  have hne : next.place ≠ spot.place ++ [name] := by
    intro hsame
    have hchild := entry?_child hspot hentry name
    rw [List.reverse_cons, ← Spot.place, ← hsame] at hchild
    obtain ⟨grandchildren, hnextEntry⟩ := isDirectory_iff.mp hdirectory
    exact hleaf grandchildren (hchild.symm.trans (hnext.trans (congrArg some hnextEntry)))
  rw [← thing?_set_of_ne hspot hentry hleaf hne, thing?, Option.map_eq_some_iff] at hthing
  obtain ⟨entry, hthere, hthing⟩ := hthing
  refine ⟨⟨next.trail, entry⟩, hthere, rfl, ?_⟩
  cases entry with
  | directory => rfl
  | file => exact nomatch hthing

theorem find_set (hnames : tree.Names path spot name) (hentry : spot.entry = .directory children)
    (hsize : name.utf8ByteSize ≤ Spot.maxNameSize)
    (hleaf : ∀ grandchildren, children.lookup name ≠ some (.directory grandchildren))
    (hafter : after = tree.set (spot.place ++ [name]) (.file contents modified)) :
    after.find path = .ok ⟨name :: spot.trail, .file contents modified⟩ := by
  have hspot := holds_walk hnames.walk
  have hkeep (next : Spot) (hnext : tree.Holds next) (hdirectory : next.entry.isDirectory) :
      ∃ there, after.Holds there ∧ there.trail = next.trail ∧ there.entry.isDirectory :=
    hafter ▸ exists_directory_set hspot hentry hleaf hnext hdirectory
  have hcurrent : after.current = tree.current := by rw [hafter]; rfl
  obtain ⟨there, hthere, hholds, htrail, hdirectory⟩ :=
    walk_transfer hcurrent hkeep hnames.walk hnames.isDirectory
  have hput : after.Holds ⟨name :: spot.trail, .file contents modified⟩ := by
    have hbelow : tree.root.below? spot.place = some (.directory children) := hentry ▸ hspot
    rw [Holds, Spot.place, List.reverse_cons, hafter]
    exact Entry.below?_put _ hbelow
  have hmove : name :: spot.trail = move there.trail name := by
    have hname := hnames.isName
    simp_all [Path.isName, move]
  have hstep : after.step there name = .ok ⟨name :: spot.trail, .file contents modified⟩ :=
    (step_eq_ok_iff hholds).mpr ⟨hdirectory, fun _ => hsize, hput, hmove⟩
  obtain ⟨init, hsegments⟩ := List.getLast?_eq_some_iff.mp hnames.getLast
  rw [hsegments, List.dropLast_concat] at hthere
  obtain ⟨start, hstart, hwalk⟩ := walk_eq_ok_iff.mp hthere
  rw [find, bind_of_eq_ok hnames.check, walk, bind_of_eq_ok hstart, hsegments, List.foldlM_append,
    bind_of_eq_ok hwalk, List.foldlM_cons, bind_of_eq_ok hstep]
  rfl

end

/-! ## Creating directories -/

theorem step_name (hname : isName name) (h : tree.step spot name = .ok next) :
    spot.child? name = .ok (some next.entry) := by
  obtain ⟨hidle, hup⟩ : Path.isIdle name = false ∧ name ≠ ".." := by
    simpa [Path.isName] using hname
  rw [step_eq (isDirectory_of_step h), hidle, if_neg (by decide), if_neg hup] at h
  obtain ⟨child, hchild, h⟩ := bind_eq_ok_iff.mp h
  split at h
  · obtain rfl := Except.ok.inj h
    exact hchild
  · cases h

/-- A path that leads somewhere goes through a directory, however many of its segments are left
out at the end. -/
theorem walk_dropLast_of_locate {place : Location} {named empty : List String}
    (h : tree.locate path = .ok place) (hsegments : path.segments = named ++ empty) :
    ∃ spot children, tree.walk path named.dropLast = .ok spot ∧
      spot.entry = .directory children ∧
      ∀ name, named.getLast? = some name → ∃ next, tree.step spot name = .ok next := by
  obtain ⟨⟨⟩, -, h⟩ := bind_eq_ok_iff.mp h
  obtain ⟨start, hstart, h⟩ := bind_eq_ok_iff.mp h
  obtain ⟨last, hlast, -⟩ := bind_eq_ok_iff.mp h
  have hlast := foldlM_step_of_stepWithin hlast
  have hwalk (segments : List String) : tree.walk path segments = segments.foldlM tree.step start :=
    bind_of_eq_ok hstart
  simp only [hwalk]
  rcases named.eq_nil_or_concat with rfl | ⟨init, name, rfl⟩
  · obtain ⟨segment, segments, hcons⟩ := List.exists_cons_of_ne_nil (Path.segments_ne_nil path)
    rw [hcons, List.foldlM_cons] at hlast
    obtain ⟨next, hnext, -⟩ := bind_eq_ok_iff.mp hlast
    obtain ⟨children, hentry⟩ := isDirectory_iff.mp (isDirectory_of_step hnext)
    exact ⟨start, children, rfl, hentry, by simp⟩
  · rw [hsegments, List.concat_eq_append, List.append_assoc, List.foldlM_append] at hlast
    obtain ⟨spot, hspot, hlast⟩ := bind_eq_ok_iff.mp hlast
    rw [List.singleton_append, List.foldlM_cons] at hlast
    obtain ⟨next, hnext, -⟩ := bind_eq_ok_iff.mp hlast
    obtain ⟨children, hentry⟩ := isDirectory_iff.mp (isDirectory_of_step hnext)
    refine ⟨spot, children, by simpa using hspot, hentry, ?_⟩
    rintro _ hname
    obtain rfl : name = _ := by simpa using hname
    exact ⟨next, hnext⟩

theorem target_of_locate {place : Location} (h : tree.locate path = .ok place)
    (hcheck : checkPath path = .ok ()) :
    tree.target path = .ok none ∨ ∃ spot name entry,
      tree.target path = .ok (some (spot, name)) ∧ spot.child? name = .ok (some entry) := by
  obtain ⟨empty, -, hsegments⟩ := segments_eq_append path
  obtain ⟨spot, children, hwalk, hentry, hstep⟩ := walk_dropLast_of_locate h hsegments
  rw [target, bind_of_eq_ok hcheck]
  dsimp only
  rw [bind_of_eq_ok hwalk, bind_of_eq_ok (children_eq_ok_iff.mpr hentry)]
  split
  · exact .inl rfl
  · next name hname =>
    split_ifs with hdots
    · exact .inl rfl
    · obtain ⟨next, hnext⟩ := hstep name hname
      have hisName : isName name := by simpa [Path.isName] using hdots
      exact .inr ⟨spot, name, next.entry, rfl, step_name hisName hnext⟩

theorem makeDirectory_of_locate {place : Location} (h : tree.locate path = .ok place) :
    tree.makeDirectory path = .error .alreadyExists ∨
      tree.makeDirectory path = .error .nameTooLong := by
  by_cases hsize : path.text.utf8ByteSize ≤ maxPathSize
  · obtain ⟨⟨⟩, htext, -⟩ := bind_eq_ok_iff.mp h
    left
    obtain htarget | ⟨spot, name, entry, htarget, hchild⟩ :=
      target_of_locate h (checkPath_eq_ok_iff.mpr ⟨htext, hsize⟩)
    · rw [makeDirectory, bind_of_eq_ok htarget]
      rfl
    · rw [makeDirectory, bind_of_eq_ok htarget]
      exact bind_of_eq_ok hchild
  · obtain ⟨⟨⟩, htext, -⟩ := bind_eq_ok_iff.mp h
    right
    have hcheck : checkPath path = .error .nameTooLong := by
      rw [checkPath, bind_of_eq_ok htext, if_pos (Nat.not_le.mp hsize)]
      rfl
    rw [makeDirectory, target, hcheck]
    rfl

end FileTree

end Multimeter
