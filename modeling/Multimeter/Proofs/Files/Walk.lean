import Multimeter.Files.Tree
import Multimeter.Proofs.Checks
import Multimeter.Proofs.Path

/-!
# Following paths in a tree

* `FileTree.Holds`: the entry of a spot is what the tree has at its place.
* `FileTree.move`: the trail behind a segment, whatever the tree holds.
* `FileTree.step_eq_ok_iff`: where a step leads, by the trail and the tree alone.
* `FileTree.walk_eq_ok_iff`, `FileTree.locate_eq_ok`: finding and locating lead to spots that the tree
  holds, and to the same place.
-/

namespace Multimeter.FileTree

open Multimeter.Path (isName)

/-- The tree has the entry of the spot at the place of the spot. -/
def Holds (tree : FileTree) (spot : Spot) : Prop := tree.entry? spot.place = some spot.entry

/-- The trail to which a segment leads. -/
def move (trail : List String) (segment : String) : List String :=
  if Path.isIdle segment then trail
  else if segment = ".." then trail.tail
  else segment :: trail

variable {tree : FileTree} {spot next : Spot} {segment : String}

theorem children_eq_ok_iff {entry : Entry} {children : List (String × Entry)} :
    entry.children = .ok children ↔ entry = .directory children := by
  cases entry <;> simp [Entry.children]

theorem isDirectory_iff {entry : Entry} :
    entry.isDirectory ↔ ∃ children, entry = .directory children := by
  cases entry <;> simp [Entry.isDirectory]

theorem spotAt_eq_ok_iff {trail : List String} :
    tree.spotAt trail = .ok spot ↔ tree.Holds spot ∧ spot.trail = trail := by
  constructor
  · intro h
    unfold spotAt at h
    split at h
    · next entry hentry =>
      cases h
      exact ⟨hentry, rfl⟩
    · exact nomatch h
  · rintro ⟨hspot, rfl⟩
    have hentry : tree.entry? spot.trail.reverse = some spot.entry := hspot
    simp [spotAt, hentry]

theorem Holds.eq_of_trail_eq (h : tree.Holds spot) (hnext : tree.Holds next)
    (htrail : next.trail = spot.trail) : next = spot := by
  cases spot
  cases next
  obtain rfl : _ = _ := htrail
  have := h.symm.trans hnext
  simp_all

theorem entry?_child {children : List (String × Entry)} (h : tree.Holds spot)
    (hdirectory : spot.entry = .directory children) (name : String) :
    tree.entry? (name :: spot.trail).reverse = children.lookup name := by
  have hentry : tree.root.below? spot.trail.reverse = some spot.entry := h
  rw [ entry?, List.reverse_cons, Entry.below?_append, hentry, hdirectory]
  cases hlookup : children.lookup name <;> simp [Entry.below?, hlookup]

theorem child?_eq {children : List (String × Entry)} (h : spot.entry = .directory children)
    (name : String) :
    spot.child? name =
      if Spot.maxNameSize < name.utf8ByteSize then .error .nameTooLong
      else .ok (children.lookup name) := by
  unfold Spot.child?
  rw [h]
  by_cases hsize : Spot.maxNameSize < name.utf8ByteSize <;>
    simp [hsize, Entry.children, bind, Except.bind, pure, Except.pure, throw, throwThe,
      MonadExceptOf.throw]

theorem isDirectory_of_step (h : tree.step spot segment = .ok next) : spot.entry.isDirectory := by
  obtain ⟨children, hchildren, -⟩ := bind_eq_ok_iff.mp h
  rw [children_eq_ok_iff.mp hchildren]
  rfl

theorem step_eq (hdirectory : spot.entry.isDirectory) :
    tree.step spot segment =
      if Path.isIdle segment then .ok spot
      else if segment = ".." then tree.spotAt spot.trail.tail
      else spot.child? segment >>= fun
        | some entry => .ok ⟨segment :: spot.trail, entry⟩
        | none => .error .notFound := by
  unfold step
  cases hentry : spot.entry with
  | file contents modified => simp [hentry, Entry.isDirectory] at hdirectory
  | directory children => rfl

theorem child?_bind_eq_ok_iff (h : tree.Holds spot) (hdirectory : spot.entry.isDirectory) :
    (spot.child? segment >>= fun
        | some entry => .ok ⟨segment :: spot.trail, entry⟩
        | none => .error .notFound) = .ok next ↔
      segment.utf8ByteSize ≤ Spot.maxNameSize ∧ tree.Holds next ∧
        next.trail = segment :: spot.trail := by
  obtain ⟨children, hchildren⟩ := isDirectory_iff.mp hdirectory
  have hlookup := entry?_child h hchildren segment
  rw [child?_eq hchildren, ← hlookup]
  obtain ⟨trail, entry⟩ := next
  by_cases hsize : Spot.maxNameSize < segment.utf8ByteSize
  · simp [hsize, bind_eq_ok_iff, Nat.not_le.mpr hsize]
  · rw [if_neg hsize, bind_of_eq_ok rfl]
    have hle := Nat.not_lt.mp hsize
    constructor
    · intro heq
      cases hentry : tree.entry? (segment :: spot.trail).reverse with
      | none => rw [hentry] at heq; cases heq
      | some found =>
        rw [hentry] at heq
        cases heq
        exact ⟨hle, hentry, rfl⟩
    · rintro ⟨-, hnext, rfl⟩
      have hentry : tree.entry? (segment :: spot.trail).reverse = some entry := hnext
      rw [hentry]

/-- **One step.** A segment leads on from a directory, to what the tree has at the trail behind the
segment; a name has to be short enough. -/
theorem step_eq_ok_iff (h : tree.Holds spot) :
    tree.step spot segment = .ok next ↔
      spot.entry.isDirectory ∧ (isName segment → segment.utf8ByteSize ≤ Spot.maxNameSize) ∧
        tree.Holds next ∧ next.trail = move spot.trail segment := by
  by_cases hdirectory : spot.entry.isDirectory
  swap
  · exact ⟨fun hstep => (hdirectory (isDirectory_of_step hstep)).elim,
      fun hall => (hdirectory hall.1).elim⟩
  rw [step_eq hdirectory]
  by_cases hidle : Path.isIdle segment
  · have hself : spot = next ↔ tree.Holds next ∧ next.trail = spot.trail :=
      ⟨fun heq => heq ▸ ⟨h, rfl⟩, fun hnext => (h.eq_of_trail_eq hnext.1 hnext.2).symm⟩
    simp [hidle, isName, move, hdirectory, hself]
  by_cases hup : segment = ".."
  · subst hup
    have hdots : Path.isIdle ".." = false := by decide
    simp [hdots, isName, move, hdirectory, spotAt_eq_ok_iff]
  · simp [hidle, hup, isName, move, hdirectory, child?_bind_eq_ok_iff h]

/-! ## Walks -/

theorem holds_foldlM {segments : List String} (h : tree.Holds spot)
    (hwalk : segments.foldlM tree.step spot = .ok next) : tree.Holds next := by
  induction segments generalizing spot with
  | nil => cases hwalk; exact h
  | cons segment segments ih =>
    rw [List.foldlM_cons] at hwalk
    obtain ⟨mid, hmid, hrest⟩ := bind_eq_ok_iff.mp hwalk
    exact ih ((step_eq_ok_iff h).mp hmid).2.2.1 hrest

theorem isDirectory_of_foldlM {segments : List String}
    (hwalk : segments.foldlM tree.step spot = .ok next) (hnext : next.entry.isDirectory) :
    spot.entry.isDirectory := by
  cases segments with
  | nil => cases hwalk; exact hnext
  | cons segment segments =>
    rw [List.foldlM_cons] at hwalk
    obtain ⟨mid, hmid, -⟩ := bind_eq_ok_iff.mp hwalk
    exact isDirectory_of_step hmid

theorem foldlM_eq_of_idle {segments : List String} (hidle : ∀ s ∈ segments, Path.isIdle s)
    (hwalk : segments.foldlM tree.step spot = .ok next) : next = spot := by
  induction segments with
  | nil => cases hwalk; rfl
  | cons segment segments ih =>
    obtain ⟨hsegment, hsegments⟩ := List.forall_mem_cons.mp hidle
    rw [List.foldlM_cons] at hwalk
    obtain ⟨mid, hmid, hrest⟩ := bind_eq_ok_iff.mp hwalk
    rw [step_eq (isDirectory_of_step hmid), if_pos hsegment] at hmid
    cases hmid
    exact ih hsegments hrest

theorem step_of_stepWithin (h : tree.stepWithin spot segment = .ok next) :
    tree.step spot segment = .ok next := by
  dsimp only [stepWithin] at h
  split at h
  · exact nomatch h
  · exact h

theorem foldlM_step_of_stepWithin {segments : List String}
    (hwalk : segments.foldlM tree.stepWithin spot = .ok next) :
    segments.foldlM tree.step spot = .ok next := by
  induction segments generalizing spot with
  | nil => exact hwalk
  | cons segment segments ih =>
    rw [List.foldlM_cons] at hwalk ⊢
    obtain ⟨mid, hmid, hrest⟩ := bind_eq_ok_iff.mp hwalk
    rw [bind_of_eq_ok (step_of_stepWithin hmid)]
    exact ih hrest

/-- A walk goes the same way in a tree in which every directory of it is still one. -/
theorem foldlM_transfer {after : FileTree} {segments : List String} {there : Spot}
    (hkeep : ∀ spot, tree.Holds spot → spot.entry.isDirectory →
      ∃ there, after.Holds there ∧ there.trail = spot.trail ∧ there.entry.isDirectory)
    (h : tree.Holds spot) (hthere : after.Holds there) (htrail : there.trail = spot.trail)
    (hwalk : segments.foldlM tree.step spot = .ok next) (hnext : next.entry.isDirectory) :
    ∃ there', segments.foldlM after.step there = .ok there' ∧ after.Holds there' ∧
      there'.trail = next.trail ∧ there'.entry.isDirectory := by
  induction segments generalizing spot there with
  | nil =>
    cases hwalk
    obtain ⟨found, hfound, hfoundTrail, hdirectory⟩ := hkeep _ h hnext
    obtain rfl := hthere.eq_of_trail_eq hfound (hfoundTrail.trans htrail.symm)
    exact ⟨found, rfl, hfound, hfoundTrail, hdirectory⟩
  | cons segment segments ih =>
    -- the walk goes on, so every spot before its end is a directory and is kept
    have hspot := isDirectory_of_foldlM hwalk hnext
    rw [List.foldlM_cons] at hwalk
    obtain ⟨mid, hmid, hrest⟩ := bind_eq_ok_iff.mp hwalk
    obtain ⟨-, hsize, hmidHolds, hmidTrail⟩ := (step_eq_ok_iff h).mp hmid
    obtain ⟨found, hfound, hfoundTrail, hdirectory⟩ := hkeep _ h hspot
    obtain rfl := hthere.eq_of_trail_eq hfound (hfoundTrail.trans htrail.symm)
    obtain ⟨mid', hmid', hmidTrail', -⟩ :=
      hkeep mid hmidHolds (isDirectory_of_foldlM hrest hnext)
    have hstep : after.step found segment = .ok mid' := by
      refine (step_eq_ok_iff hfound).mpr ⟨hdirectory, hsize, hmid', ?_⟩
      rw [hmidTrail', hmidTrail, hfoundTrail]
    rw [List.foldlM_cons, bind_of_eq_ok hstep]
    exact ih hmidHolds hmid' hmidTrail' hrest

theorem walk_eq_ok_iff {path : Path} {segments : List String} :
    tree.walk path segments = .ok next ↔
      ∃ start, tree.start path = .ok start ∧ segments.foldlM tree.step start = .ok next :=
  bind_eq_ok_iff

theorem holds_walk {path : Path} {segments : List String}
    (h : tree.walk path segments = .ok next) : tree.Holds next := by
  obtain ⟨start, hstart, hwalk⟩ := walk_eq_ok_iff.mp h
  exact holds_foldlM (spotAt_eq_ok_iff.mp hstart).1 hwalk

theorem holds_find {path : Path} (h : tree.find path = .ok next) : tree.Holds next := by
  obtain ⟨⟨⟩, -, hwalk⟩ := bind_eq_ok_iff.mp h
  exact holds_walk hwalk

theorem start_congr {path other : Path} (h : path.isAbsolute = other.isAbsolute) :
    tree.start path = tree.start other := by
  rw [FileTree.start, FileTree.start, h]

theorem walk_transfer {after : FileTree} {path : Path} {segments : List String}
    (hcurrent : after.current = tree.current)
    (hkeep : ∀ spot, tree.Holds spot → spot.entry.isDirectory →
      ∃ there, after.Holds there ∧ there.trail = spot.trail ∧ there.entry.isDirectory)
    (h : tree.walk path segments = .ok next) (hnext : next.entry.isDirectory) :
    ∃ there, after.walk path segments = .ok there ∧ after.Holds there ∧
      there.trail = next.trail ∧ there.entry.isDirectory := by
  obtain ⟨start, hstart, hwalk⟩ := walk_eq_ok_iff.mp h
  obtain ⟨hholds, htrail⟩ := spotAt_eq_ok_iff.mp hstart
  obtain ⟨there, hthere, hthereTrail, -⟩ := hkeep start hholds (isDirectory_of_foldlM hwalk hnext)
  obtain ⟨last, hlast, hrest⟩ := foldlM_transfer hkeep hholds hthere hthereTrail hwalk hnext
  refine ⟨last, walk_eq_ok_iff.mpr ⟨there, ?_, hlast⟩, hrest⟩
  rw [FileTree.start, hcurrent]
  exact spotAt_eq_ok_iff.mpr ⟨hthere, hthereTrail.trans htrail⟩

/-! ## Locating -/

theorem locate_eq_ok {path : Path} {place : Location} (h : tree.locate path = .ok place) :
    checkText path = .ok () ∧
      ∃ spot, tree.walk path path.segments = .ok spot ∧ spot.place = place := by
  obtain ⟨⟨⟩, hcheck, h⟩ := bind_eq_ok_iff.mp h
  obtain ⟨start, hstart, h⟩ := bind_eq_ok_iff.mp h
  obtain ⟨spot, hspot, h⟩ := bind_eq_ok_iff.mp h
  exact ⟨hcheck, spot, walk_eq_ok_iff.mpr ⟨start, hstart, foldlM_step_of_stepWithin hspot⟩,
    Except.ok.inj h⟩

theorem place_of_find {path : Path} {place : Location} (hfind : tree.find path = .ok spot)
    (hlocate : tree.locate path = .ok place) : spot.place = place := by
  obtain ⟨⟨⟩, -, hwalk⟩ := bind_eq_ok_iff.mp hfind
  obtain ⟨-, last, hlast, hplace⟩ := locate_eq_ok hlocate
  obtain rfl := Except.ok.inj (hwalk.symm.trans hlast)
  exact hplace

/-- **The place of a parent.** Where a path ends in a name, its parent is located where the segments
before the name lead. -/
theorem locate_parent {path parent : Path} {name : String} {directory : Location}
    (hlast : path.segments.getLast? = some name) (hname : isName name)
    (hparent : path.parent? = some parent)
    (hlocate : tree.locate (if parent.text = "" then ⟨"."⟩ else parent) = .ok directory)
    (hwalk : tree.walk path path.segments.dropLast = .ok spot) : directory = spot.place := by
  obtain ⟨-, found, hfound, rfl⟩ := locate_eq_ok hlocate
  obtain ⟨start, hstart, hfound⟩ := walk_eq_ok_iff.mp hfound
  obtain ⟨start', hstart', hwalk⟩ := walk_eq_ok_iff.mp hwalk
  obtain ⟨hsegments, hempty⟩ | ⟨head, rest, idle, hsegments, hidle, hsome⟩ :=
    (Path.parent?_of_getLast? hlast hname).2
  · obtain rfl := Option.some.inj (hparent.symm.trans hempty)
    -- a single name: its parent is the current directory
    have habsolute : path.isAbsolute = (⟨"."⟩ : Path).isAbsolute := by
      have hdot : (⟨"."⟩ : Path).isAbsolute = false := by decide
      rw [hdot, Bool.eq_false_iff, ne_eq, Path.isAbsolute_iff, hsegments]
      simp
    have hdot : ∀ segment ∈ (⟨"."⟩ : Path).segments, Path.isIdle segment := by decide
    obtain rfl : start' = start :=
      Except.ok.inj (hstart'.symm.trans ((start_congr habsolute).trans hstart))
    rw [hsegments] at hwalk
    obtain rfl := Except.ok.inj hwalk
    rw [foldlM_eq_of_idle hdot hfound]
  · obtain rfl := Option.some.inj (hparent.symm.trans hsome)
    have hfront : path.segments = (head :: rest) ++ (idle ++ [name]) := by simpa using hsegments
    have hslash : ∀ segment ∈ head :: rest, '/' ∉ segment.toList := fun segment hsegment =>
      Path.not_mem_of_mem_segments (hfront ▸ List.mem_append_left _ hsegment)
    have habsolute : path.isAbsolute = (Path.ofSegments head rest).isAbsolute := by
      rw [Bool.eq_iff_iff, Path.isAbsolute_iff, Path.isAbsolute_ofSegments hslash, hsegments]
      simp
    rw [if_neg (Path.text_ofSegments_ne hslash)] at hstart hfound
    obtain rfl : start' = start :=
      Except.ok.inj (hstart'.symm.trans ((start_congr habsolute).trans hstart))
    obtain ⟨idle', hidle', hparentSegments⟩ := Path.segments_ofSegments hslash
    rw [hparentSegments, List.foldlM_append] at hfound
    rw [hsegments, List.dropLast_concat, ← List.cons_append, List.foldlM_append] at hwalk
    obtain ⟨mid, hmid, hfound⟩ := bind_eq_ok_iff.mp hfound
    obtain ⟨mid', hmid', hwalk⟩ := bind_eq_ok_iff.mp hwalk
    obtain rfl := Except.ok.inj (hmid.symm.trans hmid')
    rw [foldlM_eq_of_idle hidle' hfound, foldlM_eq_of_idle hidle hwalk]

end Multimeter.FileTree
