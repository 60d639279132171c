import Multimeter.Files.Access

/-!
# File trees

A file system as a value: nested directories, and the directory that relative paths begin in.

* `Entry.below?`, `Entry.put`: what is at a place below an entry, and the entry with another one
  there.
* `FileTree.step`, `FileTree.find`: following a path segment by segment. Every place on the way has
  to be a directory, also the last one when the path goes on with a slash or a dot.
* `FileTree.locate`: the place that a path leads to.
* `FileTree.writeFile`, `FileTree.makeDirectory`: the two operations that change a tree.
* `FileAccess (StateM FileTree)`: access to the tree in the state.
-/

namespace Multimeter

inductive Entry where
  | directory (children : List (String × Entry))
  | file (contents : List UInt8) (modified : Timestamp)

namespace Entry

def children : Entry → Except FileError (List (String × Entry))
  | directory children => .ok children
  | file .. => .error .notDirectory

def contents : Entry → Except FileError (List UInt8)
  | directory _ => .error .isDirectory
  | file contents _ => .ok contents

def isDirectory : Entry → Bool
  | directory _ => true
  | file .. => false

/-- What is known of an entry; a directory has no size of its own. -/
def metadata : Entry → Metadata
  | directory _ => { isFile := false, isDirectory := true, size := 0, modified := .epoch }
  | file contents modified =>
    { isFile := true
      isDirectory := false
      size := UInt64.ofNat contents.length
      modified := modified }

/-- What is at a place below the entry, if anything. -/
def below? : Entry → Location → Option Entry
  | here, [] => some here
  | directory children, name :: rest => children.lookup name >>= (·.below? rest)
  | file .., _ :: _ => none

/-- The entry with another one at a place below it. Missing directories on the way are made; below a
file nothing is put. -/
def put : Entry → Location → Entry → Entry
  | _, [], entry => entry
  | directory children, name :: rest, entry =>
    directory ((name, ((children.lookup name).getD (directory [])).put rest entry)
      :: children.filter fun child => child.1 ≠ name)
  | file contents modified, _ :: _, _ => file contents modified

@[simp] theorem below?_nil (here : Entry) : here.below? [] = some here := by
  cases here <;> rfl

theorem below?_append (here : Entry) (place rest : Location) :
    here.below? (place ++ rest) = here.below? place >>= (·.below? rest) := by
  induction place generalizing here with
  | nil => simp
  | cons name place ih =>
    cases here with
    | file => rfl
    | directory children => cases h : children.lookup name <;> simp [below?, h, ih]

end Entry

/-- The entries below the root. -/
structure FileTree where
  root : Entry := .directory []
  /-- The directory that relative paths begin in. -/
  current : Location
  /-- The time at which files are written. -/
  now : Timestamp := .epoch

/-- A place that a path has led to, and what is there. -/
structure Spot where
  /-- The names on the way from the root, the last one first. -/
  trail : List String
  entry : Entry

namespace Spot

def place (spot : Spot) : Location := spot.trail.reverse

def maxNameSize : Nat := 255

/-- What has a name in the directory at the spot, if anything. -/
def child? (spot : Spot) (name : String) : Except FileError (Option Entry) := do
  let children ← spot.entry.children
  if maxNameSize < name.utf8ByteSize then throw .nameTooLong
  return children.lookup name

end Spot

namespace FileTree

def entry? (tree : FileTree) (place : Location) : Option Entry := tree.root.below? place

def set (tree : FileTree) (place : Location) (entry : Entry) : FileTree :=
  { tree with root := tree.root.put place entry }

/-- The tree with a directory at a place where nothing was, and at all places above it. -/
def addDirectory (tree : FileTree) (place : Location) : FileTree :=
  if (tree.entry? place).isSome then tree else tree.set place (.directory [])

/-! ## Following paths -/

def maxPathSize : Nat := 4095

def spotAt (tree : FileTree) (trail : List String) : Except FileError Spot :=
  match tree.entry? trail.reverse with
  | some entry => .ok ⟨trail, entry⟩
  | none => .error .notFound

def step (tree : FileTree) (spot : Spot) (segment : String) : Except FileError Spot := do
  let _ ← spot.entry.children
  if Path.isIdle segment then return spot
  else if segment = ".." then tree.spotAt spot.trail.tail
  else
    match ← spot.child? segment with
    | some entry => return ⟨segment :: spot.trail, entry⟩
    | none => throw .notFound

def start (tree : FileTree) (path : Path) : Except FileError Spot :=
  tree.spotAt (if path.isAbsolute then [] else tree.current.reverse)

def walk (tree : FileTree) (path : Path) (segments : List String) : Except FileError Spot := do
  segments.foldlM tree.step (← tree.start path)

/-- Checks that a text can be a path of any length. -/
def checkText (path : Path) : Except FileError Unit :=
  if path.text.toList.contains '\x00' then .error .zeroInName
  else if path.text = "" then .error .notFound
  else .ok ()

def checkPath (path : Path) : Except FileError Unit := do
  checkText path
  if maxPathSize < path.text.utf8ByteSize then throw .nameTooLong

/-- The place that a path leads to, and what is there. -/
def find (tree : FileTree) (path : Path) : Except FileError Spot := do
  checkPath path
  tree.walk path path.segments

/-- The size of a place as a path from the root. -/
def placeSize (place : Location) : Nat :=
  place.foldl (fun size name => size + (name.utf8ByteSize + 1)) 0

/-- The spot that a segment leads to, when its place can be written as a path. -/
def stepWithin (tree : FileTree) (spot : Spot) (segment : String) : Except FileError Spot := do
  let isName := !Path.isIdle segment && segment ≠ ".."
  if isName && maxPathSize < placeSize (segment :: spot.trail) then throw .nameTooLong
  tree.step spot segment

/-- The place that a path leads to. The path is followed name by name, so that only the places on
the way have to be short enough. -/
def locate (tree : FileTree) (path : Path) : Except FileError Location := do
  checkText path
  let spot ← path.segments.foldlM tree.stepWithin (← tree.start path)
  return spot.place

/-! ## Changes -/

/-- The directory in which a path names its last segment, and this segment; nothing for a path that
ends in a slash or in dots and so names a directory itself. -/
def target (tree : FileTree) (path : Path) : Except FileError (Option (Spot × String)) := do
  checkPath path
  let segments := (path.segments.reverse.dropWhile (· = "")).reverse
  let spot ← tree.walk path segments.dropLast
  let _ ← spot.entry.children
  match segments.getLast? with
  | none => return none
  | some name => return if Path.isIdle name || name = ".." then none else some (spot, name)

/-- Replaces the contents of a file, or creates it in an existing directory. -/
def writeFile (tree : FileTree) (path : Path) (contents : List UInt8) :
    Except FileError FileTree := do
  match ← tree.target path with
  | none => throw .isDirectory
  | some (spot, name) =>
    if path.text.toList.getLast? = some '/' then throw .isDirectory
    match ← spot.child? name with
    | some (.directory _) => throw .isDirectory
    | _ => return tree.set (spot.place ++ [name]) (.file contents tree.now)

def makeDirectory (tree : FileTree) (path : Path) : Except FileError FileTree := do
  match ← tree.target path with
  | none => throw .alreadyExists
  | some (spot, name) =>
    match ← spot.child? name with
    | some _ => throw .alreadyExists
    | none => return tree.addDirectory (spot.place ++ [name])

def childrenOf (tree : FileTree) (path : Path) : Except FileError (List Child) := do
  let spot ← tree.find path
  let children ← spot.entry.children
  return children.map fun child => ⟨child.1, child.2.isDirectory⟩

end FileTree

/-! ## Access -/

/-- Applies a change to the tree in the state, if it does not fail. -/
def FileTree.change (f : FileTree → Except FileError FileTree) :
    StateM FileTree (Except FileError Unit) := fun tree =>
  match f tree with
  | .ok changed => (.ok (), changed)
  | .error e => (.error e, tree)

instance : FileAccess (StateM FileTree) where
  metadata path := fun tree => ((tree.find path).map (·.entry.metadata), tree)
  locate path := fun tree => (tree.locate path, tree)
  children path := fun tree => (tree.childrenOf path, tree)
  contents path := fun tree => ((tree.find path).map (·.entry.contents), tree)
  createDirectory path := FileTree.change (·.makeDirectory path)
  write path bytes := FileTree.change (·.writeFile path bytes)

end Multimeter
