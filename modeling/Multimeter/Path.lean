/-!
# Paths

A path is a text of names separated by slashes. Repeated slashes, a slash at the end and dots that
do not lead the path name nothing of their own.

* `Path.segments`: the texts between the slashes.
* `Path.fileName?`, `Path.extension?`, `Path.parent?`: the last name, what follows its last dot, and
  the path without the last name.
* `Path.join`: a name below a path.
-/

namespace Multimeter

structure Path where
  text : String
deriving DecidableEq, Repr

namespace Path

/-- The texts between the slashes; the first is empty when the path begins at the root. -/
def segments (p : Path) : List String := (p.text.toList.splitOn '/').map String.ofList

def isAbsolute (p : Path) : Bool := p.text.toList.head? = some '/'

/-- Whether a segment behind the first one names nothing: it is empty or a dot. -/
def isIdle (segment : String) : Bool := segment = "" || segment = "."

/-- The segments behind the first one, without idle segments at the end. -/
def body (p : Path) : List String :=
  (p.segments.tail.reverse.dropWhile isIdle).reverse

/-- The last name of the path, if the path ends in one: not in the root, a leading dot or two
dots. -/
def fileName? (p : Path) : Option String :=
  match p.body.getLast? with
  | some name => if name = ".." then none else some name
  | none =>
    match p.segments.head? with
    | some name => if isIdle name || name = ".." then none else some name
    | none => none

/-- What stands behind the last dot of a name. A name without a dot, or with a dot only at its
beginning, has no extension. -/
def extensionOf? (name : String) : Option String :=
  let reversed := name.toList.reverse
  let last := reversed.takeWhile (· ≠ '.')
  let before := (reversed.dropWhile (· ≠ '.')).drop 1
  if before = [] then none else some (String.ofList last.reverse)

def extension? (p : Path) : Option String := p.fileName? >>= extensionOf?

/-- The path with given first segment and further segments; the root alone is written as a slash. -/
def ofSegments (head : String) (tail : List String) : Path :=
  if head = "" ∧ tail = [] then ⟨"/"⟩ else ⟨"/".intercalate (head :: tail)⟩

/-- The path without its last name. The root and the empty path have no parent; the parent of a
single name is the empty path. -/
def parent? (p : Path) : Option Path :=
  let head := p.segments.headD ""
  if p.body = [] then if head = "" then none else some ⟨""⟩
  else some (ofSegments head (p.body.dropLast.reverse.dropWhile isIdle).reverse)

def join (p : Path) (name : String) : Path :=
  if p.text.toList.getLast?.all (· = '/') then ⟨p.text ++ name⟩ else ⟨p.text ++ "/" ++ name⟩

/-- Whether the path is the current directory, however written. -/
def isCurrent (p : Path) : Bool := p.segments.head? = some "." && p.body = []

end Path

end Multimeter
