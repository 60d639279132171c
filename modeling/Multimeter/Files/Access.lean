import Multimeter.Files.Error
import Multimeter.Path
import Multimeter.Timestamp

/-!
# Access to files

* `FileAccess`: what the command needs of a file system, in any monad.
* `FileAccess.isFile`, `isDirectory`, `pathExists`: questions that never fail.
* `FileAccess.createDirectories`: a directory together with the missing ones above it.
-/

namespace Multimeter

/-- A place in a file system: the names on the way from the root. -/
abbrev Location := List String

/-- What a file system knows of a file or directory. There are things that are neither. -/
structure Metadata where
  isFile : Bool
  isDirectory : Bool
  size : UInt64
  modified : Timestamp
deriving DecidableEq, Repr

structure Child where
  name : String
  isDirectory : Bool
deriving DecidableEq, Repr

class FileAccess (m : Type → Type) where
  metadata : Path → m (Except FileError Metadata)
  /-- The place that a path leads to; something has to be there. The path may be longer than other
  operations take it, as long as no place on the way is. -/
  locate : Path → m (Except FileError Location)
  children : Path → m (Except FileError (List Child))
  /-- Opens a file and reads it. A directory can be opened, and not read. -/
  contents : Path → m (Except FileError (Except FileError (List UInt8)))
  createDirectory : Path → m (Except FileError Unit)
  /-- Replaces the contents of a file, or creates it. -/
  write : Path → List UInt8 → m (Except FileError Unit)

namespace FileAccess

variable {m : Type → Type} [Monad m] [FileAccess m]

def pathExists (path : Path) : m Bool := return (← metadata path).toBool

def isFile (path : Path) : m Bool := do
  match ← metadata path with
  | .ok found => return found.isFile
  | .error _ => return false

def isDirectory (path : Path) : m Bool := do
  match ← metadata path with
  | .ok found => return found.isDirectory
  | .error _ => return false

def createUnlessThere (path : Path) : m (Except FileError Unit) := do
  match ← createDirectory path with
  | .ok _ => return .ok ()
  | .error e => return if ← isDirectory path then .ok () else .error e

/-- Creates a directory and those above it, at most `fuel` of them. -/
def createUpward : Nat → Path → m (Except FileError Unit)
  | 0, path => createUnlessThere path
  | fuel + 1, path => do
    if path.text = "" then return .ok ()
    match ← createUnlessThere path with
    | .error .notFound =>
      match path.parent? with
      | none => return .error (.other "failed to create whole tree")
      | some parent =>
        match ← createUpward fuel parent with
        | .ok _ => createUnlessThere path
        | .error e => return .error e
    | result => return result

/-- Creates a directory together with the missing ones above it. -/
def createDirectories (path : Path) : m (Except FileError Unit) :=
  createUpward (path.segments.length + 1) path

end FileAccess

end Multimeter
