import Multimeter.Files.Access
import Multimeter.Wildcard.Pattern

/-!
# Expanding wildcard patterns

* `Wildcard.expand`: the paths below a directory that match the rest of a pattern.
* `Wildcard.Pattern.paths`: all paths that match a pattern, in each directory by name.
* `Wildcard.UnreadableDirectory`: the first directory on the way that cannot be read.
-/

namespace Multimeter.Wildcard

/-- A path that the beginning of a pattern matches. -/
structure Match where
  path : Path
  isDirectory : Bool
deriving DecidableEq, Repr

structure UnreadableDirectory where
  path : Path
  error : FileError
deriving DecidableEq, Repr

def UnreadableDirectory.message (e : UnreadableDirectory) : String :=
  "attempting to read `" ++ e.path.text ++ "` resulted in an error: " ++ e.error.message

variable {m : Type → Type} [Monad m] [FileAccess m]

/-- The match of a path that is looked up. -/
def look (path : Path) : ExceptT UnreadableDirectory m Match := do
  let isDirectory ← liftM (FileAccess.isDirectory path : m Bool)
  return ⟨path, isDirectory⟩

def sortedChildren (path : Path) : ExceptT UnreadableDirectory m (List Child) := do
  let found : Except FileError (List Child) ← liftM (FileAccess.children path : m _)
  match found with
  | .ok children => return children.mergeSort fun a b => decide (a.name ≤ b.name)
  | .error e => throw ⟨path, e⟩

/-- The path of a name in a directory; the current directory is not written. -/
def below (directory : Path) (name : String) : Path :=
  if directory.isCurrent then ⟨name⟩ else directory.join name

/-- The names of the directory itself and of the one above that tokens match. They have to begin
with a dot of their own. -/
def dotNames (tokens : List Token) : List String :=
  if tokens.head? = some (.char '.') then
    ["..", "."].filter fun name => accepts tokens name.toList
  else []

/-- The paths at and below `here` that match the rest of a pattern. Names without wildcards are not
looked up in the directory; directories below a directory come behind it. Each name and each level
of directories takes one unit of fuel. -/
def expand (directoriesOnly : Bool) :
    Nat → List (List Token) → Match → ExceptT UnreadableDirectory m (List Path)
  | 0, _, _ => return []
  | _ + 1, [], here => return if directoriesOnly && !here.isDirectory then [] else [here.path]
  | fuel + 1, tokens :: rest, here => do
    match literal? tokens with
    | some name =>
      let next := below here.path name
      let found ←
        if name = "." || name = ".." then pure here.isDirectory
        else liftM (FileAccess.pathExists next : m Bool)
      if found then expand directoriesOnly fuel rest (← look next) else return []
    | none =>
      if !here.isDirectory then return []
      let children ← sortedChildren here.path
      let special ← (dotNames tokens).flatMapM fun name => do
        expand directoriesOnly fuel rest (← look (here.path.join name))
      let found ← children.flatMapM fun child => do
        let next : Match := ⟨below here.path child.name, child.isDirectory⟩
        let descend (names : List (List Token)) : ExceptT UnreadableDirectory m (List Path) :=
          match names with
          | [] => return []
          | first :: later =>
            if accepts first child.name.toList then expand directoriesOnly fuel later next
            else return []
        if tokens = [.anyDirectories] then
          let later := rest.dropWhile (· = [.anyDirectories])
          if child.isDirectory then
            let there ← if later = [] then pure [next.path] else descend later
            return there ++ (← expand directoriesOnly fuel (tokens :: later) next)
          else descend later
        else descend (tokens :: rest)
      return special ++ found

/-- More directories than a path can go through. -/
def maxDepth : Nat := 4096

def Pattern.paths (p : Pattern) : ExceptT UnreadableDirectory m (List Path) := do
  expand p.directoriesOnly (p.names.length + maxDepth) p.names
    (← look ⟨if p.isAbsolute then "/" else "."⟩)

end Multimeter.Wildcard
