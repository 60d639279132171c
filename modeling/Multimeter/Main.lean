import Multimeter.Command.Run

/-!
# The command

* `FileAccess IO`: access to the files of the system.
* `main`: runs the command for its arguments.
-/

namespace Multimeter

/-- The system's number of an error, which some operations report negated. -/
def errorNumber (code : UInt32) : UInt32 := if code < 0x80000000 then code else 0 - code

/-- The file error that the system reports. -/
def FileError.ofSystem (e : IO.Error) : FileError :=
  match e with
  | .noFileOrDirectory .. => .notFound
  | .alreadyExists .. => .alreadyExists
  | .inappropriateType _ code _ => if errorNumber code = 21 then .isDirectory else .notDirectory
  | .invalidArgument _ code _ =>
    if errorNumber code = 36 then .nameTooLong else .other (toString e)
  | _ => .other (toString e)

def attempt {α : Type} (operation : IO α) : IO (Except FileError α) := do
  try
    return .ok (← operation)
  catch e =>
    return .error (.ofSystem e)

/-- A path as the system takes it. -/
def Path.toSystem (path : Path) := (IO.FS.DirEntry.mk path.text "").root

def systemMetadata (path : Path) : IO Metadata := do
  let found ← path.toSystem.metadata
  return {
    isFile := found.type == .file
    isDirectory := found.type == .dir
    size := found.byteSize
    modified := .ofSeconds found.modified.sec found.modified.nsec.toNat }

/-- The place that a path leads to. When there is none, the system knows why from looking at the
path. -/
def systemPlace (path : Path) : IO (Except FileError Location) := do
  match ← attempt (IO.FS.realPath path.text) with
  | .ok real => return .ok ((Path.mk real.toString).segments.filter (· ≠ ""))
  | .error e =>
    match ← attempt (systemMetadata path) with
    | .ok _ => return .error e
    | .error cause => return .error cause

/-- The names in a directory of the system. What has a name is looked at from the directory's own
place, since the path with the name can be too long. -/
def systemChildren (path : Path) : IO (List Child) := do
  let entries ← path.toSystem.readDir
  let place ← IO.FS.realPath path.text
  entries.toList.mapM fun entry =>
    return ⟨entry.fileName, ← (place / entry.fileName).isDir⟩

def systemContents (path : Path) : IO (Except FileError (Except FileError (List UInt8))) := do
  match ← attempt (IO.FS.readBinFile path.text) with
  | .ok bytes => return .ok (.ok bytes.toList)
  | .error .isDirectory => return .ok (.error .isDirectory)
  | .error e => return .error e

instance : FileAccess IO where
  metadata path := attempt (systemMetadata path)
  locate := systemPlace
  children path := attempt (systemChildren path)
  contents := systemContents
  createDirectory path := attempt (IO.FS.createDir path.text)
  write path bytes := attempt (IO.FS.writeBinFile path.text ⟨bytes.toArray⟩)

/-- What is shown when the arguments make no request. -/
def usage : String :=
  "usage: dmmwire capture decode INPUT -p PROTOCOL (-o REPORT | --stdout) [--pretty | --compact]\n"
    ++ "         [--quiet] [--strict] [--list-rejections] [--mask-parity]\n"
    ++ "       dmmwire protocols\n"

end Multimeter

def main (arguments : List String) : IO UInt32 := do
  let outcome : Option Multimeter.Command.Outcome ← Multimeter.Command.run arguments
  match outcome with
  | none =>
    IO.eprint Multimeter.usage
    return 2
  | some outcome =>
    IO.print outcome.output
    IO.eprint outcome.messages
    return outcome.exitCode.toUInt32
