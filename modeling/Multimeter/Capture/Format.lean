import Multimeter.Capture.HexLine
import Multimeter.Files.Error
import Multimeter.Path
import Multimeter.Text.Blocks

/-!
# Capture formats

A capture is a file with the bytes as they came from the meter, or with hex text. It is read in
chunks; where chunks end means nothing.

* `Format.ofPath`: the format that a path stands for.
* `SourceError`: why reading a capture fails.
* `Format.chunks`: the chunks of a file's contents, with an error in place of each line that fails.
-/

namespace Multimeter.Capture

inductive Format where
  | raw
  | hexText
deriving DecidableEq, Repr

namespace Format

/-- The extensions of hex text. -/
def hexExtensions : List String := ["hex", "txt"]

/-- The format that the extension of a path stands for; the case of ASCII letters does not count. -/
def ofPath (path : Path) : Format :=
  match path.extension? with
  | some extension =>
    if hexExtensions.contains (String.ofList (extension.toList.map Char.toLower)) then .hexText
    else .raw
  | none => .raw

end Format

inductive SourceError where
  | file (e : FileError)
  /-- The file was read, and is no capture. -/
  | capture (text : String)
deriving DecidableEq, Repr

def SourceError.message : SourceError → String
  | file e => "I/O error: " ++ e.message
  | capture text => "capture parse error: " ++ text

def hexLineText (lineNumber : Nat) (e : HexError) : String :=
  s!"invalid hex on line {lineNumber}: " ++ e.message

def lineChunk (line : List UInt8) (lineNumber : Nat) : Except SourceError (List UInt8) :=
  match String.fromUTF8? ⟨line.toArray⟩ with
  | none => .error (.file .notText)
  | some text =>
    (HexLine.bytes text.toList).mapError fun e => .capture (hexLineText lineNumber e)

def lineEnd : UInt8 := 10

/-- The lines of a text; a line end at its very end begins no further line. -/
def lines (contents : List UInt8) : List (List UInt8) :=
  let pieces := contents.splitOn lineEnd
  if pieces.getLast? = some [] then pieces.dropLast else pieces

def rawChunkSize : Nat := 64

/-- The chunks of lines, the first of which has the given number. A line that fails is an error among
them; a line without bytes is no chunk. -/
def lineChunks (lineNumber : Nat) (lines : List (List UInt8)) :
    List (Except SourceError (List UInt8)) :=
  (lines.zipIdx lineNumber).filterMap fun (line, lineNumber) =>
    match lineChunk line lineNumber with
    | .ok [] => none
    | chunk => some chunk

/-- The chunks of a file's contents, with the errors among them. -/
def Format.chunks (format : Format) (contents : List UInt8) :
    List (Except SourceError (List UInt8)) :=
  match format with
  | .raw => (Text.blocks (rawChunkSize - 1) contents).map .ok
  | .hexText => lineChunks 1 (lines contents)

end Multimeter.Capture
