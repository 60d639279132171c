import Multimeter.Capture.Format

/-!
# Capture sources

An open capture is read on from where the last call left it, also after an error. Raw bytes are read
in pieces, hex text line by line up to the next line that holds bytes or fails.

* `Reader.next`: the next bytes of an open file, and the reader behind them.
* `Source.next`: the next chunk with its offset, and the source behind it.
* `Source.chunks`: the chunks to come, said at once.
-/

namespace Multimeter.Capture

/-- A chunk of a capture, by the offset of its first byte. -/
structure Chunk where
  offset : Nat
  bytes : List UInt8
deriving DecidableEq, Repr

/-- The first line of what is left of a text, without its end, and what stands behind it. -/
def nextLine? : List UInt8 → Option (List UInt8 × List UInt8)
  | [] => none
  | unread => some (unread.takeWhile (· ≠ lineEnd), (unread.dropWhile (· ≠ lineEnd)).drop 1)

theorem length_lt_of_nextLine? {unread line behind : List UInt8}
    (h : nextLine? unread = some (line, behind)) : behind.length < unread.length := by
  cases unread with
  | nil => simp [nextLine?] at h
  | cons a rest =>
    simp only [nextLine?, Option.some.injEq, Prod.mk.injEq] at h
    have hle := (List.dropWhile_suffix (l := a :: rest) (· ≠ lineEnd)).length_le
    rw [← h.2, List.length_drop]
    simp only [List.length_cons] at hle ⊢
    omega

/-- An open file, by what is left to be read. -/
inductive Reader where
  /-- Every read fails. -/
  | failing (e : FileError)
  | raw (unread : List UInt8)
  /-- Hex text, behind a number of lines. -/
  | hexText (unread : List UInt8) (linesRead : Nat)

namespace Reader

/-- Reads lines until one holds bytes or fails. -/
def nextLines (unread : List UInt8) (linesRead : Nat) :
    Except SourceError (Option (List UInt8)) × Reader :=
  match _h : nextLine? unread with
  | none => (.ok none, hexText unread linesRead)
  | some (line, behind) =>
    match lineChunk line (linesRead + 1) with
    | .ok [] => nextLines behind (linesRead + 1)
    | .ok bytes => (.ok (some bytes), hexText behind (linesRead + 1))
    | .error e => (.error e, hexText behind (linesRead + 1))
termination_by unread.length
decreasing_by all_goals exact length_lt_of_nextLine? _h

/-- The next bytes, none at the end of the file. -/
def next : Reader → Except SourceError (Option (List UInt8)) × Reader
  | failing e => (.error (.file e), failing e)
  | raw [] => (.ok none, raw [])
  | raw unread => (.ok (some (unread.take rawChunkSize)), raw (unread.drop rawChunkSize))
  | hexText unread linesRead => nextLines unread linesRead

end Reader

structure Source where
  reader : Reader
  /-- The number of bytes in the chunks so far. -/
  offset : Nat

namespace Source

def ofContents (format : Format) : Except FileError (List UInt8) → Source
  | .error e => ⟨.failing e, 0⟩
  | .ok contents =>
    match format with
    | .raw => ⟨.raw contents, 0⟩
    | .hexText => ⟨.hexText contents 0, 0⟩

def next (s : Source) : Except SourceError (Option Chunk) × Source :=
  match s.reader.next with
  | (.error e, reader) => (.error e, ⟨reader, s.offset⟩)
  | (.ok none, reader) => (.ok none, ⟨reader, s.offset⟩)
  | (.ok (some bytes), reader) =>
    (.ok (some ⟨s.offset, bytes⟩), ⟨reader, s.offset + bytes.length⟩)

/-- The chunks to come, with an error in place of each read that fails. An unreadable file fails at
the first read. -/
def chunks (s : Source) : List (Except SourceError (List UInt8)) :=
  match s.reader with
  | .failing e => [.error (.file e)]
  | .raw unread => (Text.blocks (rawChunkSize - 1) unread).map .ok
  | .hexText unread linesRead => lineChunks (linesRead + 1) (lines unread)

/-- The chunks of a capture that has just been opened are those of its contents. -/
theorem chunks_ofContents (format : Format) (contents : List UInt8) :
    (ofContents format (.ok contents)).chunks = format.chunks contents := by
  cases format <;> rfl

end Source

end Multimeter.Capture
