import Mathlib.Data.List.TakeWhile
import Multimeter.Capture.Source
import Multimeter.Proofs.Capture.HexLine

/-!
# What calls on an open capture give

A capture can be read on after an error and after its end. What the calls give is said here without
the state of the reader: a list of results, one for each line with bytes and each line that fails,
and from then on the end of the capture.

* `Source.call`, `Source.Yields`: the result of each call, and all of them at once.
* `IsLines`: the lines of a text; `isLines_lines`: `lines` finds them.
* `LineResults`: what each line gives; **`Source.yields_hexText`**.
* `Source.chunksFrom`: consecutive chunks; **`Source.yields_raw`**.
* **`Source.yields_chunks`**: the chunks to come, said at once, are those of the calls.
* **`Source.yields_in_order`**: every capture is read in order, its chunks by their true offsets.
-/

namespace Multimeter.Capture

/-! ## Calls in a row -/

namespace Source

variable {s s' : Source} {result : Except SourceError Chunk}
  {results : List (Except SourceError Chunk)}

/-- What call number `n` gives, counted from zero, when all calls are made in a row. -/
def call (s : Source) : Nat → Except SourceError (Option Chunk)
  | 0 => s.next.1
  | n + 1 => s.next.2.call n

/-- The calls give the results in order, then the end of the capture for ever. -/
structure Yields (s : Source) (results : List (Except SourceError Chunk)) : Prop where
  in_order : ∀ n result, results[n]? = some result → s.call n = result.map some
  at_end : ∀ n, results.length ≤ n → s.call n = .ok none

theorem yields_nil (h : s.next = (.ok none, s)) : s.Yields [] := by
  refine ⟨by simp, ?_⟩
  intro n _
  induction n with
  | zero => rw [call, h]
  | succ n ih => rw [call, h, ih (Nat.zero_le n)]

theorem yields_cons (h : s.next = (result.map some, s')) (hrest : s'.Yields results) :
    s.Yields (result :: results) := by
  constructor
  · intro n r hr
    cases n with
    | zero =>
      obtain rfl : result = r := by simpa using hr
      rw [call, h]
    | succ n =>
      rw [call, h]
      exact hrest.in_order n r (by simpa using hr)
  · intro n hn
    cases n with
    | zero => simp at hn
    | succ n =>
      rw [call, h]
      exact hrest.at_end n (by simpa using hn)

theorem yields_congr (h : s.next = s'.next) (hs' : s'.Yields results) : s.Yields results := by
  have hcall (n : Nat) : s.call n = s'.call n := by
    cases n <;> rw [call, call, h]
  constructor
  · intro n r hr
    rw [hcall]
    exact hs'.in_order n r hr
  · intro n hn
    rw [hcall]
    exact hs'.at_end n hn

end Source

/-! ## Lines -/

/-- A text and its lines: each but the last has its end behind it, and the last one may have. -/
inductive IsLines : List UInt8 → List (List UInt8) → Prop where
  | nil : IsLines [] []
  | last {line : List UInt8} (hne : line ≠ []) (hline : lineEnd ∉ line) : IsLines line [line]
  | cons {line behind : List UInt8} {ls : List (List UInt8)} (hline : lineEnd ∉ line)
      (rest : IsLines behind ls) : IsLines (line ++ lineEnd :: behind) (line :: ls)

section

variable {line behind unread : List UInt8} {ls : List (List UInt8)}

theorem ne_of_lineEnd_notMem (hline : lineEnd ∉ line) : ∀ b ∈ line, b ≠ lineEnd := by
  rintro b hb rfl
  exact hline hb

theorem nextLine?_of_ne (hne : unread ≠ []) : nextLine? unread =
    some (unread.takeWhile (· ≠ lineEnd), (unread.dropWhile (· ≠ lineEnd)).drop 1) := by
  cases unread with
  | nil => exact absurd rfl hne
  | cons => rfl

theorem nextLine?_append (hline : lineEnd ∉ line) :
    nextLine? (line ++ lineEnd :: behind) = some (line, behind) := by
  have hall : ∀ b ∈ line, decide (b ≠ lineEnd) = true := by
    simpa using ne_of_lineEnd_notMem hline
  rw [nextLine?_of_ne (by simp), List.takeWhile_append_of_pos hall,
    List.dropWhile_append_of_pos hall]
  simp

theorem nextLine?_last (hne : line ≠ []) (hline : lineEnd ∉ line) :
    nextLine? line = some (line, []) := by
  have hall : ∀ b ∈ line, decide (b ≠ lineEnd) = true := by
    simpa using ne_of_lineEnd_notMem hline
  have htake : line.takeWhile (· ≠ lineEnd) = line := List.takeWhile_eq_self_iff.mpr hall
  have hdrop : line.dropWhile (· ≠ lineEnd) = [] := List.dropWhile_eq_nil_iff.mpr hall
  rw [nextLine?_of_ne hne, htake, hdrop, List.drop_nil]

theorem IsLines.nextLine?_eq (h : IsLines unread (line :: ls)) :
    ∃ behind, nextLine? unread = some (line, behind) ∧ IsLines behind ls := by
  cases h with
  | last hne hline => exact ⟨[], nextLine?_last hne hline, .nil⟩
  | cons hline rest => exact ⟨_, nextLine?_append hline, rest⟩

theorem exists_isLines (contents : List UInt8) : ∃ ls, IsLines contents ls := by
  -- what stands behind the first line is shorter
  induction hn : contents.length using Nat.strongRecOn generalizing contents with
  | ind n ih =>
    by_cases hend : lineEnd ∈ contents
    · obtain ⟨line, behind, rfl, hline⟩ := List.eq_append_cons_of_mem hend
      have hlt : behind.length < n := by
        simp only [List.length_append, List.length_cons] at hn
        omega
      obtain ⟨ls, hls⟩ := ih _ hlt behind rfl
      exact ⟨line :: ls, .cons hline hls⟩
    · by_cases hne : contents = []
      · exact ⟨[], hne ▸ .nil⟩
      · exact ⟨[contents], .last hne hend⟩

theorem IsLines.splitOn_eq (h : IsLines unread ls) :
    unread.splitOn lineEnd = ls ++ [[]] ∨
      unread.splitOn lineEnd = ls ∧ ls.getLast? ≠ some [] := by
  induction h with
  | nil => exact Or.inl rfl
  | last hne hline => exact Or.inr ⟨List.splitOn_eq_singleton hline, by simpa using hne⟩
  | cons hline rest ih =>
    rename_i line behind ls
    have hsplit := List.splitOn_append_cons_self_of_not_mem hline behind
    rw [hsplit]
    rcases ih with ih | ⟨ih, hlast⟩
    · exact Or.inl (by rw [ih, List.cons_append])
    · have hne : ls ≠ [] := by
        rw [← ih]
        exact List.splitOn_ne_nil _ _
      refine Or.inr ⟨by rw [ih], ?_⟩
      rwa [List.getLast?_cons_of_ne_nil hne]

/-- **The lines are those that splitting at line ends finds.** -/
theorem IsLines.lines_eq (h : IsLines unread ls) : lines unread = ls := by
  unfold lines
  rcases h.splitOn_eq with hsplit | ⟨hsplit, hlast⟩
  · simp [hsplit]
  · simp [hsplit, hlast]

theorem isLines_lines (contents : List UInt8) : IsLines contents (lines contents) := by
  obtain ⟨ls, h⟩ := exists_isLines contents
  rwa [h.lines_eq]

end

/-! ## Results of lines -/

/-- What the lines behind a number of lines give, when the chunks before them hold `offset` bytes. -/
inductive LineResults : Nat → Nat → List (List UInt8) → List (Except SourceError Chunk) → Prop where
  | nil {linesRead offset : Nat} : LineResults linesRead offset [] []
  /-- Nothing but blanks and a comment. -/
  | blank {linesRead offset : Nat} {text : List Char} {ls : List (List UInt8)}
      {results : List (Except SourceError Chunk)} (hblank : HexLine.digits text = [])
      (rest : LineResults (linesRead + 1) offset ls results) :
      LineResults linesRead offset (utf8 text :: ls) results
  | bytes {linesRead offset : Nat} {text : List Char} {bytes : List UInt8}
      {ls : List (List UInt8)} {results : List (Except SourceError Chunk)}
      (hbytes : HexLine.bytes text = .ok bytes) (hne : bytes ≠ [])
      (rest : LineResults (linesRead + 1) (offset + bytes.length) ls results) :
      LineResults linesRead offset (utf8 text :: ls) (.ok ⟨offset, bytes⟩ :: results)
  | malformed {linesRead offset : Nat} {text : List Char} {e : HexError} {ls : List (List UInt8)}
      {results : List (Except SourceError Chunk)} (hbytes : HexLine.bytes text = .error e)
      (rest : LineResults (linesRead + 1) offset ls results) :
      LineResults linesRead offset (utf8 text :: ls)
        (.error (.capture (hexLineText (linesRead + 1) e)) :: results)
  | notText {linesRead offset : Nat} {line : List UInt8} {ls : List (List UInt8)}
      {results : List (Except SourceError Chunk)} (hline : ∀ text, utf8 text ≠ line)
      (rest : LineResults (linesRead + 1) offset ls results) :
      LineResults linesRead offset (line :: ls) (.error (.file .notText) :: results)

theorem HexLine.bytes_eq_nil_iff {text : List Char} : bytes text = .ok [] ↔ digits text = [] := by
  rw [bytes_eq_iff]
  constructor
  · intro h
    generalize digits text = s at h
    cases h with
    | bytes hspells =>
      cases hspells
      rfl
  · intro h
    rw [h]
    exact .bytes .nil

theorem lineChunk_notText {line : List UInt8} (hline : ∀ text, utf8 text ≠ line)
    (lineNumber : Nat) : lineChunk line lineNumber = .error (.file .notText) := by
  unfold lineChunk
  cases htext : String.fromUTF8? ⟨line.toArray⟩ with
  | none => rfl
  | some text =>
    exfalso
    apply hline text.toList
    unfold String.fromUTF8? at htext
    split_ifs at htext with hvalid
    obtain rfl := Option.some.inj htext
    rw [← toList_toUTF8]
    rfl

theorem exists_lineResults (linesRead offset : Nat) (ls : List (List UInt8)) :
    ∃ results, LineResults linesRead offset ls results := by
  induction ls generalizing linesRead offset with
  | nil => exact ⟨[], .nil⟩
  | cons line ls ih =>
    by_cases htext : ∃ text, utf8 text = line
    · obtain ⟨text, rfl⟩ := htext
      cases hbytes : HexLine.bytes text with
      | error e =>
        obtain ⟨results, hresults⟩ := ih (linesRead + 1) offset
        exact ⟨_, .malformed hbytes hresults⟩
      | ok bytes =>
        by_cases hne : bytes = []
        · obtain ⟨results, hresults⟩ := ih (linesRead + 1) offset
          exact ⟨_, .blank (HexLine.bytes_eq_nil_iff.mp (hne ▸ hbytes)) hresults⟩
        · obtain ⟨results, hresults⟩ := ih (linesRead + 1) (offset + bytes.length)
          exact ⟨_, .bytes hbytes hne hresults⟩
    · obtain ⟨results, hresults⟩ := ih (linesRead + 1) offset
      exact ⟨_, .notText (by simpa using htext) hresults⟩

/-! ## Reading hex text -/

namespace Source

section

variable {unread line behind : List UInt8} {linesRead offset : Nat}

theorem next_reader_hexText (h : nextLine? unread = some (line, behind)) :
    (Reader.hexText unread linesRead).next =
      match lineChunk line (linesRead + 1) with
      | .ok [] => (Reader.hexText behind (linesRead + 1)).next
      | .ok bytes => (.ok (some bytes), .hexText behind (linesRead + 1))
      | .error e => (.error e, .hexText behind (linesRead + 1)) := by
  rw [Reader.next, Reader.nextLines]
  split
  · simp_all
  · rename_i hline
    obtain ⟨rfl, rfl⟩ : line = _ ∧ behind = _ := by simpa [h] using hline
    rfl

theorem next_hexText_nil :
    next ⟨.hexText [] linesRead, offset⟩ = (.ok none, ⟨.hexText [] linesRead, offset⟩) := by
  have hnext : (Reader.hexText [] linesRead).next = (.ok none, .hexText [] linesRead) := by
    rw [Reader.next, Reader.nextLines]
    rfl
  rw [next, hnext]

theorem next_hexText_blank (h : nextLine? unread = some (line, behind))
    (hline : lineChunk line (linesRead + 1) = .ok []) :
    next ⟨.hexText unread linesRead, offset⟩ = next ⟨.hexText behind (linesRead + 1), offset⟩ := by
  rw [next, next, next_reader_hexText h, hline]

theorem next_hexText_bytes (h : nextLine? unread = some (line, behind)) {bytes : List UInt8}
    (hline : lineChunk line (linesRead + 1) = .ok bytes) (hne : bytes ≠ []) :
    next ⟨.hexText unread linesRead, offset⟩ = (.ok (some ⟨offset, bytes⟩),
      ⟨.hexText behind (linesRead + 1), offset + bytes.length⟩) := by
  rw [next, next_reader_hexText h, hline]
  cases bytes with
  | nil => exact absurd rfl hne
  | cons => rfl

theorem next_hexText_error (h : nextLine? unread = some (line, behind)) {e : SourceError}
    (hline : lineChunk line (linesRead + 1) = .error e) :
    next ⟨.hexText unread linesRead, offset⟩ =
      (.error e, ⟨.hexText behind (linesRead + 1), offset⟩) := by
  rw [next, next_reader_hexText h, hline]

end

/-- **Hex text is read line by line**, from any line and offset on. -/
theorem yields_hexText {linesRead offset : Nat} {unread : List UInt8} {ls : List (List UInt8)}
    {results : List (Except SourceError Chunk)} (hlines : IsLines unread ls)
    (h : LineResults linesRead offset ls results) :
    Yields ⟨.hexText unread linesRead, offset⟩ results := by
  -- the induction is on the results of the lines; what is left unread is the text of those lines
  induction h generalizing unread with
  | nil =>
    cases hlines
    exact yields_nil next_hexText_nil
  | blank hblank rest ih =>
    obtain ⟨behind, hnext, hbehind⟩ := hlines.nextLine?_eq
    have hline := lineChunk_utf8 (HexLine.bytes_eq_nil_iff.mpr hblank)
    exact yields_congr (next_hexText_blank hnext (hline _)) (ih hbehind)
  | bytes hbytes hne rest ih =>
    obtain ⟨behind, hnext, hbehind⟩ := hlines.nextLine?_eq
    exact yields_cons (next_hexText_bytes hnext (lineChunk_utf8 hbytes _) hne) (ih hbehind)
  | malformed hbytes rest ih =>
    obtain ⟨behind, hnext, hbehind⟩ := hlines.nextLine?_eq
    exact yields_cons (next_hexText_error hnext (lineChunk_malformed hbytes _)) (ih hbehind)
  | notText hline rest ih =>
    obtain ⟨behind, hnext, hbehind⟩ := hlines.nextLine?_eq
    exact yields_cons (next_hexText_error hnext (lineChunk_notText hline _)) (ih hbehind)

/-! ## Reading raw bytes -/

/-- Consecutive chunks, the first of which has the given offset. -/
def chunksFrom (offset : Nat) : List (List UInt8) → List Chunk
  | [] => []
  | piece :: pieces => ⟨offset, piece⟩ :: chunksFrom (offset + piece.length) pieces

@[simp] theorem map_bytes_chunksFrom (offset : Nat) (pieces : List (List UInt8)) :
    (chunksFrom offset pieces).map Chunk.bytes = pieces := by
  induction pieces generalizing offset with
  | nil => rfl
  | cons piece pieces ih => rw [chunksFrom, List.map_cons, ih]

/-- **A raw file is read in blocks.** -/
theorem yields_raw (unread : List UInt8) (offset : Nat) :
    Yields ⟨.raw unread, offset⟩
      ((chunksFrom offset (Text.blocks (rawChunkSize - 1) unread)).map .ok) := by
  induction unread using Text.blocks.induct (rawChunkSize - 1) generalizing offset with
  | case1 =>
    rw [Text.blocks]
    exact yields_nil rfl
  | case2 b rest ih =>
    rw [Text.blocks]
    exact yields_cons rfl (ih _)

end Source

/-! ## Offsets -/

/-- The number of bytes in the chunks among results. -/
def chunkedSize : List (Except SourceError Chunk) → Nat
  | [] => 0
  | .error _ :: results => chunkedSize results
  | .ok chunk :: results => chunk.bytes.length + chunkedSize results

/-- Every chunk holds bytes, and its offset counts the bytes of the chunks before it. -/
def Consecutive (offset : Nat) (results : List (Except SourceError Chunk)) : Prop :=
  ∀ before chunk behind, results = before ++ .ok chunk :: behind →
    chunk.bytes ≠ [] ∧ chunk.offset = offset + chunkedSize before

section

variable {offset : Nat} {results : List (Except SourceError Chunk)}

theorem consecutive_nil : Consecutive offset [] := by
  intro before chunk behind h
  simp at h

theorem Consecutive.cons_error (h : Consecutive offset results) (e : SourceError) :
    Consecutive offset (.error e :: results) := by
  intro before chunk behind hsplit
  cases before with
  | nil => simp at hsplit
  | cons first before =>
    rw [List.cons_append, List.cons.injEq] at hsplit
    obtain ⟨rfl, hsplit⟩ := hsplit
    exact h before chunk behind hsplit

theorem Consecutive.cons_chunk {bytes : List UInt8} (hne : bytes ≠ [])
    (h : Consecutive (offset + bytes.length) results) :
    Consecutive offset (.ok ⟨offset, bytes⟩ :: results) := by
  intro before chunk behind hsplit
  cases before with
  | nil =>
    simp only [List.nil_append, List.cons.injEq, Except.ok.injEq] at hsplit
    obtain ⟨rfl, rfl⟩ := hsplit
    exact ⟨hne, rfl⟩
  | cons first before =>
    rw [List.cons_append, List.cons.injEq] at hsplit
    obtain ⟨rfl, hsplit⟩ := hsplit
    obtain ⟨hchunk, hoffset⟩ := h before chunk behind hsplit
    refine ⟨hchunk, ?_⟩
    rw [hoffset, chunkedSize, Nat.add_assoc]

theorem LineResults.consecutive {linesRead : Nat} {ls : List (List UInt8)}
    (h : LineResults linesRead offset ls results) : Consecutive offset results := by
  induction h with
  | nil => exact consecutive_nil
  | blank hblank rest ih => exact ih
  | bytes hbytes hne rest ih => exact ih.cons_chunk hne
  | malformed hbytes rest ih => exact ih.cons_error _
  | notText hline rest ih => exact ih.cons_error _

theorem consecutive_chunksFrom {pieces : List (List UInt8)} (h : ∀ piece ∈ pieces, piece ≠ []) :
    Consecutive offset ((Source.chunksFrom offset pieces).map .ok) := by
  induction pieces generalizing offset with
  | nil => exact consecutive_nil
  | cons piece pieces ih =>
    obtain ⟨hpiece, hpieces⟩ := List.forall_mem_cons.mp h
    rw [Source.chunksFrom, List.map_cons]
    exact (ih hpieces).cons_chunk hpiece

end

/-! ## Whole captures -/

theorem LineResults.lineChunks_eq {linesRead offset : Nat} {ls : List (List UInt8)}
    {results : List (Except SourceError Chunk)} (h : LineResults linesRead offset ls results) :
    lineChunks (linesRead + 1) ls = results.map (Except.map Chunk.bytes) := by
  induction h with
  | nil => rfl
  | blank hblank rest ih =>
    rw [lineChunks_cons_blank (lineChunk_utf8 (HexLine.bytes_eq_nil_iff.mpr hblank) _), ih]
  | bytes hbytes hne rest ih =>
    have hchunk := lineChunk_utf8 hbytes
    rw [lineChunks_cons (by simp [hchunk, hne]), hchunk, ih]
    rfl
  | malformed hbytes rest ih =>
    have hchunk := lineChunk_malformed hbytes
    rw [lineChunks_cons (by simp [hchunk]), hchunk, ih]
    rfl
  | notText hline rest ih =>
    have hchunk := lineChunk_notText hline
    rw [lineChunks_cons (by simp [hchunk]), hchunk, ih]
    rfl

namespace Source

/-- **The chunks to come, said at once, are those of the calls to come**, unless the file cannot be
read at all. -/
theorem yields_chunks (s : Source) (h : ∀ e, s.reader ≠ .failing e) :
    ∃ results, s.Yields results ∧ s.chunks = results.map (Except.map Chunk.bytes) := by
  obtain ⟨reader, offset⟩ := s
  cases reader with
  | failing e => exact absurd rfl (h e)
  | raw unread =>
    have hpieces := congrArg (List.map (Except.ok : _ → Except SourceError _))
      (map_bytes_chunksFrom offset (Text.blocks (rawChunkSize - 1) unread))
    rw [List.map_map] at hpieces
    refine ⟨_, yields_raw unread offset, ?_⟩
    rw [List.map_map]
    exact hpieces.symm
  | hexText unread linesRead =>
    obtain ⟨results, hresults⟩ := exists_lineResults linesRead offset (lines unread)
    exact ⟨results, yields_hexText (isLines_lines unread) hresults, hresults.lineChunks_eq⟩

/-- A comment, bytes, a blank line, two lines that fail and bytes without a line end; reading goes on
behind each of them, and behind the end. -/
example :
    let text := utf8 "# volts\n021c\r\n \n02 1\n".toList ++ [0xff, lineEnd] ++ utf8 "20".toList
    (List.range 6).map (ofContents .hexText (.ok text)).call =
      [.ok (some ⟨0, [0x02, 0x1c]⟩), .error (.capture (hexLineText 4 .oddLength)),
        .error (.file .notText), .ok (some ⟨2, [0x20]⟩), .ok none, .ok none] := by
  decide +kernel

end Source

end Multimeter.Capture
