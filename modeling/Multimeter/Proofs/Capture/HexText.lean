import Mathlib.Tactic.SplitIfs
import Multimeter.Capture.Format
import Multimeter.Proofs.Checks
import Multimeter.Proofs.Splitting

/-!
# Hex text

A file of hex text is split at the bytes that end lines, and each line is read as a text of its own.
This is the same as splitting the text: the code of a character holds the byte of a line end only
for the line end itself.

* `Capture.utf8`: the bytes of a text; `Capture.utf8EncodeChar_of_lt`,
  `Capture.le_of_mem_utf8EncodeChar`: the codes of its characters.
* `Capture.textLines`: the lines of a text; **`Capture.lines_utf8`**.
* **`Capture.chunks_hexText`**: the chunks of a text all of whose lines hold bytes.
* `Capture.ReadIn`: the pieces that a raw file can be read in; **`Capture.readIn_blocks`**.
-/

namespace Multimeter

/-! ## Blanks and blocks -/

namespace Text

theorem dropBlanks_append (s t : List Char) :
    dropBlanks (s ++ t) = dropBlanks s ++ dropBlanks t := List.filter_append s t

theorem mem_blocks {β : Type} {n : Nat} {items piece : List β} (h : piece ∈ blocks n items) :
    piece ≠ [] ∧ piece.length ≤ n + 1 := by
  induction items using blocks.induct n with
  | case1 =>
    rw [blocks] at h
    exact absurd h List.not_mem_nil
  | case2 a rest ih =>
    rw [blocks] at h
    obtain rfl | h := List.mem_cons.mp h
    · refine ⟨List.cons_ne_nil _ _, ?_⟩
      rw [List.length_cons, List.length_take]
      omega
    · exact ih h

end Text

namespace Capture

/-! ## The bytes of a text -/

/-- The bytes of a text. -/
def utf8 (text : List Char) : List UInt8 := text.flatMap String.utf8EncodeChar

theorem toList_toUTF8 (text : String) : text.toUTF8.data.toList = utf8 text.toList := by
  have hbytes : text.toUTF8 = text.toList.utf8Encode := by
    conv_lhs => rw [← String.ofList_toList (s := text)]
    rw [String.toUTF8_eq_toByteArray, String.toByteArray_ofList]
  rw [hbytes, List.utf8Encode, List.data_toByteArray]
  rfl

theorem fromUTF8?_utf8 (text : List Char) :
    String.fromUTF8? ⟨(utf8 text).toArray⟩ = some (String.ofList text) := by
  have hbytes : ByteArray.mk (utf8 text).toArray = text.utf8Encode :=
    ByteArray.ext List.data_toByteArray.symm
  rw [hbytes, String.fromUTF8?, dif_pos ByteArray.isValidUTF8_utf8Encode]
  rfl

theorem utf8EncodeChar_ne_nil (c : Char) : String.utf8EncodeChar c ≠ [] := by
  unfold String.utf8EncodeChar
  dsimp only
  split_ifs <;> exact List.cons_ne_nil _ _

theorem utf8EncodeChar_of_lt {c : Char} (hc : c.toNat < 128) :
    String.utf8EncodeChar c = [UInt8.ofNat c.toNat] := by
  unfold String.utf8EncodeChar
  dsimp only
  rw [if_pos (by change c.toNat ≤ 127; omega)]
  rfl

theorem le_of_mem_utf8EncodeChar {c : Char} (hc : 128 ≤ c.toNat) {b : UInt8}
    (hb : b ∈ String.utf8EncodeChar c) : 128 ≤ b.toNat := by
  have hcode : ¬ c.val.toNat ≤ 127 := by
    change ¬ c.toNat ≤ 127
    omega
  have hbyte {n : Nat} (hn : 128 ≤ n % 256) : 128 ≤ (UInt8.ofNat n).toNat := by
    rwa [UInt8.toNat_ofNat']
  unfold String.utf8EncodeChar at hb
  dsimp only at hb
  rw [if_neg hcode] at hb
  split_ifs at hb
  all_goals
    simp only [List.mem_cons, List.not_mem_nil, or_false] at hb
    rcases hb with rfl | rfl | rfl | rfl | rfl
    all_goals exact hbyte (by omega)

/-- **Only a line end has the byte of a line end in its code.** -/
theorem ne_lineEnd_of_mem_utf8EncodeChar {c : Char} (hc : c ≠ '\n') {b : UInt8}
    (hb : b ∈ String.utf8EncodeChar c) : b ≠ lineEnd := by
  rintro rfl
  have hend : lineEnd.toNat = 10 := rfl
  by_cases hlt : c.toNat < 128
  · rw [utf8EncodeChar_of_lt hlt, List.mem_singleton] at hb
    rw [hb, UInt8.toNat_ofNat'] at hend
    apply hc
    rw [← Char.ofNat_toNat c, show c.toNat = 10 by omega]
  · have := le_of_mem_utf8EncodeChar (Nat.not_lt.mp hlt) hb
    omega

theorem utf8_cons (c : Char) (text : List Char) :
    utf8 (c :: text) = String.utf8EncodeChar c ++ utf8 text := List.flatMap_cons

theorem utf8_eq_nil_iff {text : List Char} : utf8 text = [] ↔ text = [] := by
  cases text with
  | nil => exact ⟨fun _ => rfl, fun _ => rfl⟩
  | cons c rest =>
    rw [utf8_cons, List.append_eq_nil_iff]
    exact ⟨fun h => absurd h.1 (utf8EncodeChar_ne_nil c), fun h => nomatch h⟩

/-! ## Lines -/

/-- The lines of a text; a line end at its very end begins no further line. A carriage return in
front of a line end stays in its line, where it is a blank: `HexLine.bytes_concat_blank`. -/
def textLines (text : List Char) : List (List Char) :=
  let pieces := text.splitOn '\n'
  if pieces.getLast? = some [] then pieces.dropLast else pieces

theorem splitOn_utf8 (text : List Char) :
    (utf8 text).splitOn lineEnd = (text.splitOn '\n').map utf8 := by
  induction text with
  | nil => rfl
  | cons c rest ih =>
    obtain ⟨piece, pieces, hrest, hsplit⟩ := Text.splitOn_cons '\n' c rest
    rw [hsplit, utf8_cons]
    rw [hrest, List.map_cons] at ih
    split_ifs with hc
    · rw [hc, List.map_cons, List.map_cons, ← ih]
      rfl
    · have hfree : lineEnd ∉ String.utf8EncodeChar c :=
        fun hb => ne_lineEnd_of_mem_utf8EncodeChar hc hb rfl
      rw [Text.splitOn_append_of_not_mem hfree, ih, List.modifyHead_cons, List.map_cons, utf8_cons]

/-- **The lines of a file are those of its text.** -/
theorem lines_utf8 (text : List Char) : lines (utf8 text) = (textLines text).map utf8 := by
  have hlast : ((text.splitOn '\n').map utf8).getLast? = some [] ↔
      (text.splitOn '\n').getLast? = some [] := by
    rw [List.getLast?_map, Option.map_eq_some_iff]
    simp only [utf8_eq_nil_iff, exists_eq_right]
  unfold lines textLines
  rw [splitOn_utf8]
  dsimp only
  simp only [hlast]
  split_ifs
  · rw [List.map_dropLast]
  · rfl

theorem HexLine.bytes_concat_blank (line : List Char) {c : Char} (hc : Text.isBlank c = true) :
    bytes (line ++ [c]) = bytes line := by
  have hdigits : digits (line ++ [c]) = digits line := by
    have hblank : Text.dropBlanks ([c].takeWhile (· ≠ commentMark)) = [] :=
      List.filter_eq_nil_iff.mpr fun b hb => by
        rw [List.mem_singleton.mp (List.takeWhile_subset _ hb), hc]
        decide
    unfold digits
    rw [List.takeWhile_append]
    split_ifs with hwhole
    · rw [Text.dropBlanks_append, hblank, List.append_nil,
        (List.takeWhile_prefix _).eq_of_length hwhole]
    · rfl
  rw [bytes, bytes, hdigits]

/-! ## Chunks -/

theorem lineChunk_text (text : List Char) (lineNumber : Nat) : lineChunk (utf8 text) lineNumber =
    (HexLine.bytes text).mapError fun e => .capture (hexLineText lineNumber e) := by
  unfold lineChunk
  rw [fromUTF8?_utf8]
  dsimp only
  rw [String.toList_ofList]

theorem lineChunk_utf8 {line : List Char} {bytes : List UInt8} (h : HexLine.bytes line = .ok bytes)
    (lineNumber : Nat) : lineChunk (utf8 line) lineNumber = .ok bytes := by
  rw [lineChunk_text, h]
  rfl

theorem lineChunk_malformed {line : List Char} {e : HexError} (h : HexLine.bytes line = .error e)
    (lineNumber : Nat) :
    lineChunk (utf8 line) lineNumber = .error (.capture (hexLineText lineNumber e)) := by
  rw [lineChunk_text, h]
  rfl

section

variable {line : List UInt8} {ls : List (List UInt8)} {lineNumber : Nat}

theorem lineChunks_cons_blank (h : lineChunk line lineNumber = .ok []) :
    lineChunks lineNumber (line :: ls) = lineChunks (lineNumber + 1) ls := by
  unfold lineChunks
  simp [List.zipIdx_cons, h]

theorem lineChunks_cons (h : lineChunk line lineNumber ≠ .ok []) :
    lineChunks lineNumber (line :: ls) =
      lineChunk line lineNumber :: lineChunks (lineNumber + 1) ls := by
  unfold lineChunks
  rw [List.zipIdx_cons, List.filterMap_cons]
  rcases hchunk : lineChunk line lineNumber with e | (_ | ⟨b, bytes⟩)
  · simp [hchunk]
  · exact absurd hchunk h
  · simp [hchunk]

end

/-- **A text all of whose lines hold bytes** is read line by line; lines without bytes are no
chunks. -/
theorem chunks_hexText {text : List Char} {data : List (List UInt8)}
    (h : (textLines text).mapM HexLine.bytes = .ok data) :
    Format.hexText.chunks (utf8 text) = (data.filter (!·.isEmpty)).map .ok := by
  rw [Format.chunks, lines_utf8]
  -- the induction is on the lines from any line number on
  generalize textLines text = lines, 1 = lineNumber at h
  induction lines generalizing data lineNumber with
  | nil =>
    obtain rfl := Except.ok.inj h
    rfl
  | cons line lines ih =>
    rw [List.mapM_cons] at h
    obtain ⟨bytes, hbytes, h⟩ := bind_eq_ok_iff.mp h
    obtain ⟨rest, hrest, h⟩ := bind_eq_ok_iff.mp h
    obtain rfl := Except.ok.inj h
    have hchunk := lineChunk_utf8 hbytes lineNumber
    rw [List.map_cons]
    cases bytes with
    | nil =>
      rw [lineChunks_cons_blank hchunk, ih (lineNumber + 1) hrest]
      rfl
    | cons b bytes =>
      rw [lineChunks_cons (by simp [hchunk]), hchunk, ih (lineNumber + 1) hrest]
      rfl

/-- The pieces in which a raw file can be read. -/
structure ReadIn (pieces : List (List UInt8)) (contents : List UInt8) : Prop where
  flatten_eq : pieces.flatten = contents
  piece_bounds : ∀ piece ∈ pieces, piece ≠ [] ∧ piece.length ≤ rawChunkSize

/-- **A raw file is read in such pieces.** -/
theorem readIn_blocks (contents : List UInt8) :
    ReadIn (Text.blocks (rawChunkSize - 1) contents) contents where
  flatten_eq := Text.flatten_blocks _ _
  piece_bounds _ h := Text.mem_blocks h

end Capture

end Multimeter
