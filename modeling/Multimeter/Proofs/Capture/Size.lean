import Mathlib.Algebra.BigOperators.Group.List.Basic
import Mathlib.Algebra.GroupWithZero.Nat
import Multimeter.Proofs.Capture.Source

/-!
# The size of a stream

A capture holds no more bytes of the stream than bytes of its own: in raw files they are the same,
and hex text takes two characters for each.

* `Text.sum_length_splitOn`: pieces are no longer than what they were cut from.
* `HexLine.length_bytes_le`, `length_of_lineChunk`: a line holds no more bytes than it is long.
* **`Format.length_flatten_le`**: the chunks of a file hold no more bytes than the file.
-/

namespace Multimeter

namespace Text

variable {α : Type} [DecidableEq α]

theorem sum_length_splitOn (separator : α) (items : List α) :
    ((items.splitOn separator).map List.length).sum ≤ items.length := by
  induction items with
  | nil => exact Nat.le_refl 0
  | cons a rest ih =>
    obtain ⟨piece, pieces, hrest, hsplit⟩ := splitOn_cons separator a rest
    rw [hrest, List.map_cons, List.sum_cons] at ih
    rw [hsplit]
    split_ifs
    · simp
      omega
    · simp
      omega

end Text

namespace Capture

variable {line bs : List UInt8} {lineNumber : Nat}

theorem length_le_length_utf8 (text : List Char) : text.length ≤ (utf8 text).length := by
  induction text with
  | nil => exact Nat.le_refl 0
  | cons c text ih =>
    have hchar := List.length_pos_iff.mpr (utf8EncodeChar_ne_nil c)
    rw [utf8_cons, List.length_append, List.length_cons]
    omega

theorem HexLine.length_bytes_le {line : List Char} (h : bytes line = .ok bs) :
    bs.length ≤ line.length := by
  cases bytes_eq_iff.mp h with
  | bytes hspells =>
    have hdigits := hspells.length_eq
    have hkept : (digits line).length ≤ line.length :=
      (List.length_filter_le _ _).trans (List.takeWhile_sublist _).length_le
    omega

theorem length_of_lineChunk (h : lineChunk line lineNumber = .ok bs) : bs.length ≤ line.length := by
  by_cases htext : ∃ text, utf8 text = line
  · obtain ⟨text, rfl⟩ := htext
    rw [lineChunk_text, mapError_eq_ok_iff] at h
    exact (HexLine.length_bytes_le h).trans (length_le_length_utf8 text)
  · exact nomatch (lineChunk_notText (fun text hline => htext ⟨text, hline⟩) _).symm.trans h

theorem length_flatten_lineChunks {ls data : List (List UInt8)}
    (h : lineChunks lineNumber ls = data.map .ok) :
    data.flatten.length ≤ (ls.map List.length).sum := by
  induction ls generalizing lineNumber data with
  | nil =>
    obtain rfl : data = [] := List.map_eq_nil_iff.mp h.symm
    exact Nat.le_refl 0
  | cons line ls ih =>
    rw [List.map_cons, List.sum_cons]
    by_cases hblank : lineChunk line lineNumber = .ok []
    · rw [lineChunks_cons_blank hblank] at h
      exact Nat.le_add_left_of_le (ih h)
    · rw [lineChunks_cons hblank] at h
      obtain ⟨bs, rest, rfl, hline, hrest⟩ := List.map_eq_cons_iff.mp h.symm
      have hbytes := length_of_lineChunk hline.symm
      have hlater := ih hrest.symm
      rw [List.flatten_cons, List.length_append]
      omega

theorem sum_length_lines (contents : List UInt8) :
    ((lines contents).map List.length).sum ≤ contents.length := by
  have hsplit := Text.sum_length_splitOn lineEnd contents
  unfold lines
  dsimp only
  split_ifs with hlast
  · obtain ⟨init, hinit⟩ := List.getLast?_eq_some_iff.mp hlast
    rw [hinit] at hsplit ⊢
    simpa using hsplit
  · exact hsplit

/-- **A file holds no more bytes of the stream than bytes of its own.** -/
theorem Format.length_flatten_le {format : Format} {contents : List UInt8}
    {data : List (List UInt8)} (h : format.chunks contents = data.map .ok) :
    data.flatten.length ≤ contents.length := by
  cases format with
  | raw =>
    obtain rfl := (List.map_inj_right fun _ _ => Except.ok.inj).mp h
    rw [(readIn_blocks contents).flatten_eq]
  | hexText => exact (length_flatten_lineChunks h).trans (sum_length_lines contents)

end Capture

end Multimeter
