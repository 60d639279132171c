import Mathlib.Data.List.TakeWhile
import Multimeter.Path
import Multimeter.Proofs.Splitting

/-!
# Names and parents of paths

* `Path.isName`: whether a segment names something in a directory.
* `Path.segments_ofSegments`: the segments of a path made of segments, which may be followed by idle
  ones.
* `Path.parent?_of_getLast?`: a path that ends in a name has this name and a parent, and the parent
  has the segments before the name up to idle ones.
* `Path.size_parent_le`: a parent is no longer than the path.
-/

namespace Multimeter.Path

/-- Whether a segment names something in a directory. -/
def isName (segment : String) : Bool := !isIdle segment && segment ≠ ".."

variable {p : Path} {head name : String}

theorem segments_ne_nil (p : Path) : p.segments ≠ [] := by
  simp [segments]

theorem not_mem_of_mem_segments {segment : String} (h : segment ∈ p.segments) :
    '/' ∉ segment.toList := by
  obtain ⟨piece, hpiece, rfl⟩ := List.mem_map.mp h
  simpa using Text.not_mem_of_mem_splitOn hpiece

theorem isAbsolute_iff : p.isAbsolute ↔ p.segments.head? = some "" ∧ p.segments.tail ≠ [] := by
  unfold isAbsolute segments
  cases htext : p.text.toList with
  | nil => simp
  | cons c rest =>
    obtain ⟨piece, pieces, -, hsplit⟩ := Text.splitOn_cons '/' c rest
    rw [hsplit]
    by_cases hc : c = '/' <;> simp [hc, String.ext_iff]

theorem getLast?_segments_ne (hne : p.text ≠ "") (hlast : p.text.toList.getLast? ≠ some '/') :
    p.segments.getLast? ≠ some "" := by
  have hitems : p.text.toList ≠ [] := fun h => hne (String.toList_eq_nil_iff.mp h)
  have hpiece := Text.getLast?_splitOn_ne_nil hitems hlast
  intro h
  rw [segments, List.getLast?_map] at h
  obtain ⟨piece, hlastPiece, hempty⟩ := Option.map_eq_some_iff.mp h
  exact hpiece (String.ofList_eq_empty_iff.mp hempty ▸ hlastPiece)

theorem getLast?_segments_of_slash (h : p.text.toList.getLast? = some '/') :
    p.segments.getLast? = some "" := by
  obtain ⟨front, hfront⟩ := List.getLast?_eq_some_iff.mp h
  rw [segments, hfront, List.splitOn_append_cons_self, List.splitOn_nil, List.map_append, List.map_singleton,
    List.getLast?_concat]

theorem text_eq_intercalate (p : Path) : p.text = "/".intercalate p.segments := by
  have hslash : "/".toList = ['/'] := rfl
  rw [String.ext_iff, String.toList_intercalate, hslash, segments, List.map_map]
  have hpieces : (String.toList ∘ String.ofList) = (id : List Char → List Char) := by
    funext piece
    exact String.toList_ofList
  rw [hpieces, List.map_id, List.intercalate_splitOn]

theorem segments_ofSegments_of_ne {tail : List String}
    (h : ∀ segment ∈ head :: tail, '/' ∉ segment.toList) (hne : ¬ (head = "" ∧ tail = [])) :
    (ofSegments head tail).segments = head :: tail := by
  have hsplit : (['/'].intercalate ((head :: tail).map String.toList)).splitOn '/' =
      (head :: tail).map String.toList := by
    refine List.splitOn_intercalate '/' (fun piece hpiece => ?_) (by simp)
    obtain ⟨segment, hsegment, rfl⟩ := List.mem_map.mp hpiece
    exact h segment hsegment
  have hslash : "/".toList = ['/'] := rfl
  rw [ofSegments, if_neg hne, segments, String.toList_intercalate, hslash, hsplit, List.map_map]
  simp

/-- The root alone is followed by an empty segment. -/
theorem segments_ofSegments {tail : List String}
    (h : ∀ segment ∈ head :: tail, '/' ∉ segment.toList) :
    ∃ idle, (∀ segment ∈ idle, isIdle segment) ∧
      (ofSegments head tail).segments = head :: tail ++ idle := by
  by_cases hroot : head = "" ∧ tail = []
  · obtain ⟨rfl, rfl⟩ := hroot
    exact ⟨[""], by decide, by decide⟩
  · exact ⟨[], by simp, by simpa using segments_ofSegments_of_ne h hroot⟩

theorem isAbsolute_ofSegments {tail : List String}
    (h : ∀ segment ∈ head :: tail, '/' ∉ segment.toList) :
    (ofSegments head tail).isAbsolute ↔ head = "" := by
  by_cases hroot : head = "" ∧ tail = []
  · obtain ⟨rfl, rfl⟩ := hroot
    decide
  · rw [isAbsolute_iff, segments_ofSegments_of_ne h hroot]
    simp only [List.head?_cons, List.tail_cons, Option.some.injEq]
    tauto

theorem text_ofSegments_ne {tail : List String}
    (h : ∀ segment ∈ head :: tail, '/' ∉ segment.toList) : (ofSegments head tail).text ≠ "" := by
  by_cases hroot : head = "" ∧ tail = []
  · obtain ⟨rfl, rfl⟩ := hroot
    decide
  · intro hempty
    have hsegments := segments_ofSegments_of_ne h hroot
    rw [segments, hempty] at hsegments
    have : [""] = head :: tail := hsegments
    simp_all

/-- **The parent of a name.** A path that ends in a name has it for its last name, and a parent: the
current directory, which is not written, or the segments before the name without idle ones at their
end. -/
theorem parent?_of_getLast? (hlast : p.segments.getLast? = some name) (hname : isName name) :
    p.fileName? = some name ∧
      (p.segments = [name] ∧ p.parent? = some ⟨""⟩ ∨
        ∃ head rest idle, p.segments = head :: (rest ++ idle) ++ [name] ∧
          (∀ segment ∈ idle, isIdle segment) ∧ p.parent? = some (ofSegments head rest)) := by
  obtain ⟨hidle, hup⟩ : isIdle name = false ∧ name ≠ ".." := by simpa [isName] using hname
  obtain ⟨init, hsegments⟩ := List.getLast?_eq_some_iff.mp hlast
  cases init with
  | nil =>
    have hsegments : p.segments = [name] := hsegments
    have hbody : p.body = [] := by simp [body, hsegments]
    have hne : name ≠ "" := by
      rintro rfl
      exact nomatch hidle
    exact ⟨by simp [fileName?, hbody, hsegments, hidle, hup],
      .inl ⟨hsegments, by simp [parent?, hbody, hsegments, hne]⟩⟩
  | cons head mid =>
    have hbody : p.body = mid ++ [name] := by simp [body, hsegments, hidle]
    refine ⟨by simp [fileName?, hbody, hup], .inr ⟨head, (mid.reverse.dropWhile isIdle).reverse,
      (mid.reverse.takeWhile isIdle).reverse, ?_, ?_, ?_⟩⟩
    · rw [← List.reverse_append, List.takeWhile_append_dropWhile, List.reverse_reverse]
      exact hsegments
    · intro segment hsegment
      exact List.mem_takeWhile_imp (List.mem_reverse.mp hsegment)
    · simp [parent?, hbody, hsegments]

theorem exists_parent (hlast : p.segments.getLast? = some name) (hname : isName name) :
    ∃ parent, p.parent? = some parent := by
  obtain ⟨-, hparent⟩ | ⟨head, rest, idle, -, -, hparent⟩ := (parent?_of_getLast? hlast hname).2
  · exact ⟨_, hparent⟩
  · exact ⟨_, hparent⟩

theorem size_parent_le {parent : Path} (hlast : p.segments.getLast? = some name)
    (hname : isName name) (hparent : p.parent? = some parent) :
    parent.text.utf8ByteSize ≤ p.text.utf8ByteSize := by
  obtain ⟨_, hempty⟩ | ⟨head, rest, idle, hsegments, _, hsome⟩ :=
    (parent?_of_getLast? hlast hname).2
  · obtain rfl := Option.some.inj (hparent.symm.trans hempty)
    exact Nat.zero_le _
  · obtain rfl := Option.some.inj (hparent.symm.trans hsome)
    have hfront : p.segments = (head :: rest) ++ (idle ++ [name]) := by simpa using hsegments
    rw [p.text_eq_intercalate, hfront,
      String.intercalate_append_of_ne_nil (List.cons_ne_nil _ _) (by simp),
      String.utf8ByteSize_append, String.utf8ByteSize_append, ofSegments]
    split_ifs
    · have hroot : "/".utf8ByteSize = 1 := rfl
      dsimp only
      omega
    · dsimp only
      omega

end Multimeter.Path
