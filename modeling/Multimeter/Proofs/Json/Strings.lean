import Mathlib.Tactic.SplitIfs
import Multimeter.Json.Printer
import Multimeter.Json.Reader

/-!
# Strings read back

Every character of a text is written so that it is read back by itself.

* `Json.continues_unitText`: one character, whether it is escaped or not.
* **`Json.readString_stringText`**: a text in quotes.
-/

namespace Multimeter.Json

theorem hexCode?_control : ∀ code < 32,
    hexCode? (Text.hexDigit (code / 4096 % 16)) (Text.hexDigit (code / 256 % 16))
      (Text.hexDigit (code / 16 % 16)) (Text.hexDigit (code % 16)) = some code ∧
    unitOfCode code = .scalar (Char.ofNat code) := by
  decide

/-- Behind a unit that is read by itself, reading goes on. -/
def Continues (text : List Char) (u : TextUnit) : Prop :=
  ∀ r, readUnits (text ++ r) = (readUnits r).map fun p => (u :: p.1, p.2)

theorem continues_control {c : Char} (hc : c.toNat < 32) :
    Continues (escapeCode c.toNat) (.scalar c) := by
  intro r
  obtain ⟨hcode, hunit⟩ := hexCode?_control c.toNat hc
  rw [Char.ofNat_toNat] at hunit
  change readUnits ('\\' :: 'u' :: _ :: _ :: _ :: _ :: r) = _
  rw [readUnits, hcode, ← hunit]
  cases readUnits r <;> rfl

theorem continues_escaped {c d : Char} (hc : c ≠ 'u') (hd : escaped? c = some d) :
    Continues ['\\', c] (.scalar d) := by
  intro r
  change readUnits ('\\' :: c :: r) = _
  rw [readUnits, hd]
  · cases readUnits r <;> rfl
  · simp [hc]

theorem continues_plain {c : Char} (hquote : c ≠ '"') (hbackslash : c ≠ '\\')
    (hcontrol : ¬ c.toNat < 32) : Continues [c] (.scalar c) := by
  intro r
  have hescape : (c.toNat < 32 || c = '\\') = false := by simp [hcontrol, hbackslash]
  change readUnits (c :: r) = _
  rw [readUnits, if_neg (Bool.eq_false_iff.mp hescape)]
  all_goals simp [hquote, hbackslash]

/-- **Every character is read back by itself.** -/
theorem continues_unitText (c : Char) : Continues (unitText (.scalar c)) (.scalar c) := by
  have hofCode {code : Nat} (hcode : c.toNat = code) : Char.ofNat code = c := by
    rw [← hcode, Char.ofNat_toNat]
  unfold unitText
  dsimp only
  split_ifs with hquote hbackslash hline hreturn htab hback hfeed hcontrol
  · exact continues_escaped (by decide) (congrArg some hquote.symm)
  · exact continues_escaped (by decide) (congrArg some hbackslash.symm)
  · exact continues_escaped (by decide) (congrArg some hline.symm)
  · exact continues_escaped (by decide) (congrArg some hreturn.symm)
  · exact continues_escaped (by decide) (congrArg some htab.symm)
  · exact continues_escaped (by decide) (congrArg some (hofCode hback))
  · exact continues_escaped (by decide) (congrArg some (hofCode hfeed))
  · exact continues_control hcontrol
  · exact continues_plain hquote hbackslash hcontrol

theorem readUnits_flatMap (cs : List Char) (rest : List Char) :
    readUnits ((cs.map TextUnit.scalar).flatMap unitText ++ '"' :: rest) =
      some (cs.map TextUnit.scalar, rest) := by
  induction cs with
  | nil => rw [List.map_nil, List.flatMap_nil, List.nil_append, readUnits]
  | cons c cs ih =>
    rw [List.map_cons, List.flatMap_cons, List.append_assoc, continues_unitText, ih]
    rfl

theorem joinPairs_scalars (cs : List Char) :
    joinPairs (cs.map TextUnit.scalar) = cs.map TextUnit.scalar := by
  induction cs with
  | nil => rfl
  | cons c cs ih =>
    rw [joinPairs, List.map_cons, List.foldr_cons, ← joinPairs, ih]
    rfl

/-- **A text in quotes is read back**, up to the closing quote. -/
theorem readString_stringText (s : String) (rest : List Char) : ∃ t,
    stringText (unitsOf s) ++ rest = '"' :: t ∧ readString t = some (unitsOf s, rest) := by
  refine ⟨(unitsOf s).flatMap unitText ++ '"' :: rest, ?_, ?_⟩
  · simp [stringText]
  · rw [readString, unitsOf, readUnits_flatMap, Option.map_some]
    dsimp only
    rw [joinPairs_scalars]

end Multimeter.Json
