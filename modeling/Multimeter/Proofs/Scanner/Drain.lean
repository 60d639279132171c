import Multimeter.Proofs.Framing
import Multimeter.Scanner

/-!
# Frames of a list of bytes

`drain` takes one of three steps: it stops when a frame no longer fits, drops a byte in front of a
window that is not aligned, or consumes an aligned window whole.

* `drain_of_short`, `drain_of_not_aligned`, `drain_of_aligned`: the three steps.
* `drain_induction`: induction along the steps.
* `events_drain_skip`, `le_offset_of_mem_drain`, `pairwise_offset_drain`: the events.
* **`drain_append`**: draining two lists in turn is draining them at once.
-/

namespace Multimeter

/-! ## Events -/

namespace ScanEvent

/-- The event of a frame at an offset, from what decoding the frame gives. -/
def ofOutcome (offset : Nat) : Except PacketError Reading → ScanEvent
  | .ok reading => .measurement offset reading
  | .error error => .rejected offset error

/-- What decoding the frame gave. -/
def outcome : ScanEvent → Except PacketError Reading
  | measurement _ reading => .ok reading
  | rejected _ error => .error error

/-- Whether the frame was decoded. -/
def isMeasurement (e : ScanEvent) : Bool := e.outcome.isOk

@[simp] theorem offset_ofOutcome (offset : Nat) (r : Except PacketError Reading) :
    (ofOutcome offset r).offset = offset := by
  cases r <;> rfl

@[simp] theorem outcome_ofOutcome (offset : Nat) (r : Except PacketError Reading) :
    (ofOutcome offset r).outcome = r := by
  cases r <;> rfl

end ScanEvent

/-! ## Steps -/

namespace Drained

/-- One more byte was dropped in front. -/
def withSkip (d : Drained) : Drained := { d with skipped := d.skipped + 1 }

/-- One more frame was found in front. -/
def withFrame (d : Drained) (e : ScanEvent) : Drained where
  events := e :: d.events
  skipped := d.skipped
  decoded := if e.isMeasurement then d.decoded + 1 else d.decoded
  rejected := if e.isMeasurement then d.rejected else d.rejected + 1
  rest := d.rest

/-- What is found in two pieces, the second of which is drained behind the first. -/
def append (d later : Drained) : Drained where
  events := d.events ++ later.events
  skipped := d.skipped + later.skipped
  decoded := d.decoded + later.decoded
  rejected := d.rejected + later.rejected
  rest := later.rest

theorem withSkip_append (d later : Drained) :
    d.withSkip.append later = (d.append later).withSkip := by
  simp only [withSkip, append, mk.injEq, true_and, and_true]
  omega

theorem withFrame_append (d later : Drained) (e : ScanEvent) :
    (d.withFrame e).append later = (d.append later).withFrame e := by
  simp only [withFrame, append, mk.injEq, List.cons_append, true_and, and_true]
  split <;> omega

end Drained

section

variable {v : Variant} {offset : Nat} {bytes : List UInt8}

theorem drain_of_short (h : bytes.length < v.frameLength) :
    drain v offset bytes = ⟨[], 0, 0, 0, bytes⟩ := by
  rw [drain, dif_pos (by rw [List.length_take]; omega)]

theorem drain_of_not_aligned (hlen : v.frameLength ≤ bytes.length)
    (h : ¬ v.IsFrame (bytes.take v.frameLength)) :
    drain v offset bytes = (drain v (offset + 1) (bytes.drop 1)).withSkip := by
  rw [drain, dif_neg (by rw [List.length_take]; omega)]
  cases hf : v.checkFraming (bytes.take v.frameLength) with
  | error e => rfl
  | ok u => exact absurd hf h

theorem drain_of_aligned (hlen : v.frameLength ≤ bytes.length)
    (h : v.IsFrame (bytes.take v.frameLength)) :
    drain v offset bytes =
      (drain v (offset + v.frameLength) (bytes.drop v.frameLength)).withFrame
        (.ofOutcome offset (v.decode (bytes.take v.frameLength))) := by
  rw [drain, dif_neg (by rw [List.length_take]; omega), show v.checkFraming _ = .ok () from h]
  cases hd : v.decode (bytes.take v.frameLength) <;> rfl

end

/-- Induction along the steps of `drain`. -/
@[elab_as_elim]
theorem drain_induction (v : Variant) {motive : Nat → List UInt8 → Prop}
    (short : ∀ offset bytes, bytes.length < v.frameLength → motive offset bytes)
    (skip : ∀ offset bytes, v.frameLength ≤ bytes.length →
      ¬ v.IsFrame (bytes.take v.frameLength) →
      motive (offset + 1) (bytes.drop 1) → motive offset bytes)
    (frame : ∀ offset bytes, v.frameLength ≤ bytes.length →
      v.IsFrame (bytes.take v.frameLength) →
      motive (offset + v.frameLength) (bytes.drop v.frameLength) → motive offset bytes)
    (offset : Nat) (bytes : List UInt8) : motive offset bytes := by
  induction hn : bytes.length using Nat.strongRecOn generalizing offset bytes with
  | ind n ih =>
    have hpos := v.frameLength_pos
    by_cases hlen : bytes.length < v.frameLength
    · exact short offset bytes hlen
    rw [Nat.not_lt] at hlen
    by_cases hf : v.IsFrame (bytes.take v.frameLength)
    · refine frame offset bytes hlen hf (ih _ ?_ _ _ rfl)
      rw [List.length_drop]; omega
    · refine skip offset bytes hlen hf (ih _ ?_ _ _ rfl)
      rw [List.length_drop]; omega

/-! ## The events -/

section

variable {v : Variant} {offset : Nat} {bytes : List UInt8}

theorem events_drain_of_short (h : bytes.length < v.frameLength) :
    (drain v offset bytes).events = [] := by
  rw [drain_of_short h]

theorem events_drain_of_aligned (hlen : v.frameLength ≤ bytes.length)
    (h : v.IsFrame (bytes.take v.frameLength)) :
    (drain v offset bytes).events =
      .ofOutcome offset (v.decode (bytes.take v.frameLength)) ::
        (drain v (offset + v.frameLength) (bytes.drop v.frameLength)).events := by
  rw [drain_of_aligned hlen h]
  rfl

theorem events_drain_append {frame : List UInt8} (hlen : frame.length = v.frameLength)
    (h : v.IsFrame frame) :
    (drain v offset (frame ++ bytes)).events =
      .ofOutcome offset (v.decode frame) :: (drain v (offset + v.frameLength) bytes).events := by
  have htake : (frame ++ bytes).take v.frameLength = frame := by rw [← hlen, List.take_left]
  rw [events_drain_of_aligned (by rw [List.length_append]; omega) (by rwa [htake]), htake,
    ← hlen, List.drop_left]

theorem events_drain_skip (k : Nat)
    (h : ∀ j < k, ¬ v.IsFrame ((bytes.drop j).take v.frameLength)) :
    (drain v offset bytes).events = (drain v (offset + k) (bytes.drop k)).events := by
  induction k with
  | zero => rw [Nat.add_zero, List.drop_zero]
  | succ k ih =>
    rw [ih fun j hj => h j (by omega)]
    by_cases hlen : v.frameLength ≤ (bytes.drop k).length
    · rw [drain_of_not_aligned hlen (h k (by omega)), List.drop_drop, Nat.add_assoc]
      rfl
    · rw [List.length_drop] at hlen
      rw [events_drain_of_short (by rw [List.length_drop]; omega),
        events_drain_of_short (by rw [List.length_drop]; omega)]

end

theorem exists_frame_of_mem_drain {v : Variant} {offset : Nat} {bytes : List UInt8} {e : ScanEvent}
    (he : e ∈ (drain v offset bytes).events) :
    ∃ frame, v.IsFrame frame ∧ e.outcome = v.decode frame := by
  induction offset, bytes using drain_induction v with
  | short offset bytes hlen => simp [events_drain_of_short hlen] at he
  | skip offset bytes hlen hf ih =>
    rw [drain_of_not_aligned hlen hf] at he
    exact ih he
  | frame offset bytes hlen hf ih =>
    rw [events_drain_of_aligned hlen hf] at he
    rcases List.mem_cons.mp he with rfl | he
    · exact ⟨_, hf, ScanEvent.outcome_ofOutcome _ _⟩
    · exact ih he

theorem le_offset_of_mem_drain (v : Variant) (offset : Nat) (bytes : List UInt8) :
    ∀ e ∈ (drain v offset bytes).events, offset ≤ e.offset := by
  induction offset, bytes using drain_induction v with
  | short offset bytes hlen => simp [events_drain_of_short hlen]
  | skip offset bytes hlen hf ih =>
    rw [drain_of_not_aligned hlen hf]
    intro e he
    exact Nat.le_of_succ_le (ih e he)
  | frame offset bytes hlen hf ih =>
    rw [events_drain_of_aligned hlen hf]
    intro e he
    rcases List.mem_cons.mp he with rfl | he
    · exact Nat.le_of_eq (ScanEvent.offset_ofOutcome offset _).symm
    · exact Nat.le_of_add_right_le (ih e he)

theorem offset_add_le_of_mem_drain {v : Variant} {offset : Nat} {bytes : List UInt8} {e : ScanEvent}
    (he : e ∈ (drain v offset bytes).events) :
    e.offset + v.frameLength ≤ offset + bytes.length := by
  induction offset, bytes using drain_induction v with
  | short offset bytes hlen => simp [events_drain_of_short hlen] at he
  | skip offset bytes hlen hf ih =>
    rw [drain_of_not_aligned hlen hf] at he
    have hend := ih he
    have hpos := v.frameLength_pos
    rw [List.length_drop] at hend
    omega
  | frame offset bytes hlen hf ih =>
    rw [events_drain_of_aligned hlen hf] at he
    rcases List.mem_cons.mp he with rfl | he
    · rw [ScanEvent.offset_ofOutcome]
      omega
    · have hend := ih he
      rw [List.length_drop] at hend
      omega

/-- **Frames never overlap.** -/
theorem pairwise_offset_drain (v : Variant) (offset : Nat) (bytes : List UInt8) :
    (drain v offset bytes).events.Pairwise fun e e' => e.offset + v.frameLength ≤ e'.offset := by
  induction offset, bytes using drain_induction v with
  | short offset bytes hlen => simp [events_drain_of_short hlen]
  | skip offset bytes hlen hf ih => rwa [drain_of_not_aligned hlen hf]
  | frame offset bytes hlen hf ih =>
    rw [events_drain_of_aligned hlen hf, List.pairwise_cons]
    refine ⟨fun e he => ?_, ih⟩
    rw [ScanEvent.offset_ofOutcome]
    exact le_offset_of_mem_drain v _ _ e he

/-! ## The bytes left over -/

section

variable (v : Variant) (offset : Nat) (bytes : List UInt8)

theorem length_rest_drain_le : (drain v offset bytes).rest.length ≤ bytes.length := by
  induction offset, bytes using drain_induction v with
  | short offset bytes hlen => exact Nat.le_of_eq (by rw [drain_of_short hlen])
  | skip offset bytes hlen hf ih =>
    rw [drain_of_not_aligned hlen hf]
    exact Nat.le_trans ih (by rw [List.length_drop]; omega)
  | frame offset bytes hlen hf ih =>
    rw [drain_of_aligned hlen hf]
    exact Nat.le_trans ih (by rw [List.length_drop]; omega)

theorem length_rest_drain_lt : (drain v offset bytes).rest.length < v.frameLength := by
  induction offset, bytes using drain_induction v with
  | short offset bytes hlen => rwa [drain_of_short hlen]
  | skip offset bytes hlen hf ih => rwa [drain_of_not_aligned hlen hf]
  | frame offset bytes hlen hf ih => rwa [drain_of_aligned hlen hf]

end

/-! ## Draining in two pieces -/

/-- **Draining two lists in turn is draining them at once**: the second is drained behind the bytes
that the first leaves over. -/
theorem drain_append (v : Variant) (offset : Nat) (a b : List UInt8) :
    drain v offset (a ++ b) = (drain v offset a).append
      (drain v (offset + (a.length - (drain v offset a).rest.length))
        ((drain v offset a).rest ++ b)) := by
  -- along the steps of the first drain; appending bytes changes none of them
  induction offset, a using drain_induction v with
  | short offset a hlen => simp [drain_of_short hlen, Drained.append]
  | skip offset a hlen hf ih =>
    have hrest := length_rest_drain_le v (offset + 1) (a.drop 1)
    have hpos := v.frameLength_pos
    rw [List.length_drop] at hrest ih
    have hoff : offset + 1 + (a.length - 1 - (drain v (offset + 1) (a.drop 1)).rest.length) =
        offset + (a.length - (drain v (offset + 1) (a.drop 1)).rest.length) := by omega
    rw [drain_of_not_aligned hlen hf, Drained.withSkip_append,
      drain_of_not_aligned (by rw [List.length_append]; omega)
        (by rwa [List.take_append_of_le_length hlen]),
      List.drop_append_of_le_length (by omega), ih, hoff]
    rfl
  | frame offset a hlen hf ih =>
    have hrest := length_rest_drain_le v (offset + v.frameLength) (a.drop v.frameLength)
    rw [List.length_drop] at hrest ih
    have hoff : offset + v.frameLength + (a.length - v.frameLength -
          (drain v (offset + v.frameLength) (a.drop v.frameLength)).rest.length) =
        offset + (a.length -
          (drain v (offset + v.frameLength) (a.drop v.frameLength)).rest.length) := by omega
    rw [drain_of_aligned hlen hf, Drained.withFrame_append,
      drain_of_aligned (by rw [List.length_append]; omega)
        (by rwa [List.take_append_of_le_length hlen]),
      List.take_append_of_le_length hlen, List.drop_append_of_le_length hlen, ih, hoff]
    rfl

end Multimeter
