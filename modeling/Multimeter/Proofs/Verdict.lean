import Multimeter.Proofs.Es519xx.Stages
import Multimeter.Proofs.Scanner.Feed

/-!
# Which check rejects a frame

Three functions examine a frame, each more than the one before: its framing, its annunciators, its
value. A frame that one of them rejects is rejected by the later ones for the same reason, and the
class of the reason tells how far the frame got.

* `RejectionClass.ofIdentifier`: the class that the first part of an identifier names.
* `Variant.Verdict`: what the three functions say of a frame; `Variant.verdict`: there is no other case.
* `Scanner.class_of_rejected_mem_feed`: a scanner rejects no frame for its framing.
* **`Variant.checks_agree`**: the three functions agree.
-/

namespace Multimeter

/-! ## Identifiers -/

/-- The class that the first part of an identifier names. -/
def RejectionClass.ofIdentifier (id : String) : RejectionClass :=
  if "DMM-FRAME-".toList.isPrefixOf id.toList then framing
  else if "DMM-FLAGS-".toList.isPrefixOf id.toList then conflict
  else decode

theorem RejectionReason.toClass_eq_ofIdentifier (r : RejectionReason) :
    r.toClass = .ofIdentifier r.id := by
  cases r <;> decide

/-! ## The verdict on a frame -/

namespace Variant

/-- The class of what is only found while decoding: segment packets have no annunciator check
of their own, and digit packets no other reason left. -/
def lateClass (v : Variant) : RejectionClass :=
  match v.profile.family with
  | .bm25x => .conflict
  | .es519xx => .decode

/-- What the three functions say of a frame. -/
inductive Verdict (v : Variant) (frame : List UInt8) : Prop where
  | misaligned (e : PacketError) (framing : v.checkFraming frame = .error e)
      (validated : v.validate frame = .error e) (decoded : v.decode frame = .error e)
      (class_eq : e.toClass = .framing)
  | contradictory (e : PacketError) (framing : v.checkFraming frame = .ok ())
      (validated : v.validate frame = .error e) (decoded : v.decode frame = .error e)
      (class_eq : e.toClass = .conflict)
  | valid (framing : v.checkFraming frame = .ok ()) (validated : v.validate frame = .ok ())
      (decoded : FailsOnly (·.toClass = v.lateClass) (v.decode frame))

end Variant

theorem Bm25x.Packet.failsOnly_checkFraming (p : Packet) :
    FailsOnly (·.reason.toClass = .framing) p.checkFraming := by
  unfold checkFraming
  split_ifs
  · exact failsOnly_error rfl
  · exact failsOnly_error rfl
  · split
    · exact failsOnly_error rfl
    · exact failsOnly_ok ()

theorem Bm25x.Packet.failsOnly_checkLamps (p : Packet) :
    FailsOnly (·.reason.toClass = .conflict) p.checkLamps := by
  unfold checkLamps
  split_ifs
  · exact failsOnly_error rfl
  · exact failsOnly_error rfl
  · exact failsOnly_error rfl
  · exact failsOnly_ok ()

namespace Variant

variable {v : Variant} (frame : List UInt8)

theorem verdict_bm25x (hv : v.profile.family = .bm25x) : v.Verdict frame := by
  have hlate : v.lateClass = .conflict := by simp only [lateClass, hv]
  have hframing := checkFraming_of_bm25x frame hv
  have hvalidate := validate_of_bm25x frame hv
  have hdecode := decode_of_bm25x frame hv
  cases hcheck : Bm25x.Packet.checkFraming ⟨frame⟩ with
  | error e =>
    have hdecoded : Bm25x.Packet.decode ⟨frame⟩ = .error e := bind_eq_error hcheck
    rw [hcheck] at hframing hvalidate
    rw [hdecoded] at hdecode
    exact .misaligned (.bm25x e) hframing hvalidate hdecode
      (Bm25x.Packet.failsOnly_checkFraming ⟨frame⟩ e hcheck)
  | ok u =>
    have hlamps := Bm25x.Packet.failsOnly_checkLamps ⟨frame⟩
    rw [hcheck] at hframing hvalidate
    refine .valid hframing hvalidate ?_
    rw [hdecode, hlate, Bm25x.Packet.decode, hcheck]
    exact FailsOnly.mapError (hlamps.bind fun _ _ => failsOnly_ok _)

theorem packetSize_es519xx (hv : v.profile.family = .es519xx) :
    v.profile.packetSize = 11 ∨ v.profile.packetSize = 14 := by
  cases v with
  | bm25x => exact absurd hv (by decide)
  | fast14 | fast14SelectableFilter => exact Or.inr rfl
  | slow11 | slow11Alternate | fast11FiveDigits | fast11Clamp | fast11 => exact Or.inl rfl

theorem verdict_es519xx (hv : v.profile.family = .es519xx) : v.Verdict frame := by
  have hlate : v.lateClass = .decode := by simp only [lateClass, hv]
  have hframing := checkFraming_of_es519xx frame hv
  have hvalidate := validate_of_es519xx frame hv
  have hdecode := decode_of_es519xx frame hv
  cases hcheck : Es519xx.checkFraming v.profile frame with
  | error e =>
    have hannunciators : Es519xx.decodeAnnunciators v.profile frame = .error e :=
      bind_eq_error hcheck
    have hdecoded : Es519xx.decode v.profile frame = .error e := bind_eq_error hannunciators
    rw [hcheck] at hframing
    rw [hannunciators] at hvalidate
    rw [hdecoded] at hdecode
    exact .misaligned (.es519xx e) hframing hvalidate hdecode
      (Es519xx.Packet.failsOnly_checkFraming _ e hcheck)
  | ok u =>
    have hwhole : Es519xx.Packet.Whole ⟨frame, v.profile.packetSize⟩ :=
      Es519xx.Packet.whole_of_checkFraming (packetSize_es519xx hv) hcheck
    -- validating and decoding share the flags, so they differ only behind them
    obtain ⟨a, ha⟩ := Es519xx.Annunciators.exists_ofPacket hwhole rfl
    have hannunciators : Es519xx.decodeAnnunciators v.profile frame =
        ((a.corrected v.profile).check >>= fun _ => .ok (a.corrected v.profile)) := by
      rw [Es519xx.decodeAnnunciators, hcheck, ha]
      rfl
    rw [hcheck] at hframing
    cases hconsistent : (a.corrected v.profile).check with
    | error e =>
      rw [bind_eq_error hconsistent] at hannunciators
      have hdecoded : Es519xx.decode v.profile frame = .error e := bind_eq_error hannunciators
      rw [hannunciators] at hvalidate
      rw [hdecoded] at hdecode
      exact .contradictory (.es519xx e) hframing hvalidate hdecode
        (Es519xx.Annunciators.failsOnly_check _ e hconsistent)
    | ok u =>
      rw [hconsistent] at hannunciators
      rw [hannunciators] at hvalidate
      refine .valid hframing hvalidate ?_
      rw [hdecode, hlate, Es519xx.decode, hannunciators]
      refine FailsOnly.mapError ((Es519xx.failsOnly_signedDisplay hwhole _).bind fun shown _ => ?_)
      exact (Es519xx.failsOnly_exponent hwhole _ _).bind fun e _ => failsOnly_ok _

/-- **There is no other verdict.** -/
theorem verdict (v : Variant) (frame : List UInt8) : v.Verdict frame := by
  cases hv : v.profile.family with
  | bm25x => exact verdict_bm25x frame hv
  | es519xx => exact verdict_es519xx frame hv

theorem class_of_decode_isFrame {v : Variant} {frame : List UInt8} (h : v.IsFrame frame) :
    FailsOnly (fun e => e.toClass = .conflict ∨ e.toClass = .decode) (v.decode frame) := by
  intro e he
  cases v.verdict frame with
  | misaligned e' framing => exact nomatch framing.symm.trans h
  | contradictory e' _ _ decoded class_eq =>
    obtain rfl := Except.error.inj (decoded.symm.trans he)
    exact Or.inl class_eq
  | valid _ _ decoded =>
    have hlate : v.lateClass = .conflict ∨ v.lateClass = .decode := by cases v <;> decide
    rwa [← decoded e he] at hlate

end Variant

/-! ## Scanners -/

namespace Scanner

/-- An event of a scanner stands for an aligned frame and carries what decoding it gives. -/
theorem exists_frame_of_mem_feed {s : Scanner} {chunks : List (List UInt8)} {e : ScanEvent}
    (he : e ∈ (s.feed chunks).2) :
    ∃ frame, s.variant.IsFrame frame ∧ e.outcome = s.variant.decode frame := by
  induction chunks generalizing s with
  | nil => exact absurd he List.not_mem_nil
  | cons chunk rest ih =>
    rw [feed] at he
    rcases List.mem_append.mp he with he | he
    · exact exists_frame_of_mem_drain he
    · have hlater := ih he
      exact hlater

/-- **A scanner rejects no frame for its framing.** -/
theorem class_of_rejected_mem_feed {s : Scanner} {chunks : List (List UInt8)} {offset : Nat}
    {e : PacketError} (he : .rejected offset e ∈ (s.feed chunks).2) :
    e.toClass = .conflict ∨ e.toClass = .decode := by
  obtain ⟨frame, hframe, houtcome⟩ := exists_frame_of_mem_feed he
  exact Variant.class_of_decode_isFrame hframe e houtcome.symm

end Scanner

namespace Variant

/-- **The three functions that examine a frame agree.** A frame that one of them rejects is rejected
by those that examine more, for the same reason; the class of the reason tells which of them is the
first; and a scanner only meets the reasons behind framing. -/
theorem checks_agree :
    (∀ (v : Variant) (frame : List UInt8),
      (∀ e, v.checkFraming frame = .error e →
        v.validate frame = .error e ∧ v.decode frame = .error e ∧ e.toClass = .framing) ∧
      (v.checkFraming frame = .ok () → ∀ e,
        v.validate frame = .error e ∨ v.decode frame = .error e → e.toClass ≠ .framing) ∧
      (∀ e, v.validate frame = .error e → v.decode frame = .error e) ∧
      (v.profile.family = .es519xx →
        ((∃ e, v.decode frame = .error e ∧ e.toClass = .conflict) ↔
          v.checkFraming frame = .ok () ∧ ∃ e, v.validate frame = .error e) ∧
        ((∃ e, v.decode frame = .error e ∧ e.toClass = .decode) ↔
          v.validate frame = .ok () ∧ ∃ e, v.decode frame = .error e)) ∧
      (v.profile.family = .bm25x →
        v.validate frame = v.checkFraming frame ∧
          ∀ e, v.decode frame = .error e → e.toClass ≠ .decode)) ∧
    (∀ e : PacketError, e.toClass = .ofIdentifier e.reason.id) ∧
    (∀ (s : Scanner) (chunks : List (List UInt8)) (offset : Nat) (e : PacketError),
      .rejected offset e ∈ (s.feed chunks).2 → e.toClass = .conflict ∨ e.toClass = .decode) := by
  refine ⟨fun v frame => ?_, fun e => e.reason.toClass_eq_ofIdentifier,
    fun s chunks offset e he => Scanner.class_of_rejected_mem_feed he⟩
  have hsame (hv : v.profile.family = .bm25x) : v.validate frame = v.checkFraming frame := by
    rw [validate_of_bm25x frame hv, checkFraming_of_bm25x frame hv]
  cases v.verdict frame with
  | misaligned e framing validated decoded class_eq =>
    simp [framing, validated, decoded, class_eq]
  | contradictory e framing validated decoded class_eq =>
    have hfamily : v.profile.family ≠ .bm25x := fun hv => by
      rw [hsame hv, framing] at validated
      exact nomatch validated
    simp [framing, validated, decoded, class_eq, hfamily]
  | valid framing validated decoded =>
    refine ⟨fun e he => (nomatch framing.symm.trans he), fun _ e he => ?_,
      fun e he => (nomatch validated.symm.trans he), fun hv => ?_,
      fun hv => ⟨hsame hv, fun e he => ?_⟩⟩
    · have hlate : v.lateClass ≠ .framing := by cases v <;> decide
      rcases he with he | he
      · exact nomatch validated.symm.trans he
      · rwa [decoded e he]
    · have hlate : v.lateClass = .decode := by simp only [lateClass, hv]
      rw [hlate] at decoded
      constructor
      · constructor
        · rintro ⟨e, he, hclass⟩
          rw [decoded e he] at hclass
          exact nomatch hclass
        · rintro ⟨_, e, he⟩
          exact nomatch validated.symm.trans he
      · exact ⟨fun ⟨e, he, _⟩ => ⟨validated, e, he⟩, fun ⟨_, e, he⟩ => ⟨e, he, decoded e he⟩⟩
    · have hlate : v.lateClass = .conflict := by simp only [lateClass, hv]
      rw [decoded e he, hlate]
      decide

/-- A packet that breaks off, one with AC and DC lit, one with a stray character on the display and a
segment packet with AC and DC lit. -/
theorem checks_agree_four_rejections :
    let broken : List UInt8 := [0x31, 0x31]
    let conflicting : List UInt8 :=
      [0x31, 0x31, 0x32, 0x33, 0x34, 0x35, 0x3b, 0x30, 0x30, 0x30, 0x3e, 0x30, 0x0d, 0x0a]
    let unreadable : List UInt8 :=
      [0x31, 0x31, 0x32, 0x33, 0x2d, 0x35, 0x3b, 0x30, 0x30, 0x30, 0x3a, 0x30, 0x0d, 0x0a]
    let segments : List UInt8 := [0x02, 0x16, 0x20, 0x30, 0x4a, 0x5a, 0x6d, 0x79, 0x8f, 0x94, 0xae,
      0xb0, 0xc0, 0xd0, 0xe4]
    let short : PacketError := .es519xx (.invalidLength 14 2)
    let conflict : PacketError := .es519xx .acAndDc
    (fast14.checkFraming broken = .error short ∧ fast14.decode broken = .error short) ∧
    (fast14.checkFraming conflicting = .ok () ∧ fast14.validate conflicting = .error conflict ∧
      fast14.decode conflicting = .error conflict ∧ conflict.toClass ≠ .framing) ∧
    (∃ e, fast14.decode unreadable = .error e ∧ e.toClass = .decode) ∧
    (bm25x.validate segments = bm25x.checkFraming segments ∧
      bm25x.decode segments = .error (.bm25x .acAndDc) ∧
      (PacketError.bm25x .acAndDc).toClass ≠ .decode) ∧
    (.rejected 2 conflict ∈ ((Scanner.fresh .fast14 false).feed [broken, conflicting]).2 ∧
      (conflict.toClass = .conflict ∨ conflict.toClass = .decode)) := by
  intro broken conflicting unreadable segments short conflict
  obtain ⟨hagree, _, hscanner⟩ := checks_agree
  have hshort : fast14.checkFraming broken = .error short := by decide +kernel
  have hframing : fast14.checkFraming conflicting = .ok () := by decide +kernel
  have hvalidate : fast14.validate conflicting = .error conflict := by decide +kernel
  have hvalid : fast14.validate unreadable = .ok () := by decide +kernel
  have hdigit : fast14.decode unreadable = .error (.es519xx (.invalidDigit 4 0x2d)) := by
    decide +kernel
  have hsegments : bm25x.decode segments = .error (.bm25x .acAndDc) := by decide +kernel
  have hrejected : .rejected 2 conflict ∈
      ((Scanner.fresh .fast14 false).feed [broken, conflicting]).2 := by decide +kernel
  obtain ⟨hbroken, _⟩ := hagree fast14 broken
  obtain ⟨_, haligned, hlater, _⟩ := hagree fast14 conflicting
  obtain ⟨_, _, _, hclass, _⟩ := hagree fast14 unreadable
  obtain ⟨_, _, _, _, hbm25x⟩ := hagree bm25x segments
  exact ⟨⟨hshort, (hbroken short hshort).2.1⟩,
    ⟨hframing, hvalidate, hlater conflict hvalidate,
      haligned hframing conflict (Or.inl hvalidate)⟩,
    (hclass rfl).2.mpr ⟨hvalid, _, hdigit⟩,
    ⟨(hbm25x rfl).1, hsegments, (hbm25x rfl).2 _ hsegments⟩,
    hrejected, hscanner _ _ _ _ hrejected⟩

end Variant

end Multimeter
