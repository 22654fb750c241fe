import FieldBus.Proofs.Attribution
import FieldBus.Proofs.Detection
import FieldBus.Proofs.Recovery

/-!
# Where check bytes lie

A receiver that finds its way back into the stream goes by single bytes: an STX or an EOT opens a
frame wherever it stands, and an ETX ends what is skipped.  In the place of the check byte any byte
could stand, as far as the layout goes.  That the check byte of a body is never one of these bytes
is a matter of the layout of the body.  The number of digits in front of the sign is five or none,
so the upper half of the exclusive or is 3 without a sign, and 1 or 2 with one
(`Layout.range_parity`).

* `Layout` — the layouts of a body.  The digits are any digits, with zeros in front or without.
* `CheckMode.Allows` — the range of a check byte, and which bytes of the structure it rules out.
* **`check_byte_is_no_structure`** — what is sent and what is accepted stays in that range.  A NAK
  is in the range of the plain check byte and does come up.
-/

namespace FieldBus

/-! ## Bodies by their layout -/

/-- The layouts of a body, whatever its digits denote. -/
inductive Layout : Bytes → Prop
  | read {fields : Bytes} (hfields : Decimal.AllDigits fields) (hlength : fields.length = 5) :
      Layout (fields ++ [Byte.etx])
  | write {fields digits : Bytes} {sign : UInt8} (hfields : Decimal.AllDigits fields)
      (hlength : fields.length = 5) (hsign : Byte.isSign sign = true)
      (hdigits : Decimal.AllDigits digits) (hpos : 1 ≤ digits.length) (hle : digits.length ≤ 5) :
      Layout (fields ++ sign :: digits ++ [Byte.etx])
  | value {digits : Bytes} {sign : UInt8} (hsign : Byte.isSign sign = true)
      (hdigits : Decimal.AllDigits digits) (hpos : 1 ≤ digits.length) (hle : digits.length ≤ 5) :
      Layout (sign :: digits ++ [Byte.etx])

namespace Frame

variable {frame : Frame} {traffic : Traffic} {mode : CheckMode} {body word : Bytes}

lemma Body.layout (h : Body frame body) : Layout body := by
  cases h with
  | read ha hp => exact .read (ha.allDigits_fields hp) (ha.length_fields hp)
  | write ha hp hv =>
      exact .write (ha.allDigits_fields hp) (ha.length_fields hp) hv.isSign hv.allDigits
        hv.length_pos hv.length_le
  | value hv => exact .value hv.isSign hv.allDigits hv.length_pos hv.length_le

/-- The words of a frame with a check byte end with it. -/
lemma IsChecked.exists_body_of_wireWord (h : frame.IsChecked)
    (hword : WireWord traffic mode frame word) :
    ∃ body, Body frame body ∧ word = checked mode body := by
  cases hword with
  | checked hbody => exact ⟨_, hbody, rfl⟩
  | _ => cases h

end Frame

/-! ## The range -/

namespace Byte

variable {b : UInt8}

lemma range_of_high (h : high b = 1 ∨ high b = 2 ∨ high b = 3) : 0x10 ≤ b ∧ b ≤ 0x3F := by
  simp only [← UInt8.toNat_inj, toNat_high] at h
  simp only [UInt8.le_iff_toNat_le]
  show 16 ≤ b.toNat ∧ b.toNat ≤ 63
  change b.toNat / 16 = 1 ∨ b.toNat / 16 = 2 ∨ b.toNat / 16 = 3 at h
  omega

lemma lt_of_isControl (h : isControl b = true) : b < 0x20 := by
  simp only [isControl, Bool.or_eq_true, beq_iff_eq] at h
  rcases h with ((((rfl | rfl) | rfl) | rfl) | rfl) | rfl <;> decide

end Byte

/-- The least check byte that a body can have. -/
def CheckMode.low : CheckMode → UInt8
  | plain => 0x10
  | printable => 0x20

/-- The range of the check bytes.  No byte that opens or ends a part of a frame is in it, and no
control byte at all if it is that of the printable ones. -/
structure CheckMode.Allows (mode : CheckMode) (b : UInt8) : Prop where
  low_le : mode.low ≤ b
  le_high : b ≤ 0x3F
  ne_stx : b ≠ Byte.stx
  ne_etx : b ≠ Byte.etx
  ne_eot : b ≠ Byte.eot
  ne_enq : b ≠ Byte.enq
  ne_ack : b ≠ Byte.ack
  not_control : mode = .printable → Byte.isControl b = false

namespace CheckMode

variable {mode : CheckMode} {b : UInt8}

lemma allows_of_range (hlow : mode.low ≤ b) (hhigh : b ≤ 0x3F) : mode.Allows b := by
  have hfloor : 0x10 ≤ b := by
    cases mode with
    | plain => exact hlow
    | printable => exact UInt8.le_trans (by decide) hlow
  have hne : ∀ c : UInt8, c < 0x10 → b ≠ c := by
    rintro c hc rfl
    exact UInt8.not_lt.mpr hfloor hc
  refine ⟨hlow, hhigh, hne _ (by decide), hne _ (by decide), hne _ (by decide), hne _ (by decide),
    hne _ (by decide), ?_⟩
  rintro rfl
  rw [Bool.eq_false_iff]
  intro hcontrol
  exact UInt8.not_lt.mpr hlow (Byte.lt_of_isControl hcontrol)

/-- Moving an exclusive or up does not take it out of the range. -/
lemma allows_finish (mode : CheckMode) (h : 0x10 ≤ b ∧ b ≤ 0x3F) :
    mode.Allows (mode.finish b) := by
  cases mode with
  | plain => exact allows_of_range h.1 h.2
  | printable =>
      refine allows_of_range (le_finish_printable b) ?_
      have hhigh : b.toNat ≤ 63 := UInt8.le_iff_toNat_le.mp h.2
      rw [UInt8.le_iff_toNat_le, toNat_finish_printable]
      show _ ≤ 63
      split_ifs <;> omega

end CheckMode

/-- **The exclusive or of a body lies between 0x10 and 0x3F.** -/
lemma Layout.range_parity {body : Bytes} (h : Layout body) :
    0x10 ≤ parity body ∧ parity body ≤ 0x3F := by
  apply Byte.range_of_high
  cases h with
  | read hfields hlength => exact .inr (.inr (high_parity_of_odd hfields (by rw [hlength])))
  | write hfields _ hsign hdigits _ _ =>
      exact (high_parity_of_sign hfields hsign hdigits).imp_right .inl
  | value hsign hdigits _ _ =>
      exact (high_parity_of_sign Decimal.allDigits_nil hsign hdigits).imp_right .inl

lemma Layout.allows_checkByte {body : Bytes} (h : Layout body) (mode : CheckMode) :
    mode.Allows (checkByte mode body) :=
  mode.allows_finish h.range_parity

/-! ## What is accepted -/

namespace Receiver

variable {traffic : Traffic} {mode : CheckMode} {happenings : List (Nat × Happening)}
  {past bytes : Bytes} {receiver : Receiver} {frame : Frame}

/-- A frame with a check byte is reported at a byte that passes for the check byte of the body in
front of it. -/
lemma Follows.exists_check (h : receiver.Follows traffic mode past)
    (hreport : (receiver.feed bytes).report? = some (.frame frame)) (hframe : frame.IsChecked) :
    ∃ front b rest body, bytes = front ++ b :: rest ∧
      (receiver.feed bytes).taken = front.length + 1 ∧ Byte.stx :: body <:+ past ++ front ∧
      Layout body ∧ checks mode body b = true := by
  obtain ⟨front, b, rest, phase, seen, hbytes, -, hseen, hholds, hlast⟩ :=
    h.exists_holds_of_report hreport
  have hkept := Phase.kept_step mode b hholds
  rcases hlast with ⟨next, hstep, hfeed⟩ | ⟨defect, hdefect, -⟩
  · rw [hstep] at hkept
    cases hkept with
    | frame hsuffix hword =>
        obtain ⟨body, hbody, rfl⟩ := hframe.exists_body_of_wireWord hword
        obtain ⟨lead, hlead⟩ :=
          hsuffix.trans (List.suffix_append_self_iff.mpr hseen : seen ++ [b] <:+ _)
        rw [Frame.checked, ← List.append_assoc] at hlead
        obtain ⟨hfront, hb⟩ := List.append_inj' hlead rfl
        refine ⟨front, b, rest, body, hbytes, by rw [hfeed], ⟨lead, hfront⟩, hbody.layout, ?_⟩
        rw [checks, beq_iff_eq]
        exact (List.cons.inj hb).1
  · cases hdefect

end Receiver

/-- **A check byte is never taken for the structure of a frame.**  The check byte of every body lies
in the range of its mode, and so do the last byte of every frame that is sent with one and the byte
at which a receiver, whatever use it is in, accepts such a frame.  A plain one can be a NAK. -/
theorem check_byte_is_no_structure (mode : CheckMode) :
    (∀ body, Layout body → mode.Allows (checkByte mode body)) ∧
      (∀ frame : Frame, frame.IsChecked →
        ∃ b, (frame.encode mode).bytes.getLast? = some b ∧ mode.Allows b) ∧
      (∀ (traffic : Traffic) (happenings : List (Nat × Receiver.Happening)) (past : Bytes)
        (receiver : Receiver), Receiver.Chronicle traffic mode happenings past receiver →
        ∀ bytes frame, (receiver.feed bytes).report? = some (.frame frame) → frame.IsChecked →
        ∃ front b rest body, bytes = front ++ b :: rest ∧
          (receiver.feed bytes).taken = front.length + 1 ∧ Byte.stx :: body <:+ past ++ front ∧
          Layout body ∧ checks mode body b = true ∧ mode.Allows b) ∧
      ∃ body, Layout body ∧ checkByte .plain body = Byte.nak := by
  refine ⟨fun body h => h.allows_checkByte mode, fun frame hframe => ?_, ?_, ?_⟩
  · obtain ⟨body, hbody, hencode⟩ := hframe.exists_body mode
    refine ⟨checkByte mode body, ?_, hbody.layout.allows_checkByte mode⟩
    rw [hencode, Frame.checked, List.getLast?_concat]
  · intro traffic happenings past receiver h bytes frame hreport hframe
    obtain ⟨front, b, rest, body, hbytes, htaken, hbody, hlayout, hchecks⟩ :=
      h.follows.exists_check hreport hframe
    refine ⟨front, b, rest, body, hbytes, htaken, hbody, hlayout, hchecks, ?_⟩
    rw [← beq_iff_eq.mp hchecks]
    exact hlayout.allows_checkByte mode
  · -- the digits 8, 5 and 0 behind a plus
    exact ⟨[Byte.plus, 0x38, 0x35, 0x30] ++ [Byte.etx],
      .value rfl (by simp [Decimal.AllDigits]; decide) (by decide) (by decide), by decide⟩

/-- The value 850, whose check byte is a NAK, in two calls. -/
theorem check_byte_is_no_structure_of_nak :
    let receiver := ((Receiver.start .replies .plain).feed [0x02, 0x2B, 0x38]).receiver
    let value : Value := ⟨850, by decide, by decide⟩
    Receiver.Chronicle .replies .plain [] [0x02, 0x2B, 0x38] receiver ∧
      (receiver.feed [0x35, 0x30, 0x03, 0x15]).report? = some (.frame (.reply (.value value))) ∧
      ∃ front b rest, ([0x35, 0x30, 0x03, 0x15] : Bytes) = front ++ b :: rest ∧
        4 = front.length + 1 ∧ CheckMode.plain.Allows b := by
  intro receiver value
  have hchronicle : Receiver.Chronicle .replies .plain [] [0x02, 0x2B, 0x38] receiver :=
    .feed [0x02, 0x2B, 0x38] .start
  have hreport : (receiver.feed [0x35, 0x30, 0x03, 0x15]).report?
      = some (.frame (.reply (.value value))) := by decide
  have htaken : (receiver.feed [0x35, 0x30, 0x03, 0x15]).taken = 4 := by decide
  obtain ⟨front, b, rest, -, hbytes, hfront, -, -, -, hallows⟩ :=
    (check_byte_is_no_structure .plain).2.2.1 _ _ _ _ hchronicle _ _ hreport trivial
  exact ⟨hchronicle, hreport, front, b, rest, hbytes, htaken.symm.trans hfront, hallows⟩

end FieldBus
