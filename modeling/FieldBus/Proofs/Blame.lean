import FieldBus.Proofs.Held

/-!
# What a broken frame is blamed on

A byte breaks a frame for one reason only, which is a matter of the place that it has in the frame
and of the byte itself (**`Phase.blames_step`**).  The check byte that does not match is a matter of
its own, and so is the sixth digit of a value.  Everywhere else a control byte is out of place and
any other byte is no digit.

The range checks that stand behind the last digit of a field have faults of their own, and so has
the block that a body must fit into.  None of these can come up: what a receiver holds of a frame is
short enough, and its digits are a number in range.  So of the eleven faults only four break a frame
(`Receiver.Follows.breaksFrame_of_defect`).
-/

namespace FieldBus

/-- Whether this is a fault of frames.  The others are faults of numbers, of links and of
exchanges. -/
def Fault.breaksFrame : Fault → Bool
  | framing => true
  | checksum => true
  | invalidDigit => true
  | overflow => true
  | _ => false

/-- The defect of the frame that a step breaks. -/
def Step.defect? : Step → Option Defect
  | report (.defect defect) _ => some defect
  | leave defect => some defect
  | _ => none

/-- If the step breaks a frame, then with this fault. -/
def Step.Blames (fault : Fault) (step : Step) : Prop :=
  ∀ defect, step.defect? = some defect → defect.fault = fault

/-- The fault of a byte for which the layout has no place. -/
def Byte.misfit (b : UInt8) : Fault := if isControl b then .framing else .invalidDigit

lemma Byte.breaksFrame_misfit (b : UInt8) : (misfit b).breaksFrame = true := by
  rw [misfit]
  split_ifs <;> rfl

lemma Byte.misfit_ne (b : UInt8) : misfit b ≠ .checksum ∧ misfit b ≠ .overflow := by
  rw [misfit]
  split_ifs <;> decide

namespace Phase

/-- The fault of the frame that a byte breaks in this phase. -/
def blame : Phase → UInt8 → Fault
  | checksum .., _ => .checksum
  | value _ _ _ field, b =>
    if field.count = 5 ∧ Byte.isDigit b = true then .overflow else Byte.misfit b
  | _, b => Byte.misfit b

lemma breaksFrame_blame (phase : Phase) (b : UInt8) : (phase.blame b).breaksFrame = true := by
  cases phase with
  | checksum body frame => rfl
  | value body target negative field =>
      rw [blame]
      split_ifs
      · rfl
      · exact Byte.breaksFrame_misfit b
  | _ => exact Byte.breaksFrame_misfit b

variable {traffic : Traffic} {mode : CheckMode} {phase next : Phase} {seen body : Bytes} {b : UInt8}
  {fault : Fault}

/-! ## The parts of a step -/

lemma blames_silent : (Step.silent next).Blames fault := by
  intro defect hdefect
  cases hdefect

lemma blames_frame {frame : Frame} : (Step.report (.frame frame) next).Blames fault := by
  intro defect hdefect
  cases hdefect

lemma defect?_begin : (begin traffic b).defect? = none := by
  rw [begin.eq_def]
  split_ifs
  · rfl
  · cases traffic <;> rfl
  · rfl
  · rfl
  · rfl

lemma blames_begin : (begin traffic b).Blames fault := by
  intro defect hdefect
  cases defect?_begin.symm.trans hdefect

lemma blames_extend {goal : Bytes → Phase} (hroom : body.length < 14) :
    (phase.extend body b goal).Blames fault := by
  rw [extend_of_lt hroom]
  exact blames_silent

lemma blames_fail : (phase.fail fault b).Blames fault := by
  intro defect hdefect
  rw [fail] at hdefect
  split_ifs at hdefect <;> cases hdefect <;> rfl

lemma blames_reject : (phase.reject b).Blames (Byte.misfit b) := blames_fail

/-! ## One step for each phase that carries numbers -/

lemma blames_address {a : Bytes} (ha : Decimal.AllDigits a) (hlength : a.length < 2) :
    (step traffic mode (.address a (.ofDigits a)) b).Blames (Byte.misfit b) := by
  rw [step]
  split_ifs with hsign
  · exact blames_extend (by omega)
  · by_cases hb : Byte.isDigit b = true
    · rw [Byte.digit_of_isDigit hb]
      dsimp only
      rw [Numeral.push_ofDigits]
      split_ifs with hcount
      · -- two digits are always in range
        obtain ⟨station, hof, -⟩ := Station.ofInt_number hcount (Decimal.allDigits_concat ha hb)
        rw [Numeral.value_ofDigits, hof, complete]
        exact blames_extend (by omega)
      · exact blames_extend (by omega)
    · rw [Byte.digit_of_not_isDigit (by simpa using hb)]
      exact blames_reject

lemma blames_parameter {station : Station} {a p : Bytes} (ha : station.Spelling a)
    (hp : Decimal.AllDigits p) (hlength : p.length < 3) :
    (step traffic mode (.parameter (a ++ p) station (.ofDigits p)) b).Blames (Byte.misfit b) := by
  have hroom : (a ++ p).length < 14 := by
    rw [List.length_append, ha.length_eq]
    omega
  rw [step]
  by_cases hb : Byte.isDigit b = true
  · rw [Byte.digit_of_isDigit hb]
    dsimp only
    rw [Numeral.push_ofDigits]
    split_ifs with hcount
    · -- three digits are always in range
      obtain ⟨parameter, hof, -⟩ := Parameter.ofInt_number hcount (Decimal.allDigits_concat hp hb)
      rw [Numeral.value_ofDigits, hof, complete]
      exact blames_extend hroom
    · exact blames_extend hroom
  · rw [Byte.digit_of_not_isDigit (by simpa using hb)]
    exact blames_reject

lemma blames_terminator {station : Station} {parameter : Parameter} (hroom : body.length < 14) :
    (step traffic mode (.terminator body station parameter) b).Blames (Byte.misfit b) := by
  rw [step]
  split_ifs
  · exact blames_extend hroom
  · exact blames_extend hroom
  · exact blames_reject

lemma blames_value {target : Option (Station × Parameter)} {front digits : Bytes} {sign : UInt8}
    (hfront : Front target front) (hsign : Byte.isSign sign = true)
    (hdigits : Decimal.AllDigits digits) (hlength : digits.length ≤ 5) :
    (step traffic mode
        (.value (front ++ sign :: digits) target (sign == Byte.minus) (.ofDigits digits)) b).Blames
      (blame
        (.value (front ++ sign :: digits) target (sign == Byte.minus) (.ofDigits digits)) b) := by
  have hroom : (front ++ sign :: digits).length < 14 := by
    have := hfront.length_le
    rw [List.length_append, List.length_cons]
    omega
  by_cases hetx : b = Byte.etx
  · subst hetx
    by_cases hcount : (Numeral.ofDigits digits).count = 0
    · rw [step, if_pos rfl, if_pos hcount, blame, if_neg (by rw [hcount]; simp)]
      exact blames_fail
    · have hpos : 0 < digits.length := Nat.pos_of_ne_zero hcount
      obtain ⟨value, _, hvalue⟩ := Value.ofInt_signed hsign hdigits hpos hlength
      rw [step_value_etx hvalue hroom]
      exact blames_silent
  · rw [step, if_neg hetx, blame]
    by_cases hb : Byte.isDigit b = true
    · rw [Byte.digit_of_isDigit hb]
      dsimp only
      simp only [hb, and_true]
      split_ifs
      · exact blames_fail
      · exact blames_extend hroom
    · rw [Byte.digit_of_not_isDigit (by simpa using hb), if_neg fun hfive => hb hfive.2]
      exact blames_reject

lemma blames_selectAddress {a : Bytes} (ha : Decimal.AllDigits a) :
    (step traffic mode (.selectAddress (.ofDigits a)) b).Blames (Byte.misfit b) := by
  rw [step]
  by_cases hb : Byte.isDigit b = true
  · rw [Byte.digit_of_isDigit hb]
    dsimp only
    rw [Numeral.push_ofDigits]
    split_ifs with hcount
    · obtain ⟨station, hof, -⟩ := Station.ofInt_number hcount (Decimal.allDigits_concat ha hb)
      rw [Numeral.value_ofDigits, hof, complete]
      exact blames_silent
    · exact blames_silent
  · rw [Byte.digit_of_not_isDigit (by simpa using hb)]
    dsimp only
    split_ifs
    · exact blames_begin
    · exact blames_reject

/-- Only an open frame can be broken. -/
lemma isOpen_of_defect {defect : Defect}
    (h : (phase.step traffic mode b).defect? = some defect) : phase.isOpen = true := by
  cases phase with
  | idle => cases defect?_begin.symm.trans h
  | selectAddress field =>
      by_contra hopen
      have hcount : field.count = 0 := by simpa [isOpen] using hopen
      rw [step] at h
      cases hdigit : Byte.digit b with
      | error fault =>
          rw [hdigit] at h
          dsimp only at h
          rw [if_pos hcount] at h
          cases defect?_begin.symm.trans h
      | ok d =>
          rw [hdigit] at h
          dsimp only at h
          rw [if_neg (by rw [Numeral.count_push, hcount]; decide)] at h
          cases h
  | skipping =>
      rw [step] at h
      split_ifs at h
      · cases defect?_begin.symm.trans h
      · cases h
      · cases h
  | skippingCheck => cases h
  | _ => rfl

/-- **A byte that breaks a frame does so for the reason that its place and it have.** -/
theorem blames_step (mode : CheckMode) (b : UInt8) (hholds : phase.Holds traffic seen) :
    (phase.step traffic mode b).Blames (phase.blame b) := by
  cases hholds with
  | idle => exact blames_begin
  | address ha hlength => exact blames_address ha hlength
  | parameter ha hp hlength => exact blames_parameter ha hp hlength
  | terminator ha hp => exact blames_terminator (by rw [ha.length_fields hp]; decide)
  | value hfront hsign hdigits hlength => exact blames_value hfront hsign hdigits hlength
  | checksum hbody =>
      rw [step]
      split_ifs
      · exact blames_frame
      · exact blames_fail
  | selectAddress hcommands ha hlength => exact blames_selectAddress ha
  | selectTerminator hcommands ha =>
      rw [step]
      split_ifs
      · exact blames_frame
      · exact blames_reject
  | skipping =>
      rw [step]
      split_ifs
      · exact blames_begin
      · exact blames_silent
      · exact blames_silent
  | skippingCheck => exact blames_silent

end Phase

namespace Receiver.Follows

variable {receiver : Receiver} {traffic : Traffic} {mode : CheckMode} {past bytes : Bytes}
  {defect : Defect}

/-- A call that tells of a defect is silent up to the byte that breaks the frame, and leaves that
byte if it may open one. -/
lemma exists_break (h : receiver.Follows traffic mode past)
    (hreport : (receiver.feed bytes).report? = some (.defect defect)) :
    ∃ front x rest phase, bytes = front ++ x :: rest ∧ receiver.Passes front phase ∧
      (∃ seen, phase.Holds traffic seen) ∧ (phase.step traffic mode x).defect? = some defect ∧
      (receiver.feed bytes).taken
        = if x = Byte.stx ∨ x = Byte.eot then front.length else front.length + 1 := by
  obtain ⟨front, x, rest, phase, seen, hbytes, hpasses, -, hholds, hlast⟩ :=
    h.exists_holds_of_report hreport
  have hdefect : (phase.step traffic mode x).defect? = some defect := by
    rcases hlast with ⟨next, hstep, -⟩ | ⟨left, hleft, hstep, -⟩
    · rw [hstep]
      rfl
    · rw [hstep, ← Report.defect.inj hleft]
      rfl
  have hstepped := Phase.step_of_isOpen mode x hholds (Phase.isOpen_of_defect hdefect)
  refine ⟨front, x, rest, phase, hbytes, hpasses, ⟨seen, hholds⟩, hdefect, ?_⟩
  rcases hlast with ⟨next, hstep, hfeed⟩ | ⟨left, -, hstep, hfeed⟩
  · rw [hstep] at hstepped
    cases hstepped with
    | broken hopens =>
        have hx : ¬ (x = Byte.stx ∨ x = Byte.eot) := by
          rw [← Byte.opensFrame_iff, hopens]
          exact Bool.false_ne_true
        rw [if_neg hx, hfeed]
  · rw [hstep] at hstepped
    cases hstepped with
    | interrupted hopens => rw [if_pos (Byte.opensFrame_iff.mp hopens), hfeed]

/-- A receiver blames a broken frame on nothing but the frame. -/
lemma breaksFrame_of_defect (h : receiver.Follows traffic mode past)
    (hreport : (receiver.feed bytes).report? = some (.defect defect)) :
    defect.fault.breaksFrame = true := by
  obtain ⟨-, x, -, phase, -, -, ⟨seen, hholds⟩, hdefect, -⟩ := h.exists_break hreport
  rw [Phase.blames_step mode x hholds defect hdefect]
  exact phase.breaksFrame_blame x

end Receiver.Follows

end FieldBus
